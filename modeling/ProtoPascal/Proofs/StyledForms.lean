import Mathlib.Data.List.Induction
import ProtoPascal.Proofs.Identifiers

/-!
Which forms of ASCII names are their own form. In capitals with underscores all of them are. In the
style of Pascal some are not: a form is divided into words anew when it is styled again, and a capital
is taken for the start of a word only where the letters around it show this. So `AB` is the form of
`a_b`, and its own form is `Ab`. A rule recognises the identifiers whose inner text is its own form, and
not all of those that it builds.

* `caseWordsFrom_titled_iff`: where the words of a run start with its capitals;
* `applyChars_pascal_eq_self_iff`: which texts are their own form in the style of Pascal;
* `exists_applyChars_pascal_eq_iff`: which texts are the form of some name in the style of Pascal;
* `applyChars_screamingSnake_idem`: a form in capitals is its own form;
* `couldProduce_iff_built`: which of the identifiers that a rule builds it recognises.
-/

namespace ProtoPascal.Text

/-! ### ASCII -/

/-- A text of ASCII characters. -/
def Ascii (text : String) : Prop :=
  ∀ character ∈ text.toList, character.toNat < 128

instance (text : String) : Decidable (Ascii text) :=
  List.decidableBAll (fun character : Char => character.toNat < 128) text.toList

/-- What the tables of characters say of ASCII characters. -/
@[mk_iff]
structure AsciiTables (character : Char) : Prop where
  alphanumeric : isAlphanumeric character = character.isAlphanum
  lowercase : isLowercase character = character.isLower
  uppercase : isUppercase character = character.isUpper
  upper : upperCase character = [character.toUpper]
  lower : lowerCase character = [character.toLower]
  upper_alphanumeric : character.toUpper.isAlphanum = character.isAlphanum
  upper_not_small : character.toUpper.isLower = false
  upper_eq_self : character.toUpper = character ↔ character.isLower = false
  lower_eq_self : character.toLower = character ↔ character.isUpper = false
  one_case : character.isUpper = true → character.isLower = false

instance (character : Char) : Decidable (AsciiTables character) :=
  decidable_of_iff _ (asciiTables_iff character).symm

theorem asciiTables {character : Char} (ascii : character.toNat < 128) : AsciiTables character := by
  have each : ∀ code < 128, AsciiTables (Char.ofNat code) := by decide +kernel
  have holds := each character.toNat ascii
  rwa [Char.ofNat_toNat] at holds

/-- Letters and digits are ASCII characters. -/
theorem ascii_of_isAlphanum {characters : List Char}
    (alphanumeric : ∀ character ∈ characters, character.isAlphanum = true) :
    ∀ character ∈ characters, character.toNat < 128 := fun character inside =>
  toNat_lt_of_isWordCharacter (isWordCharacter_of_isAlphanum (alphanumeric character inside))

theorem tables_of_isAlphanum {character : Char} (alphanumeric : character.isAlphanum = true) :
    AsciiTables character :=
  asciiTables (toNat_lt_of_isWordCharacter (isWordCharacter_of_isAlphanum alphanumeric))

theorem lowerTail_of_ascii {characters : List Char}
    (ascii : ∀ character ∈ characters, character.toNat < 128) :
    lowerTail characters = characters.map Char.toLower := by
  fun_induction lowerTail characters with
  | case1 => rfl
  | case2 => exact absurd (ascii 'Σ' (List.mem_singleton_self _)) (by decide)
  | case3 first rest _ ih =>
    rw [List.forall_mem_cons] at ascii
    rw [(asciiTables ascii.1).lower, ih ascii.2]
    rfl

theorem capitalize_of_ascii {first : Char} {rest : List Char} (ascii : first.toNat < 128)
    (others : ∀ character ∈ rest, character.toNat < 128) :
    capitalize (first :: rest) = first.toUpper :: rest.map Char.toLower := by
  rw [capitalize, (asciiTables ascii).upper, lowerTail_of_ascii others]
  rfl

theorem capitals_of_ascii {word : List Char} (ascii : ∀ character ∈ word, character.toNat < 128) :
    capitals word = word.map Char.toUpper := by
  rw [capitals, List.map_eq_flatMap]
  exact List.flatMap_congr fun character inside => (asciiTables (ascii character inside)).upper

/-- The characters of a word of an ASCII text are letters and digits. -/
theorem isAlphanum_of_mem_ascii_words {characters word : List Char}
    (ascii : ∀ character ∈ characters, character.toNat < 128) (inside : word ∈ words characters) :
    ∀ character ∈ word, character.isAlphanum = true := by
  intro character here
  have kept : character ∈ (words characters).flatten := List.mem_flatten.mpr ⟨word, inside, here⟩
  rw [flatten_words, List.mem_filter] at kept
  rw [← (asciiTables (ascii character kept.1)).alphanumeric]
  exact kept.2

/-! ### Words that stay whole -/

theorem caseWordsFrom_of_no_small {characters : List Char} (some_character : characters ≠ [])
    (large : ∀ character ∈ characters, isLowercase character = false) {state : WordState}
    (capital : state ≠ .lowercase) (current : List Char) :
    caseWordsFrom state current characters = [current ++ characters] := by
  have stays {state : WordState} {character : Char} (inside : isLowercase character = false)
      (before : state ≠ .lowercase) : state.next character ≠ .lowercase := by
    unfold WordState.next
    rw [inside]
    split
    · exact absurd ‹_› Bool.false_ne_true
    · split
      · exact WordState.noConfusion
      · exact before
  fun_induction caseWordsFrom state current characters with
  | case1 => exact absurd rfl some_character
  | case2 => rfl
  | case3 state current character following rest ends ih =>
    have next := stays (large character (List.mem_cons_self ..)) capital
    simp [next] at ends
  | case4 state current character following rest _ opens ih =>
    rw [large following (by simp)] at opens
    simp at opens
  | case5 state current character following rest _ _ ih =>
    rw [ih (List.cons_ne_nil _ _) (fun other inside => large other (List.mem_cons_of_mem _ inside))
      (stays (large character (List.mem_cons_self ..)) capital)]
    simp

theorem ne_nil_of_mem_caseWordsFrom {state : WordState} {current characters word : List Char}
    (begun : state = .uppercase → current ≠ [])
    (inside : word ∈ caseWordsFrom state current characters) : word ≠ [] := by
  fun_induction caseWordsFrom state current characters with
  | case1 => cases inside
  | case2 state current character =>
    rw [List.mem_singleton] at inside
    exact inside ▸ List.append_ne_nil_of_right_ne_nil _ (List.cons_ne_nil _ _)
  | case3 state current character following rest _ ih =>
    rcases List.mem_cons.mp inside with rfl | later
    · exact List.append_ne_nil_of_right_ne_nil _ (List.cons_ne_nil _ _)
    · exact ih (fun impossible => by cases impossible) later
  | case4 state current character following rest _ opens ih =>
    simp only [Bool.and_eq_true, decide_eq_true_eq] at opens
    rcases List.mem_cons.mp inside with rfl | later
    · exact begun opens.1.1
    · exact ih (fun _ => List.cons_ne_nil _ _) later
  | case5 state current character following rest _ _ ih =>
    exact ih (fun _ => List.append_ne_nil_of_right_ne_nil _ (List.cons_ne_nil _ _)) inside

theorem ne_nil_of_mem_words {characters word : List Char} (inside : word ∈ words characters) :
    word ≠ [] := by
  obtain ⟨piece, -, found⟩ := List.mem_flatMap.mp inside
  exact ne_nil_of_mem_caseWordsFrom (fun impossible => by cases impossible) found

/-- The words of a run of letters and digits are those that the case of its letters shows. -/
theorem words_of_isAlphanum {characters : List Char}
    (alphanumeric : ∀ character ∈ characters, character.isAlphanum = true) :
    words characters = caseWords characters := by
  have whole : ∀ character ∈ characters, (!isAlphanumeric character) = false := by
    intro character inside
    rw [(tables_of_isAlphanum (alphanumeric character inside)).alphanumeric,
      alphanumeric character inside, Bool.not_true]
  obtain ⟨piece, pieces, found, joined⟩ := piecesBy_append whole []
  cases found
  rw [List.append_nil] at joined
  rw [words, joined, List.flatMap_singleton]

/-- Texts without dividers are the pieces of what they are joined to with a divider. -/
theorem piecesBy_intercalate {divides : Char → Bool} {divider : Char}
    (divided : divides divider = true) {texts : List (List Char)} (some_text : texts ≠ [])
    (whole : ∀ text ∈ texts, ∀ character ∈ text, divides character = false) :
    piecesBy divides ([divider].intercalate texts) = texts := by
  induction texts with
  | nil => exact absurd rfl some_text
  | cons text rest ih =>
    rw [List.forall_mem_cons] at whole
    cases rest with
    | nil =>
      obtain ⟨piece, pieces, found, joined⟩ := piecesBy_append whole.1 []
      cases found
      rw [List.append_nil] at joined
      simpa using joined
    | cons next others =>
      have later := ih (List.cons_ne_nil _ _) whole.2
      obtain ⟨piece, pieces, found, joined⟩ :=
        piecesBy_append whole.1 (divider :: [divider].intercalate (next :: others))
      rw [piecesBy, if_pos divided, later, List.cons.injEq] at found
      obtain ⟨rfl, rfl⟩ := found
      rw [List.intercalate_cons_cons, List.append_assoc]
      simpa using joined

/-- What holds of a divider and of the characters of texts holds of what they are joined to. -/
theorem forall_mem_intercalate {holds : Char → Prop} {divider : Char} (divider_holds : holds divider)
    {texts : List (List Char)} (each : ∀ text ∈ texts, ∀ character ∈ text, holds character) :
    ∀ character ∈ [divider].intercalate texts, holds character := by
  induction texts with
  | nil => exact fun _ impossible => absurd impossible List.not_mem_nil
  | cons text rest ih =>
    rw [List.forall_mem_cons] at each
    cases rest with
    | nil => simpa using each.1
    | cons next others =>
      rw [List.intercalate_cons_cons, List.forall_mem_append, List.forall_mem_append,
        List.forall_mem_singleton]
      exact ⟨⟨each.1, divider_holds⟩, ih each.2⟩

/-- The words of texts with underscores between them are these texts, if each of them is one word. -/
theorem words_intercalate {texts : List (List Char)}
    (alphanumeric : ∀ text ∈ texts, ∀ character ∈ text, character.isAlphanum = true)
    (single : ∀ text ∈ texts, caseWords text = [text]) :
    words (['_'].intercalate texts) = texts := by
  have underscore : isAlphanumeric '_' = false := by decide +kernel
  have whole : ∀ text ∈ texts, ∀ character ∈ text, (!isAlphanumeric character) = false := by
    intro text inside character here
    have letter := alphanumeric text inside character here
    rw [(tables_of_isAlphanum letter).alphanumeric, letter, Bool.not_true]
  by_cases some_text : texts = []
  · subst some_text
    rfl
  · rw [words, piecesBy_intercalate (by rw [underscore, Bool.not_false]) some_text whole,
      List.flatMap_congr single, ← List.map_eq_flatMap, List.map_id']

/-! ### Forms in the style of Pascal -/

/-- A word that does not start with a small letter and has no capital after its start. -/
def Titled : List Char → Prop
  | [] => True
  | first :: rest => first.isLower = false ∧ ∀ character ∈ rest, character.isUpper = false

theorem titled_nil : Titled [] :=
  trivial

theorem titled_concat {word : List Char} {last : Char} :
    Titled (word ++ [last]) ↔
      Titled word ∧ (word = [] → last.isLower = false) ∧ (word ≠ [] → last.isUpper = false) := by
  cases word with
  | nil => simp [Titled]
  | cons first rest =>
    simp only [Titled, List.cons_append, List.forall_mem_append, List.forall_mem_singleton, ne_eq,
      reduceCtorEq, not_false_eq_true, false_implies, true_implies, true_and, and_assoc]

/-- A word of letters and digits is capitalised already exactly if it is titled. -/
theorem capitalize_eq_self_iff {word : List Char}
    (alphanumeric : ∀ character ∈ word, character.isAlphanum = true) :
    capitalize word = word ↔ Titled word := by
  have ascii := ascii_of_isAlphanum alphanumeric
  cases word with
  | nil => exact iff_of_true rfl trivial
  | cons first rest =>
    rw [List.forall_mem_cons] at ascii
    have unchanged : rest.map Char.toLower = rest ↔
        ∀ character ∈ rest, character.isUpper = false := by
      rw [← forall₂_congr fun character inside =>
        (asciiTables (ascii.2 character inside)).lower_eq_self, ← List.map_inj_left, List.map_id']
    rw [capitalize_of_ascii ascii.1 ascii.2, List.cons.injEq, (asciiTables ascii.1).upper_eq_self,
      unchanged, Titled]

theorem length_capitalize {word : List Char} (ascii : ∀ character ∈ word, character.toNat < 128) :
    (capitalize word).length = word.length := by
  cases word with
  | nil => rfl
  | cons first rest =>
    rw [List.forall_mem_cons] at ascii
    rw [capitalize_of_ascii ascii.1 ascii.2, List.length_cons, List.length_map, List.length_cons]

/-- Capitalised words make up the words themselves exactly if each word is titled. -/
theorem flatMap_capitalize_eq_flatten_iff {texts : List (List Char)}
    (alphanumeric : ∀ word ∈ texts, ∀ character ∈ word, character.isAlphanum = true) :
    texts.flatMap capitalize = texts.flatten ↔ ∀ word ∈ texts, Titled word := by
  induction texts with
  | nil => exact iff_of_true rfl fun _ impossible => absurd impossible List.not_mem_nil
  | cons word rest ih =>
    rw [List.forall_mem_cons] at alphanumeric
    have ascii := ascii_of_isAlphanum alphanumeric.1
    rw [List.flatMap_cons, List.flatten_cons, List.forall_mem_cons,
      ← capitalize_eq_self_iff alphanumeric.1, ← ih alphanumeric.2]
    constructor
    · exact fun same => List.append_inj same (length_capitalize ascii)
    · rintro ⟨head, tail⟩
      rw [head, tail]

/-- Where a capital is seen to start a word, after letters that lead to a state: the last of them is
small, or it is a capital itself and a small letter follows. -/
def Shown (state : WordState) (after : List Char) : Prop :=
  state = .lowercase ∨ state = .uppercase ∧ after.head?.any Char.isLower = true

/-- Every capital of the characters that follow is seen to start a word. -/
def Spaced (state : WordState) : List Char → Prop
  | [] => True
  | character :: rest =>
    (character.isUpper = true → Shown state rest) ∧ Spaced (state.next character) rest

theorem next_of_isLower {character : Char} (alphanumeric : character.isAlphanum = true)
    (small : character.isLower = true) (state : WordState) : state.next character = .lowercase := by
  rw [WordState.next, (tables_of_isAlphanum alphanumeric).lowercase, if_pos small]

theorem next_of_isUpper {character : Char} (alphanumeric : character.isAlphanum = true)
    (capital : character.isUpper = true) (state : WordState) :
    state.next character = .uppercase := by
  have tables := tables_of_isAlphanum alphanumeric
  rw [WordState.next, tables.lowercase, tables.one_case capital, if_neg Bool.false_ne_true,
    tables.uppercase, if_pos capital]

/-- **The words of a run are titled** exactly if the word being read is, and every capital that comes
after its start is seen to start a word. -/
theorem caseWordsFrom_titled_iff {state : WordState} {current rest : List Char} {first : Char}
    (alphanumeric : ∀ character ∈ first :: rest, character.isAlphanum = true)
    (unread : state = .lowercase → first.isUpper = false) :
    (∀ word ∈ caseWordsFrom state current (first :: rest), Titled word) ↔
      Titled current ∧ (current = [] → first.isLower = false) ∧
        (current ≠ [] → first.isUpper = true → Shown state rest) ∧
        Spaced (state.next first) rest := by
  induction rest generalizing state current first with
  | nil =>
    have hidden : (current ≠ [] → first.isUpper = false) ↔
        (current ≠ [] → first.isUpper = true → Shown state []) := by
      unfold Shown
      grind
    rw [caseWordsFrom, List.forall_mem_singleton, titled_concat, hidden]
    simp [Spaced]
  | cons following rest ih =>
    rw [List.forall_mem_cons] at alphanumeric
    have tables := tables_of_isAlphanum alphanumeric.1
    have letter := alphanumeric.2 following (List.mem_cons_self ..)
    have followingTables := tables_of_isAlphanum letter
    rw [caseWordsFrom, Spaced]
    split
    · -- A word ends after the first character, and a capital follows.
      next ends =>
      rw [Bool.and_eq_true, decide_eq_true_eq, followingTables.uppercase] at ends
      have no_capital : first.isUpper = false := by
        by_contra capital
        rw [Bool.not_eq_false] at capital
        rw [next_of_isUpper alphanumeric.1 capital] at ends
        exact WordState.noConfusion ends.1
      have shown : Shown .lowercase rest := .inl rfl
      have large := followingTables.one_case ends.2
      rw [List.forall_mem_cons, titled_concat, ih alphanumeric.2 (fun fresh => by cases fresh),
        next_of_isUpper letter ends.2, next_of_isUpper letter ends.2, ends.1]
      grind [titled_nil]
    · next continues =>
      split
      · -- A word ends before the first character, a capital after capitals, and a small letter follows.
        next opens =>
        rw [Bool.and_eq_true, Bool.and_eq_true, decide_eq_true_eq, tables.uppercase,
          followingTables.lowercase] at opens
        obtain ⟨⟨rfl, capital⟩, small⟩ := opens
        have shown : Shown .uppercase (following :: rest) := .inr ⟨rfl, small⟩
        have titled : Titled [first] :=
          ⟨tables.one_case capital, fun _ impossible => absurd impossible List.not_mem_nil⟩
        have no_capital : following.isUpper = false := by
          by_contra large
          rw [Bool.not_eq_false] at large
          rw [followingTables.one_case large] at small
          exact Bool.false_ne_true small
        rw [List.forall_mem_cons, ih alphanumeric.2 (fun fresh => by cases fresh),
          next_of_isLower letter small, next_of_isLower letter small]
        grind [tables.one_case]
      · -- The word goes on, so its next character must not be a capital.
        next goes_on =>
        rw [Bool.and_eq_true, decide_eq_true_eq, followingTables.uppercase] at continues
        rw [Bool.and_eq_true, Bool.and_eq_true, decide_eq_true_eq, tables.uppercase,
          followingTables.lowercase] at goes_on
        have hidden : (first.isUpper = true → Shown state (following :: rest)) ↔
            first.isUpper = false := by
          unfold Shown
          grind
        have begun : current ++ [first] ≠ [] :=
          List.append_ne_nil_of_right_ne_nil _ (List.cons_ne_nil _ _)
        have following_unread : state.next first = .lowercase → following.isUpper = false := by
          grind
        rw [ih alphanumeric.2 following_unread, titled_concat, hidden]
        simp only [begun, ne_eq, not_false_eq_true, false_implies, true_implies, true_and, and_assoc]

/-- Every capital after the first character is seen to start a word: a letter stands before it, and
the last such letter is small, or a small letter follows the capital. -/
def CapitalsOpenWords (characters : List Char) : Prop :=
  ∀ before capital after, characters = before ++ capital :: after → before ≠ [] →
    capital.isUpper = true →
    ∃ letter, (before.filter Char.isAlpha).getLast? = some letter ∧
      (letter.isLower = true ∨ after.head?.any Char.isLower = true)

/-- The state after a run tells the case of its last letter. -/
theorem shown_foldl_iff {before after : List Char}
    (alphanumeric : ∀ character ∈ before, character.isAlphanum = true) :
    Shown (before.foldl WordState.next .fresh) after ↔
      ∃ letter, (before.filter Char.isAlpha).getLast? = some letter ∧
        (letter.isLower = true ∨ after.head?.any Char.isLower = true) := by
  induction before using List.reverseRecOn with
  | nil => simp [Shown]
  | append_singleton before last ih =>
    rw [List.forall_mem_append, List.forall_mem_singleton] at alphanumeric
    rw [List.foldl_append, List.foldl_cons, List.foldl_nil, List.filter_append]
    have tables := tables_of_isAlphanum alphanumeric.2
    have letter : last.isAlpha = (last.isUpper || last.isLower) := rfl
    by_cases small : last.isLower = true
    · rw [next_of_isLower alphanumeric.2 small]
      simp [Shown, letter, small]
    · by_cases capital : last.isUpper = true
      · rw [next_of_isUpper alphanumeric.2 capital]
        simp [Shown, letter, small, capital]
      · have unchanged (state : WordState) : state.next last = state := by
          rw [WordState.next, tables.lowercase, tables.uppercase, if_neg small, if_neg capital]
        rw [unchanged, ih alphanumeric.1]
        simp [letter, small, capital]

theorem spaced_iff {state : WordState} {characters : List Char} :
    Spaced state characters ↔
      ∀ before capital after, characters = before ++ capital :: after → capital.isUpper = true →
        Shown (before.foldl WordState.next state) after := by
  induction characters generalizing state with
  | nil => simp [Spaced]
  | cons first rest ih =>
    rw [Spaced, ih]
    constructor
    · rintro ⟨here, later⟩ before capital after split large
      cases before with
      | nil =>
        obtain ⟨rfl, rfl⟩ := List.cons_eq_cons.mp split
        exact here large
      | cons start others =>
        obtain ⟨rfl, tail⟩ := List.cons_eq_cons.mp split
        exact later others capital after tail large
    · intro everywhere
      refine ⟨fun large => everywhere [] first rest rfl large, ?_⟩
      intro before capital after split large
      exact everywhere (first :: before) capital after (by rw [split]; rfl) large

/-- After its first character a run is spaced exactly if its capitals open words. -/
theorem spaced_next_iff {first : Char} {rest : List Char}
    (alphanumeric : ∀ character ∈ first :: rest, character.isAlphanum = true) :
    Spaced (WordState.next .fresh first) rest ↔ CapitalsOpenWords (first :: rest) := by
  have shown {before after : List Char} {capital : Char} (split : rest = before ++ capital :: after) :
      Shown (before.foldl WordState.next (WordState.next .fresh first)) after ↔
        ∃ letter, ((first :: before).filter Char.isAlpha).getLast? = some letter ∧
          (letter.isLower = true ∨ after.head?.any Char.isLower = true) := by
    rw [← shown_foldl_iff, List.foldl_cons]
    intro character inside
    refine alphanumeric character ?_
    rw [split, ← List.cons_append]
    exact List.mem_append_left _ inside
  rw [spaced_iff]
  constructor
  · intro everywhere before capital after split begun large
    cases before with
    | nil => exact absurd rfl begun
    | cons start others =>
      obtain ⟨rfl, tail⟩ := List.cons_eq_cons.mp split
      exact (shown tail).mp (everywhere others capital after tail large)
  · intro opened before capital after split large
    exact (shown split).mpr
      (opened (first :: before) capital after (by rw [split]; rfl) (List.cons_ne_nil _ _) large)

/-- A text starts with something else than a small letter, or is empty. -/
def StartsLarge (characters : List Char) : Prop :=
  characters.head?.any Char.isLower = false

/-- A form in the style of Pascal consists of letters and digits. -/
theorem isAlphanum_applyChars_pascal {characters : List Char}
    (ascii : ∀ character ∈ characters, character.toNat < 128) :
    ∀ character ∈ CaseStyle.pascal.applyChars characters, character.isAlphanum = true := by
  rw [CaseStyle.applyChars, List.forall_mem_flatMap]
  exact fun word found => isAlphanum_capitalize (isAlphanum_of_mem_ascii_words ascii found)

/-- A form in the style of Pascal does not start with a small letter. -/
theorem startsLarge_applyChars_pascal {characters : List Char}
    (ascii : ∀ character ∈ characters, character.toNat < 128) :
    StartsLarge (CaseStyle.pascal.applyChars characters) := by
  have each {texts : List (List Char)}
      (alphanumeric : ∀ word ∈ texts, ∀ character ∈ word, character.isAlphanum = true) :
      StartsLarge (texts.flatMap capitalize) := by
    induction texts with
    | nil => rfl
    | cons word rest ih =>
      rw [List.forall_mem_cons] at alphanumeric
      cases word with
      | nil => exact ih alphanumeric.2
      | cons first others =>
        have tables := tables_of_isAlphanum (alphanumeric.1 first (List.mem_cons_self ..))
        rw [List.flatMap_cons, capitalize, tables.upper]
        exact tables.upper_not_small
  exact each fun word found => isAlphanum_of_mem_ascii_words ascii found

/-- **A text of letters and digits is its own form in the style of Pascal** exactly if it does not
start with a small letter and its capitals open words. -/
theorem applyChars_pascal_eq_self_iff {characters : List Char}
    (alphanumeric : ∀ character ∈ characters, character.isAlphanum = true) :
    CaseStyle.pascal.applyChars characters = characters ↔
      StartsLarge characters ∧ CapitalsOpenWords characters := by
  cases characters with
  | nil =>
    refine iff_of_true rfl ⟨rfl, ?_⟩
    intro before capital after split
    exact absurd split.symm (List.append_ne_nil_of_right_ne_nil _ (List.cons_ne_nil _ _))
  | cons first rest =>
    have joined : (caseWords (first :: rest)).flatten = first :: rest :=
      flatten_caseWordsFrom (List.cons_ne_nil _ _)
    have titled : CaseStyle.pascal.applyChars (first :: rest) = first :: rest ↔
        ∀ word ∈ caseWords (first :: rest), Titled word := by
      rw [← flatMap_capitalize_eq_flatten_iff, joined, CaseStyle.applyChars,
        words_of_isAlphanum alphanumeric]
      intro word inside character here
      refine alphanumeric character ?_
      rw [← joined]
      exact List.mem_flatten.mpr ⟨word, inside, here⟩
    rw [titled, caseWords, caseWordsFrom_titled_iff alphanumeric (fun fresh => by cases fresh),
      spaced_next_iff alphanumeric]
    simp [titled_nil, StartsLarge]

theorem caseWordsFrom_of_no_capital {first : Char} {rest : List Char}
    (small : ∀ character ∈ rest, isUppercase character = false) {state : WordState}
    (unread : state = .uppercase → isUppercase first = false) (current : List Char) :
    caseWordsFrom state current (first :: rest) = [current ++ first :: rest] := by
  induction rest generalizing state current first with
  | nil => rfl
  | cons following rest ih =>
    rw [List.forall_mem_cons] at small
    have unopened : ¬ (state = .uppercase ∧ isUppercase first = true) := by
      rintro ⟨capital, large⟩
      rw [unread capital] at large
      exact Bool.false_ne_true large
    rw [caseWordsFrom, small.1, Bool.and_false, if_neg Bool.false_ne_true, if_neg,
      ih small.2 (fun _ => small.1)]
    · rw [List.append_assoc]
      rfl
    · rw [Bool.and_eq_true, Bool.and_eq_true, decide_eq_true_eq]
      exact fun opens => unopened opens.1

theorem caseWords_of_titled {word : List Char} (filled : word ≠ [])
    (alphanumeric : ∀ character ∈ word, character.isAlphanum = true) (titled : Titled word) :
    caseWords word = [word] := by
  cases word with
  | nil => exact absurd rfl filled
  | cons first rest =>
    rw [List.forall_mem_cons] at alphanumeric
    refine caseWordsFrom_of_no_capital ?_ WordState.noConfusion []
    intro character inside
    rw [(tables_of_isAlphanum (alphanumeric.2 character inside)).uppercase]
    exact titled.2 character inside

/-- A text of letters and digits that does not start with a small letter is made of titled words: each
capital starts one. -/
theorem exists_titled_words {characters : List Char}
    (alphanumeric : ∀ character ∈ characters, character.isAlphanum = true)
    (large : StartsLarge characters) :
    ∃ texts : List (List Char), texts.flatten = characters ∧
      ∀ text ∈ texts, text ≠ [] ∧ Titled text := by
  induction characters using List.reverseRecOn with
  | nil => exact ⟨[], rfl, fun _ impossible => absurd impossible List.not_mem_nil⟩
  | append_singleton before last ih =>
    rw [List.forall_mem_append, List.forall_mem_singleton] at alphanumeric
    by_cases opens : before = [] ∨ last.isUpper = true
    · -- The last character is a word of its own.
      have last_large : last.isLower = false := by
        rcases opens with rfl | capital
        · simpa [StartsLarge] using large
        · exact (tables_of_isAlphanum alphanumeric.2).one_case capital
      have before_large : StartsLarge before := by
        cases before with
        | nil => rfl
        | cons first rest => exact large
      obtain ⟨texts, joined, titled⟩ := ih alphanumeric.1 before_large
      refine ⟨texts ++ [[last]], by rw [List.flatten_append, joined]; rfl, ?_⟩
      rw [List.forall_mem_append, List.forall_mem_singleton]
      exact ⟨titled, List.cons_ne_nil _ _, last_large,
        fun _ impossible => absurd impossible List.not_mem_nil⟩
    · -- The last character belongs to the word before it.
      obtain ⟨begun, small⟩ := not_or.mp opens
      obtain ⟨first, rest, rfl⟩ := List.exists_cons_of_ne_nil begun
      obtain ⟨texts, joined, titled⟩ := ih alphanumeric.1 large
      obtain rfl | ⟨others, word, rfl⟩ := List.eq_nil_or_concat' texts
      · exact absurd joined.symm begun
      rw [List.forall_mem_append, List.forall_mem_singleton] at titled
      refine ⟨others ++ [word ++ [last]], by rw [← joined]; simp, ?_⟩
      rw [List.forall_mem_append, List.forall_mem_singleton, titled_concat]
      exact ⟨titled.1, List.append_ne_nil_of_left_ne_nil titled.2.1 _, titled.2.2,
        fun empty => absurd empty titled.2.1, fun _ => Bool.eq_false_iff.mpr small⟩

/-- **The forms of ASCII names in the style of Pascal** are the texts of letters and digits that do not
start with a small letter. -/
theorem exists_applyChars_pascal_eq_iff {characters : List Char} :
    (∃ name, (∀ character ∈ name, character.toNat < 128) ∧
      CaseStyle.pascal.applyChars name = characters) ↔
    (∀ character ∈ characters, character.isAlphanum = true) ∧ StartsLarge characters := by
  constructor
  · rintro ⟨name, ascii, rfl⟩
    exact ⟨isAlphanum_applyChars_pascal ascii, startsLarge_applyChars_pascal ascii⟩
  · rintro ⟨alphanumeric, large⟩
    obtain ⟨texts, rfl, titled⟩ := exists_titled_words alphanumeric large
    have letters : ∀ text ∈ texts, ∀ character ∈ text, character.isAlphanum = true :=
      fun text inside character here =>
        alphanumeric character (List.mem_flatten.mpr ⟨text, inside, here⟩)
    have single : ∀ text ∈ texts, caseWords text = [text] := fun text inside =>
      caseWords_of_titled (titled text inside).1 (letters text inside) (titled text inside).2
    refine ⟨['_'].intercalate texts, ?_, ?_⟩
    · exact forall_mem_intercalate (by decide) fun text inside =>
        ascii_of_isAlphanum (letters text inside)
    · rw [CaseStyle.applyChars, words_intercalate letters single,
        flatMap_capitalize_eq_flatten_iff letters]
      exact fun text inside => (titled text inside).2

/-! ### Forms in capitals -/

/-- A word in capitals has letters and digits, none of them small. -/
theorem capitals_large {word : List Char}
    (alphanumeric : ∀ character ∈ word, character.isAlphanum = true) :
    ∀ character ∈ capitals word, character.isAlphanum = true ∧ character.isLower = false := by
  have ascii := ascii_of_isAlphanum alphanumeric
  rw [capitals_of_ascii ascii, List.forall_mem_map]
  intro character inside
  have tables := asciiTables (ascii character inside)
  exact ⟨tables.upper_alphanumeric.trans (alphanumeric character inside), tables.upper_not_small⟩

/-- **A form in capitals is its own form.** -/
theorem applyChars_screamingSnake_idem {characters : List Char}
    (ascii : ∀ character ∈ characters, character.toNat < 128) :
    CaseStyle.screamingSnake.applyChars (CaseStyle.screamingSnake.applyChars characters) =
      CaseStyle.screamingSnake.applyChars characters := by
  have alphanumeric : ∀ word ∈ words characters, ∀ character ∈ word, character.isAlphanum = true :=
    fun word inside => isAlphanum_of_mem_ascii_words ascii inside
  have large : ∀ text ∈ (words characters).map capitals, ∀ character ∈ text,
      character.isAlphanum = true ∧ character.isLower = false :=
    List.forall_mem_map.mpr fun word inside => capitals_large (alphanumeric word inside)
  have filled : ∀ text ∈ (words characters).map capitals, text ≠ [] := by
    refine List.forall_mem_map.mpr fun word inside => ?_
    rw [capitals_of_ascii (ascii_of_isAlphanum (alphanumeric word inside)), ne_eq,
      List.map_eq_nil_iff]
    exact ne_nil_of_mem_words inside
  have unchanged : ((words characters).map capitals).map capitals =
      (words characters).map capitals := by
    refine (List.map_congr_left fun text inside => ?_).trans (List.map_id' _)
    have letters := large text inside
    rw [capitals_of_ascii (ascii_of_isAlphanum fun character here => (letters character here).1)]
    refine (List.map_congr_left fun character here => ?_).trans (List.map_id' _)
    exact (tables_of_isAlphanum (letters character here).1).upper_eq_self.mpr (letters character here).2
  have single : ∀ text ∈ (words characters).map capitals, caseWords text = [text] := by
    intro text inside
    refine caseWordsFrom_of_no_small (filled text inside) ?_ WordState.noConfusion []
    intro character here
    obtain ⟨letter, not_small⟩ := large text inside character here
    rw [(tables_of_isAlphanum letter).lowercase, not_small]
  have whole : ∀ text ∈ (words characters).map capitals, ∀ character ∈ text,
      character.isAlphanum = true := fun text inside character here =>
    (large text inside character here).1
  simp only [CaseStyle.applyChars, words_intercalate whole single, unchanged]

/-- A form is its own form in capitals and as it stands, and in the style of Pascal exactly if its
capitals open words. -/
theorem applyChars_idem_iff (style : CaseStyle) {characters : List Char}
    (ascii : ∀ character ∈ characters, character.toNat < 128) :
    style.applyChars (style.applyChars characters) = style.applyChars characters ↔
      (style = .pascal → CapitalsOpenWords (style.applyChars characters)) := by
  cases style with
  | pascal =>
    rw [applyChars_pascal_eq_self_iff (isAlphanum_applyChars_pascal ascii),
      and_iff_right (startsLarge_applyChars_pascal ascii)]
    exact ⟨fun opens _ => opens, fun opens => opens rfl⟩
  | screamingSnake =>
    exact iff_of_true (applyChars_screamingSnake_idem ascii) fun impossible => by cases impossible
  | verbatim => exact iff_of_true rfl fun impossible => by cases impossible

end ProtoPascal.Text

namespace ProtoPascal.Naming

open Text

/-! ### Identifiers that a rule recognises -/

/-- Two texts are equal, up to the case of letters where a rule does not regard it. -/
def Rule.Alike (rule : Rule) (left right : String) : Prop :=
  if rule.caseSensitive then left = right else fold left = fold right

/-- An identifier is the form of a name between texts like the lead and the trail of a rule. -/
def Rule.Builds (rule : Rule) (core identifier : String) : Prop :=
  ∃ head tail, identifier = head ++ rule.style.apply core ++ tail ∧
    rule.Alike head rule.lead ∧ rule.Alike tail rule.trail

/-- A rule builds an identifier from some name with a form that is not empty. -/
def Rule.CanBuild (rule : Rule) (identifier : String) : Prop :=
  ∃ core, rule.style.apply core ≠ "" ∧ rule.Builds core identifier

theorem agree_iff_alike {rule : Rule} {left right : String} :
    rule.agree left.toList right.toList = true ↔ rule.Alike left right := by
  unfold Rule.agree Rule.Alike
  split
  · rw [beq_iff_eq, String.toList_inj]
  · rw [beq_iff_eq, fold_eq_iff]

/-- **Which of the identifiers that a rule builds it recognises.** An ASCII identifier has the shape of
a rule exactly if the rule builds it from an ASCII name with a form that is not empty, and, in the style
of Pascal, the capitals of this form open words. -/
theorem couldProduce_iff_built {rule : Rule} {identifier : String} (ascii : Ascii identifier) :
    rule.couldProduce identifier = true ↔
      ∃ core, Ascii core ∧ rule.style.apply core ≠ "" ∧ rule.Builds core identifier ∧
        (rule.style = .pascal → CapitalsOpenWords (rule.style.apply core).toList) := by
  rw [couldProduce_iff]
  constructor
  · rintro ⟨head, inner, tail, joined, leads, trails, filled, styled⟩
    have inner_ascii : ∀ character ∈ inner, character.toNat < 128 := by
      intro character inside
      refine ascii character ?_
      rw [joined]
      exact List.mem_append_right _ (List.mem_append_left _ inside)
    -- The inner text is its own form, so it is a name for itself.
    have form : rule.style.apply (String.ofList inner) = String.ofList inner := by
      rw [CaseStyle.apply, String.toList_ofList, styled]
    have opens := (applyChars_idem_iff rule.style inner_ascii).mp (by rw [styled, styled])
    refine ⟨String.ofList inner, ?_, ?_, ⟨String.ofList head, String.ofList tail, ?_, ?_, ?_⟩, ?_⟩
    · rw [Ascii, String.toList_ofList]
      exact inner_ascii
    · rw [form]
      intro empty
      have characters := congrArg String.toList empty
      rw [String.toList_ofList] at characters
      exact filled characters
    · rw [form, ← String.ofList_append, ← String.ofList_append, List.append_assoc, ← joined,
        String.ofList_toList]
    · rwa [← agree_iff_alike, String.toList_ofList]
    · rwa [← agree_iff_alike, String.toList_ofList]
    · rwa [form, String.toList_ofList, ← styled]
  · rintro ⟨core, core_ascii, filled, ⟨head, tail, joined, leads, trails⟩, opens⟩
    have form : (rule.style.apply core).toList = rule.style.applyChars core.toList :=
      String.toList_ofList
    rw [form] at opens
    refine ⟨head.toList, rule.style.applyChars core.toList, tail.toList, ?_,
      agree_iff_alike.mpr leads, agree_iff_alike.mpr trails, ?_,
      (applyChars_idem_iff rule.style core_ascii).mpr opens⟩
    · rw [joined, String.toList_append, String.toList_append, form, List.append_assoc]
    · rw [← form]
      exact fun empty => filled (String.toList_inj.mp empty)

/-- A rule recognises an identifier in other case, with a capital between a capital and a small
letter. -/
theorem capital_run_recognised :
    Ascii "tABcCASE" ∧ Rule.caseType.couldProduce "tABcCASE" = true ∧
      ∃ core, Ascii core ∧ Rule.caseType.style.apply core ≠ "" ∧
        Rule.caseType.Builds core "tABcCASE" ∧
        CapitalsOpenWords (Rule.caseType.style.apply core).toList := by
  have ascii : Ascii "tABcCASE" := by decide
  have shaped : Rule.caseType.couldProduce "tABcCASE" = true := by decide +kernel
  obtain ⟨core, core_ascii, filled, built, opens⟩ := (couldProduce_iff_built ascii).mp shaped
  exact ⟨ascii, shaped, core, core_ascii, filled, built, opens rfl⟩

/-- The rule for presence properties builds `HasAB` from `a_b` and does not recognise it. -/
theorem one_letter_words_overlooked :
    Ascii Rule.presence.lead ∧ Ascii Rule.presence.trail ∧ Ascii "HasAB" ∧
      Rule.presence.couldProduce "HasAB" = false ∧
      ∃ core, Ascii core ∧ Rule.presence.style.apply core ≠ "" ∧
        Rule.presence.Builds core "HasAB" := by
  have form : Rule.presence.style.apply "a_b" = "AB" := by decide +kernel
  refine ⟨by decide, by decide, by decide, by decide +kernel, "a_b", by decide, ?_, "Has", "", ?_,
    rfl, rfl⟩
  · rw [form]
    decide
  · rw [form]
    rfl

end ProtoPascal.Naming
