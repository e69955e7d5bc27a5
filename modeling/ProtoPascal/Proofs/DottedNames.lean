import ProtoPascal.Proofs.Naming
import ProtoPascal.UnitIdentifier

/-!
Names with dots or slashes between their segments. The identifiers that the naming rules build from
names of the schema have neither themselves: both divide words, and no other character becomes one of
them when its case changes. So a name that is joined of identifiers has these identifiers for its
segments.

* `pieces_join_divider`: texts without a divider are the pieces of what they are joined to;
* `notMem_of_generate`: an identifier has no dividers.
-/

namespace ProtoPascal.Text

/-! ### Pieces -/

theorem piecesBy_ne_nil (divides : Char → Bool) (characters : List Char) :
    piecesBy divides characters ≠ [] := by
  cases characters with
  | nil => exact List.cons_ne_nil _ _
  | cons character rest =>
    rw [piecesBy]
    split
    · exact List.cons_ne_nil _ _
    · split <;> exact List.cons_ne_nil _ _

/-- Characters that do not divide stand at the start of the first piece. -/
theorem piecesBy_append {divides : Char → Bool} {start : List Char}
    (whole : ∀ character ∈ start, divides character = false) (rest : List Char) :
    ∃ piece pieces, piecesBy divides rest = piece :: pieces ∧
      piecesBy divides (start ++ rest) = (start ++ piece) :: pieces := by
  obtain ⟨piece, pieces, found⟩ := List.exists_cons_of_ne_nil (piecesBy_ne_nil divides rest)
  refine ⟨piece, pieces, found, ?_⟩
  induction start with
  | nil => exact found
  | cons character start ih =>
    have next := ih fun other inside => whole other (List.mem_cons_of_mem _ inside)
    rw [List.cons_append, piecesBy, whole character (List.mem_cons_self ..),
      if_neg Bool.false_ne_true, next]
    rfl

/-- The characters of a piece are among those that were divided, and none of them divides. -/
theorem of_mem_piecesBy {divides : Char → Bool} {characters piece : List Char}
    (inside : piece ∈ piecesBy divides characters) :
    ∀ character ∈ piece, character ∈ characters ∧ divides character = false := by
  induction characters generalizing piece with
  | nil =>
    rw [piecesBy, List.mem_singleton] at inside
    subst inside
    exact fun _ impossible => absurd impossible List.not_mem_nil
  | cons first rest ih =>
    have later {piece : List Char} (inside : piece ∈ piecesBy divides rest) :
        ∀ character ∈ piece, character ∈ first :: rest ∧ divides character = false :=
      fun character here => (ih inside character here).imp_left (List.mem_cons_of_mem _)
    rw [piecesBy] at inside
    split at inside
    · rcases List.mem_cons.mp inside with rfl | there
      · exact fun _ impossible => absurd impossible List.not_mem_nil
      · exact later there
    · next whole =>
      obtain ⟨head, tail, found⟩ := List.exists_cons_of_ne_nil (piecesBy_ne_nil divides rest)
      rw [found] at inside later
      rcases List.mem_cons.mp inside with rfl | there
      · intro character here
        rcases List.mem_cons.mp here with rfl | there
        · exact ⟨List.mem_cons_self .., Bool.eq_false_iff.mpr whole⟩
        · exact later (List.mem_cons_self ..) character there
      · exact later (List.mem_cons_of_mem _ there)

/-- A text without dots. -/
def Undotted (text : String) : Prop :=
  '.' ∉ text.toList

instance (text : String) : Decidable (Undotted text) :=
  inferInstanceAs (Decidable ('.' ∉ text.toList))

theorem join_cons {between : String} (text : String) {rest : List String} (some_rest : rest ≠ []) :
    join between (text :: rest) = text ++ between ++ join between rest := by
  rw [join]
  exact some_rest

/-- **Texts without a divider are the pieces of what they are joined to.** -/
theorem pieces_join_divider {divider : Char} {between : String} (spelled : between.toList = [divider])
    {texts : List String} (some_text : texts ≠ [])
    (undivided : ∀ text ∈ texts, divider ∉ text.toList) :
    pieces divider (join between texts) = texts := by
  induction texts with
  | nil => exact absurd rfl some_text
  | cons text rest ih =>
    have whole : ∀ character ∈ text.toList, (character == divider) = false := by
      intro character inside
      refine beq_eq_false_iff_ne.mpr ?_
      rintro rfl
      exact undivided text (List.mem_cons_self ..) inside
    cases rest with
    | nil =>
      obtain ⟨piece, others, found, joined⟩ := piecesBy_append whole []
      rw [List.append_nil] at joined
      cases found
      rw [join, pieces, joined, List.append_nil, List.map_cons, List.map_nil, String.ofList_toList]
    | cons next rest =>
      have later := ih (List.cons_ne_nil _ _) fun other inside =>
        undivided other (List.mem_cons_of_mem _ inside)
      rw [pieces] at later
      have divided : piecesBy (· == divider) (divider :: (join between (next :: rest)).toList) =
          [] :: piecesBy (· == divider) (join between (next :: rest)).toList := by
        rw [piecesBy]
        exact if_pos (beq_self_eq_true divider)
      obtain ⟨piece, others, found, joined⟩ :=
        piecesBy_append whole (divider :: (join between (next :: rest)).toList)
      rw [divided, List.cons.injEq] at found
      obtain ⟨rfl, rfl⟩ := found
      have written : (join between (text :: next :: rest)).toList =
          text.toList ++ divider :: (join between (next :: rest)).toList := by
        rw [join_cons text (List.cons_ne_nil _ _), String.toList_append, String.toList_append,
          spelled, List.append_assoc]
        rfl
      rw [pieces, written, joined, List.map_cons, later, List.append_nil, String.ofList_toList]

/-- Texts without dots are the pieces of what they are joined to with dots. -/
theorem pieces_join {texts : List String} (some_text : texts ≠ [])
    (undotted : ∀ text ∈ texts, Undotted text) : pieces '.' (join "." texts) = texts :=
  pieces_join_divider rfl some_text undotted

theorem join_append {between : String} {left right : List String} (some_left : left ≠ [])
    (some_right : right ≠ []) :
    join between (left ++ right) = join between left ++ between ++ join between right := by
  induction left with
  | nil => exact absurd rfl some_left
  | cons text rest ih =>
    cases rest with
    | nil => exact join_cons text some_right
    | cons next rest =>
      have more : next :: rest ++ right ≠ [] := List.cons_ne_nil _ _
      rw [List.cons_append, join_cons text more, ih (List.cons_ne_nil _ _),
        join_cons text (List.cons_ne_nil _ _)]
      simp only [String.append_assoc]

/-- A character that no text has, and that does not stand between them, is not in what they are
joined to. -/
theorem notMem_join {character : Char} {between : String} (outside : character ∉ between.toList)
    {texts : List String} (lacking : ∀ text ∈ texts, character ∉ text.toList) :
    character ∉ (join between texts).toList := by
  induction texts with
  | nil => exact List.not_mem_nil
  | cons text rest ih =>
    have first := lacking text (List.mem_cons_self ..)
    cases rest with
    | nil => exact first
    | cons next rest =>
      have later := ih fun other inside => lacking other (List.mem_cons_of_mem _ inside)
      rw [join_cons text (List.cons_ne_nil _ _), String.toList_append, String.toList_append,
        List.mem_append, List.mem_append, not_or, not_or]
      exact ⟨⟨first, outside⟩, later⟩

/-! ### Words -/

/-- The words of a run of characters are made of these characters. -/
theorem mem_of_mem_caseWordsFrom {state : WordState} {current characters word : List Char}
    (inside : word ∈ caseWordsFrom state current characters) :
    ∀ character ∈ word, character ∈ current ∨ character ∈ characters := by
  fun_induction caseWordsFrom state current characters generalizing word with
  | case1 => cases inside
  | case2 => grind
  | case3 => grind
  | case4 => grind
  | case5 => grind

/-- A character that is not alphanumeric belongs to no word. -/
theorem notMem_word {divider : Char} (divides : isAlphanumeric divider = false)
    {characters word : List Char} (inside : word ∈ words characters) : divider ∉ word := by
  obtain ⟨piece, whole, part⟩ := List.mem_flatMap.mp inside
  intro here
  rcases mem_of_mem_caseWordsFrom part divider here with impossible | there
  · cases impossible
  · have alphanumeric := (of_mem_piecesBy whole divider there).2
    rw [divides] at alphanumeric
    cases alphanumeric

/-! ### Changes of case -/

/-- The images under a case mapping never have a code point that lies outside its tables. -/
structure Avoids (expansions : List (Nat × List Nat)) (shifts : List Shift) (code : Nat) : Prop where
  expanded : ∀ entry ∈ expansions, code ∉ entry.2
  shifted : ∀ shift ∈ shifts,
    code < shift.target ∨ shift.target + (shift.last - shift.first) < code

/-- A character that divides words and that no change of case produces. -/
structure IsDivider (divider : Char) : Prop where
  divides : isAlphanumeric divider = false
  upper : Avoids upperExpansions upperShifts divider.toNat
  lower : Avoids lowerExpansions lowerShifts divider.toNat
  /-- The character with the code point zero also stands for invalid code points. -/
  nonzero : divider.toNat ≠ 0

theorem isDivider_dot : IsDivider '.' :=
  ⟨by decide, ⟨by decide, by decide +kernel⟩, ⟨by decide, by decide +kernel⟩, by decide⟩

theorem isDivider_slash : IsDivider '/' :=
  ⟨by decide, ⟨by decide, by decide +kernel⟩, ⟨by decide, by decide +kernel⟩, by decide⟩

theorem isDivider_underscore : IsDivider '_' :=
  ⟨by decide, ⟨by decide, by decide +kernel⟩, ⟨by decide, by decide +kernel⟩, by decide⟩

/-- Shifts that avoid a code point map only this code point to itself. -/
theorem eq_of_applyShifts {shifts : List Shift} {code result : Nat}
    (avoided : ∀ shift ∈ shifts,
      result < shift.target ∨ shift.target + (shift.last - shift.first) < result)
    (same : applyShifts shifts code = result) : code = result := by
  induction shifts with
  | nil => exact same
  | cons shift rest ih =>
    have target := avoided shift (List.mem_cons_self ..)
    rw [applyShifts] at same
    split at same
    · exact same
    · next after =>
      split at same
      · next held =>
        rw [Bool.and_eq_true, decide_eq_true_iff] at held
        omega
      · exact ih (fun other inside => avoided other (List.mem_cons_of_mem _ inside)) same

theorem eq_toNat_of_ofNat_eq {code : Nat} {character : Char} (nonzero : character.toNat ≠ 0)
    (same : Char.ofNat code = character) : code = character.toNat := by
  by_cases valid : code.isValidChar
  · rw [Char.ofNat, dif_pos valid] at same
    exact congrArg Char.toNat same
  · rw [Char.ofNat, dif_neg valid] at same
    subst same
    exact absurd rfl nonzero

/-- A case mapping that avoids a character makes it of nothing else. -/
theorem notMem_mapCase {expansions : List (Nat × List Nat)} {shifts : List Shift} {divider : Char}
    (avoids : Avoids expansions shifts divider.toNat) (nonzero : divider.toNat ≠ 0)
    {character : Char} (other : character ≠ divider) :
    divider ∉ mapCase expansions shifts character := by
  unfold mapCase
  split
  · next codes found =>
    intro here
    obtain ⟨code, inside, same⟩ := List.mem_map.mp here
    rw [eq_toNat_of_ofNat_eq nonzero same] at inside
    obtain ⟨before, after, split, -⟩ := List.lookup_eq_some_iff.mp found
    exact avoids.expanded (_, codes) (split ▸ List.mem_append_right _ (List.mem_cons_self ..)) inside
  · intro here
    rw [List.mem_singleton] at here
    have code := eq_of_applyShifts avoids.shifted (eq_toNat_of_ofNat_eq nonzero here.symm)
    exact other (Char.toNat_inj.mp code)

theorem notMem_lowerTail {divider : Char} (isDivider : IsDivider divider) {characters : List Char}
    (undivided : divider ∉ characters) : divider ∉ lowerTail characters := by
  fun_induction lowerTail characters with
  | case1 => exact List.not_mem_nil
  | case2 =>
    -- The final sigma is a letter, which does not divide.
    intro here
    rw [List.mem_singleton] at here
    have divides := isDivider.divides
    rw [here] at divides
    revert divides
    decide
  | case3 character rest _ ih =>
    rw [List.mem_cons, not_or] at undivided
    rw [List.mem_append, not_or]
    exact ⟨notMem_mapCase isDivider.lower isDivider.nonzero (Ne.symm undivided.1), ih undivided.2⟩

/-- A name in which every word has a capital has no dividers. -/
theorem notMem_pascal {divider : Char} (isDivider : IsDivider divider) (characters : List Char) :
    divider ∉ CaseStyle.pascal.applyChars characters := by
  intro here
  obtain ⟨word, inside, capital⟩ := List.mem_flatMap.mp here
  have undivided := notMem_word isDivider.divides inside
  cases word with
  | nil => cases capital
  | cons first rest =>
    rw [List.mem_cons, not_or] at undivided
    rcases List.mem_append.mp capital with start | tail
    · exact notMem_mapCase isDivider.upper isDivider.nonzero (Ne.symm undivided.1) start
    · exact notMem_lowerTail isDivider undivided.2 tail

theorem notMem_apply_pascal {divider : Char} (isDivider : IsDivider divider) (name : String) :
    divider ∉ (CaseStyle.pascal.apply name).toList := by
  rw [CaseStyle.apply, String.toList_ofList]
  exact notMem_pascal isDivider name.toList

end ProtoPascal.Text

namespace ProtoPascal.Naming

open Text

/-- **An identifier has no dividers**, if the fixed texts of its rule have none. -/
theorem notMem_of_generate {divider : Char} (isDivider : IsDivider divider) {scope : Scope}
    {rule : Rule} {colliding : List Rule} {core identifier : String} (style : rule.style = .pascal)
    (lead : divider ∉ rule.lead.toList) (trail : divider ∉ rule.trail.toList)
    (mark : divider ∉ rule.retryMark.toList)
    (generated : scope.generate rule colliding core = .ok identifier) :
    divider ∉ identifier.toList := by
  have styled : divider ∉ (rule.style.apply core).toList := by
    rw [style]
    exact notMem_apply_pascal isDivider core
  obtain ⟨-, rfl | rfl⟩ := generate_eq_ok generated
  · simp only [Rule.plain, String.toList_append, List.mem_append, not_or]
    exact ⟨⟨lead, styled⟩, trail⟩
  · simp only [Rule.marked, String.toList_append, List.mem_append, not_or]
    exact ⟨⟨⟨lead, styled⟩, mark⟩, trail⟩

theorem undotted_of_typeIdentifier {name identifier : String}
    (named : typeIdentifier name = .ok identifier) : Undotted identifier :=
  notMem_of_generate isDivider_dot rfl (by decide) (by decide) (by decide) named

end ProtoPascal.Naming

namespace ProtoPascal

open Naming Text

/-- The segments of the full name of a unit. -/
def UnitIdentifier.path (identifier : UnitIdentifier) : List String :=
  identifier.segments ++ [identifier.name]

theorem UnitIdentifier.fullName_eq (identifier : UnitIdentifier) :
    identifier.fullName = join "." identifier.path := rfl

theorem UnitIdentifier.path_ne_nil (identifier : UnitIdentifier) : identifier.path ≠ [] :=
  List.append_ne_nil_of_right_ne_nil _ (List.cons_ne_nil _ _)

theorem ofFile_eq_ok {file : Schema.File} {identifier : UnitIdentifier} :
    UnitIdentifier.ofFile file = .ok identifier ↔
      List.Forall₂ (fun core segment => keywordScope.generate .namespaceSegment [] core = .ok segment)
        (namespaceCores file) identifier.segments ∧
      keywordScope.generate .unitName [] file.stem = .ok identifier.name := by
  constructor
  · intro named
    obtain ⟨segments, generated, named⟩ := bind_eq_ok.mp named
    obtain ⟨name, unit_generated, named⟩ := bind_eq_ok.mp named
    rw [pure_eq_ok] at named
    subst named
    exact ⟨mapM_eq_ok.mp generated, unit_generated⟩
  · rintro ⟨generated, unit_generated⟩
    exact bind_eq_ok.mpr ⟨_, mapM_eq_ok.mpr generated, bind_eq_ok.mpr ⟨_, unit_generated, rfl⟩⟩

/-- **The segments of the name of a unit have no dividers** other than the mark of a name that was
taken. -/
theorem notMem_of_ofFile {divider : Char} (isDivider : IsDivider divider) (unmarked : divider ≠ '_')
    {file : Schema.File} {identifier : UnitIdentifier}
    (named : UnitIdentifier.ofFile file = .ok identifier) :
    ∀ segment ∈ identifier.path, divider ∉ segment.toList := by
  have mark : divider ∉ "_".toList := fun here => unmarked (List.mem_singleton.mp here)
  have lead : divider ∉ "u".toList := by
    intro here
    have divides := isDivider.divides
    rw [List.mem_singleton.mp here] at divides
    revert divides
    decide
  obtain ⟨generated, unit_generated⟩ := ofFile_eq_ok.mp named
  intro segment inside
  rcases List.mem_append.mp inside with early | last
  · obtain ⟨core, -, made⟩ := exists_left_of_forall₂ generated early
    refine notMem_of_generate isDivider ?_ ?_ ?_ ?_ made
    · rfl
    · exact List.not_mem_nil
    · exact List.not_mem_nil
    · exact mark
  · rw [List.mem_singleton] at last
    subst last
    refine notMem_of_generate isDivider ?_ ?_ ?_ ?_ unit_generated
    · rfl
    · exact lead
    · exact List.not_mem_nil
    · exact mark

theorem undotted_of_ofFile {file : Schema.File} {identifier : UnitIdentifier}
    (named : UnitIdentifier.ofFile file = .ok identifier) :
    ∀ segment ∈ identifier.path, Undotted segment :=
  notMem_of_ofFile isDivider_dot (by decide) named

/-- The last segment of the name of a unit starts with its letter, in either case. -/
theorem unitName_head {file : Schema.File} {identifier : UnitIdentifier}
    (named : UnitIdentifier.ofFile file = .ok identifier) :
    (fold identifier.name).toList.head? = some 'u' := by
  obtain ⟨-, generated⟩ := ofFile_eq_ok.mp named
  obtain ⟨-, plain | marked⟩ := generate_eq_ok generated
  · rw [plain]
    simp only [Rule.plain, toList_fold, String.toList_append]
    rfl
  · rw [marked]
    simp only [Rule.marked, toList_fold, String.toList_append]
    rfl

end ProtoPascal
