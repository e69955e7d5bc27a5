import ProtoPascal.Naming.Rule

/-!
The shape that a naming rule gives to identifiers. Whether an identifier has the shape of a rule is
found out by cutting off as many bytes as the fixed texts of the rule take up. A text that agrees with
a fixed text takes up as many bytes, so the shape can be told without counting them.

* `cutBytes?_eq_some`: a cut divides a text in two;
* `couldProduce_iff`: an identifier has the shape of a rule exactly if it is a text that agrees with the
  lead, a text in the style of the rule, and a text that agrees with the trail.
-/

namespace ProtoPascal.Naming

open Text

/-! ### Bytes -/

theorem byteLength_append (left right : List Char) :
    byteLength (left ++ right) = byteLength left + byteLength right := by
  induction left with
  | nil => rw [List.nil_append, byteLength, Nat.zero_add]
  | cons character rest ih => rw [List.cons_append, byteLength, byteLength, ih, Nat.add_assoc]

/-- Only the empty text takes up no bytes. -/
theorem byteLength_eq_zero {characters : List Char} : byteLength characters = 0 ↔ characters = [] := by
  cases characters with
  | nil => exact iff_of_true rfl rfl
  | cons character rest =>
    have positive := character.utf8Size_pos
    refine iff_of_false ?_ (List.cons_ne_nil _ _)
    rw [byteLength]
    omega

theorem byteLength_foldChars (characters : List Char) :
    byteLength (foldChars characters) = byteLength characters := by
  induction characters with
  | nil => rfl
  | cons character rest ih =>
    rw [foldChars, List.map_cons, byteLength, byteLength, utf8Size_toLower, ← foldChars, ih]

/-- **A cut divides a text in two**, and the first part takes up the given number of bytes. -/
theorem cutBytes?_eq_some {count : Nat} {characters left right : List Char} :
    cutBytes? count characters = some (left, right) ↔
      characters = left ++ right ∧ byteLength left = count := by
  induction characters generalizing count left with
  | nil =>
    rw [List.nil_eq_append_iff]
    cases count with
    | zero =>
      rw [cutBytes?, byteLength_eq_zero]
      grind
    | succ count =>
      rw [cutBytes?]
      refine iff_of_false (by simp) ?_
      rintro ⟨⟨rfl, -⟩, bytes⟩
      cases bytes
  | cons character rest ih =>
    cases count with
    | zero =>
      rw [cutBytes?, byteLength_eq_zero]
      grind
    | succ count =>
      have positive := character.utf8Size_pos
      -- A first part of so many bytes begins with the first character of the text.
      have begins : (character :: rest = left ++ right ∧ byteLength left = count + 1) ↔
          ∃ others, left = character :: others ∧ rest = others ++ right ∧
            character.utf8Size + byteLength others = count + 1 := by
        cases left with
        | nil => simp [byteLength]
        | cons first others => grind [byteLength]
      rw [begins, cutBytes?]
      split
      · next fits =>
        rw [Option.map_eq_some_iff]
        constructor
        · rintro ⟨⟨others, after⟩, cut, same⟩
          obtain ⟨rfl, rfl⟩ := Prod.mk.inj same
          obtain ⟨joined, bytes⟩ := ih.mp cut
          exact ⟨others, rfl, joined, by omega⟩
        · rintro ⟨others, rfl, joined, bytes⟩
          exact ⟨(others, right), ih.mpr ⟨joined, by omega⟩, rfl⟩
      · next large =>
        refine iff_of_false (by simp) ?_
        rintro ⟨others, -, -, bytes⟩
        omega

/-! ### Fixed texts -/

/-- Texts that agree take up as many bytes. -/
theorem byteLength_eq_of_agree {rule : Rule} {left right : List Char}
    (agree : rule.agree left right = true) : byteLength left = byteLength right := by
  rw [Rule.agree] at agree
  split at agree
  · rw [eq_of_beq agree]
  · rw [← byteLength_foldChars left, eq_of_beq agree, byteLength_foldChars]

/-- What follows the lead stands behind a text that agrees with it. -/
theorem afterLead?_eq_some {rule : Rule} {characters rest : List Char} :
    rule.afterLead? characters = some rest ↔
      ∃ head, characters = head ++ rest ∧ rule.agree head rule.lead.toList = true := by
  unfold Rule.afterLead?
  constructor
  · intro found
    split at found
    · next head after cut =>
      split at found
      · next agree =>
        cases found
        exact ⟨head, (cutBytes?_eq_some.mp cut).1, agree⟩
      · cases found
    · cases found
  · rintro ⟨head, joined, agree⟩
    rw [cutBytes?_eq_some.mpr ⟨joined, byteLength_eq_of_agree agree⟩]
    exact if_pos agree

/-- What precedes the trail stands before a text that agrees with it. -/
theorem beforeTrail?_eq_some {rule : Rule} {characters inner : List Char} :
    rule.beforeTrail? characters = some inner ↔
      ∃ tail, characters = inner ++ tail ∧ rule.agree tail rule.trail.toList = true := by
  unfold Rule.beforeTrail?
  constructor
  · intro found
    dsimp only at found
    split at found
    · split at found
      · next before tail cut =>
        split at found
        · next agree =>
          cases found
          exact ⟨tail, (cutBytes?_eq_some.mp cut).1, agree⟩
        · cases found
      · cases found
    · cases found
  · rintro ⟨tail, rfl, agree⟩
    have bytes := byteLength_eq_of_agree agree
    have cut : cutBytes? (byteLength (inner ++ tail) - byteLength rule.trail.toList)
        (inner ++ tail) = some (inner, tail) := by
      rw [cutBytes?_eq_some, byteLength_append]
      exact ⟨rfl, by omega⟩
    dsimp only
    rw [if_pos (by rw [byteLength_append]; omega), cut]
    exact if_pos agree

/-- **An identifier has the shape of a rule** exactly if it is a text that agrees with the lead, a text
in the style of the rule, and a text that agrees with the trail. -/
theorem couldProduce_iff {rule : Rule} {identifier : String} :
    rule.couldProduce identifier = true ↔
      ∃ head inner tail, identifier.toList = head ++ (inner ++ tail) ∧
        rule.agree head rule.lead.toList = true ∧ rule.agree tail rule.trail.toList = true ∧
        inner ≠ [] ∧ rule.style.applyChars inner = inner := by
  have parts (inner : List Char) :
      (rule.afterLead? identifier.toList).bind rule.beforeTrail? = some inner ↔
        ∃ head tail, identifier.toList = head ++ (inner ++ tail) ∧
          rule.agree head rule.lead.toList = true ∧ rule.agree tail rule.trail.toList = true := by
    rw [Option.bind_eq_some_iff]
    constructor
    · rintro ⟨rest, after, before⟩
      obtain ⟨head, joined, leads⟩ := afterLead?_eq_some.mp after
      obtain ⟨tail, rfl, trails⟩ := beforeTrail?_eq_some.mp before
      exact ⟨head, tail, joined, leads, trails⟩
    · rintro ⟨head, tail, joined, leads, trails⟩
      exact ⟨inner ++ tail, afterLead?_eq_some.mpr ⟨head, joined, leads⟩,
        beforeTrail?_eq_some.mpr ⟨tail, rfl, trails⟩⟩
  unfold Rule.couldProduce
  constructor
  · intro shaped
    split at shaped
    · next inner found =>
      obtain ⟨head, tail, joined, leads, trails⟩ := (parts inner).mp found
      rw [Bool.and_eq_true, Bool.not_eq_true', beq_iff_eq] at shaped
      exact ⟨head, inner, tail, joined, leads, trails, List.isEmpty_eq_false_iff.mp shaped.1, shaped.2⟩
    · cases shaped
  · rintro ⟨head, inner, tail, joined, leads, trails, filled, styled⟩
    rw [(parts inner).mpr ⟨head, tail, joined, leads, trails⟩]
    rw [Bool.and_eq_true, Bool.not_eq_true', beq_iff_eq]
    exact ⟨List.isEmpty_eq_false_iff.mpr filled, styled⟩

end ProtoPascal.Naming
