/-!
Equality of texts up to the case of the letters `A` to `Z`. Pascal identifiers are compared in this
way; letters outside ASCII have to agree exactly. Main statement: `sameLetters_iff`, two texts agree
when they are equal after every capital is replaced by its small letter.
-/

namespace ProtoPascal.Text

/-- The characters of a text with the capitals `A` to `Z` replaced by small letters. -/
def foldChars (characters : List Char) : List Char :=
  characters.map Char.toLower

/-- A text with the capitals `A` to `Z` replaced by small letters. -/
def fold (text : String) : String :=
  String.ofList (foldChars text.toList)

/-- Whether two texts agree up to the case of the letters `A` to `Z`. Texts of different size never
agree, and the size is known without a look at the characters. -/
def sameLetters (left right : String) : Bool :=
  left.utf8ByteSize == right.utf8ByteSize && foldChars left.toList == foldChars right.toList

theorem utf8ByteSize_ofList_cons (character : Char) (rest : List Char) :
    (String.ofList (character :: rest)).utf8ByteSize =
      character.utf8Size + (String.ofList rest).utf8ByteSize := by
  have split : String.ofList (character :: rest) =
      String.singleton character ++ String.ofList rest := by
    apply String.ext
    simp
  rw [split, String.utf8ByteSize_append, String.utf8ByteSize_singleton]

/-- A small letter is as large as its capital. -/
theorem utf8Size_toLower (character : Char) : character.toLower.utf8Size = character.utf8Size := by
  unfold Char.toLower
  split
  · next capital =>
    have small : character.val ≤ 127 := UInt32.le_trans capital.2 (by decide)
    have lower : character.val + ('a'.val - 'A'.val) ≤ 127 := by
      have bound := UInt32.le_iff_toNat_le.mp capital.2
      rw [UInt32.le_iff_toNat_le, UInt32.toNat_add]
      simp at bound ⊢
      omega
    rw [Char.utf8Size_eq_one_iff.mpr small, Char.utf8Size_eq_one_iff.mpr lower]
  · rfl

/-- Folding characters keeps the size of their text. -/
theorem utf8ByteSize_ofList_foldChars (characters : List Char) :
    (String.ofList (foldChars characters)).utf8ByteSize =
      (String.ofList characters).utf8ByteSize := by
  induction characters with
  | nil => rfl
  | cons character rest ih =>
    rw [foldChars, List.map_cons, utf8ByteSize_ofList_cons, utf8ByteSize_ofList_cons,
      utf8Size_toLower, ← foldChars, ih]

/-- Two texts agree exactly if their folded characters are equal. -/
theorem sameLetters_iff (left right : String) :
    sameLetters left right = true ↔ foldChars left.toList = foldChars right.toList := by
  constructor
  · intro agree
    simp only [sameLetters, Bool.and_eq_true, beq_iff_eq] at agree
    exact agree.2
  · intro agree
    have size : left.utf8ByteSize = right.utf8ByteSize := by
      rw [← String.ofList_toList (s := left), ← String.ofList_toList (s := right),
        ← utf8ByteSize_ofList_foldChars, agree, utf8ByteSize_ofList_foldChars]
    simp [sameLetters, size, agree]

end ProtoPascal.Text
