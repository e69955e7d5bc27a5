import ProtoPascal.Pascal.Layout
import ProtoPascal.Proofs.DottedNames

/-!
The lines of a layout and its text. Where no line has an end of line inside it, the text can be divided
into the lines again. A line of the text shows its depth only in part: a text that starts with blanks
looks deeper than it is. So what a line shows is that it stands at a depth or deeper, and a line whose
text starts with something else than a blank shows that it is not deeper.

* `pieces_layoutText`: the text of a layout is made of its lines;
* `Line.content_inj`: lines at one depth are told apart by their texts;
* `not_indented_of_head`: a line that does not stand deeper;
* `append_cons_cancel`: where lines that stand deeper end.
-/

namespace ProtoPascal.Pascal

open Text

/-! ### Lines of text -/

/-- A text without an end of line. -/
def OneLine (text : String) : Prop :=
  '\n' ∉ text.toList

instance (text : String) : Decidable (OneLine text) :=
  inferInstanceAs (Decidable ('\n' ∉ text.toList))

@[simp]
theorem oneLine_append {left right : String} :
    OneLine (left ++ right) ↔ OneLine left ∧ OneLine right := by
  rw [OneLine, String.toList_append, List.mem_append, not_or]
  rfl

theorem OneLine.append {left right : String} (left_single : OneLine left)
    (right_single : OneLine right) : OneLine (left ++ right) :=
  oneLine_append.mpr ⟨left_single, right_single⟩

/-- The blanks before the text of a line at a depth. -/
def indentation (depth : Nat) : List Char :=
  List.replicate (2 * depth) ' '

theorem indentation_add (depth more : Nat) :
    indentation (depth + more) = indentation depth ++ indentation more := by
  rw [indentation, indentation, indentation, Nat.mul_add, List.replicate_add]

/-- What stands on a line, without its end. -/
def Line.content (line : Line) : String :=
  if line.text.isEmpty then "" else String.ofList (indentation line.depth) ++ line.text

theorem Line.render_eq (line : Line) : line.render = line.content ++ "\n" := by
  unfold Line.render Line.content
  split
  · rfl
  · rfl

/-- The text of lines. -/
def layoutText (lines : List Line) : String :=
  String.join (lines.map Line.render)

theorem toList_layoutText (lines : List Line) :
    (layoutText lines).toList = lines.flatMap fun line => line.content.toList ++ ['\n'] := by
  rw [layoutText, String.toList_join, List.flatMap_map]
  refine List.flatMap_congr fun line _ => ?_
  rw [Line.render_eq, String.toList_append]
  rfl

theorem layoutText_append (left right : List Line) :
    layoutText (left ++ right) = layoutText left ++ layoutText right := by
  rw [← String.toList_inj, String.toList_append, toList_layoutText, toList_layoutText,
    toList_layoutText, List.flatMap_append]

theorem Line.oneLine_content {line : Line} (single : OneLine line.text) : OneLine line.content := by
  unfold Line.content
  split
  · decide
  · rw [oneLine_append]
    refine ⟨?_, single⟩
    rw [OneLine, String.toList_ofList, indentation, List.mem_replicate]
    exact fun blank => absurd blank.2 (by decide)

/-- **The text of a layout is made of its lines**, and nothing follows the end of the last one. -/
theorem pieces_layoutText {lines : List Line} (single : ∀ line ∈ lines, OneLine line.text) :
    pieces '\n' (layoutText lines) = lines.map Line.content ++ [""] := by
  rw [pieces, toList_layoutText]
  induction lines with
  | nil => rfl
  | cons line rest ih =>
    rw [List.forall_mem_cons] at single
    have whole : ∀ character ∈ line.content.toList, (character == '\n') = false := by
      intro character inside
      refine beq_eq_false_iff_ne.mpr ?_
      rintro rfl
      exact Line.oneLine_content single.1 inside
    obtain ⟨piece, others, found, joined⟩ := piecesBy_append whole
      ('\n' :: rest.flatMap fun line => line.content.toList ++ ['\n'])
    rw [piecesBy, if_pos (beq_self_eq_true '\n'), List.cons.injEq] at found
    obtain ⟨rfl, rfl⟩ := found
    rw [List.flatMap_cons, List.append_assoc, List.singleton_append, joined, List.map_cons,
      ih single.2, List.append_nil, String.ofList_toList]
    rfl

/-- Layouts with the same text have the same lines of text. -/
theorem contents_eq_of_layoutText_eq {left right : List Line}
    (left_single : ∀ line ∈ left, OneLine line.text)
    (right_single : ∀ line ∈ right, OneLine line.text) (same : layoutText left = layoutText right) :
    left.map Line.content = right.map Line.content := by
  have pieces := pieces_layoutText left_single
  rw [same, pieces_layoutText right_single] at pieces
  exact (List.append_cancel_right pieces).symm

/-! ### Depth -/

theorem Line.toList_content {line : Line} (filled : line.text ≠ "") :
    line.content.toList = indentation line.depth ++ line.text.toList := by
  rw [Line.content, if_neg (by rwa [String.isEmpty_iff]), String.toList_append, String.toList_ofList]

/-- **Lines at one depth are told apart by their texts.** -/
theorem Line.content_inj {depth : Nat} {left right : String} (left_filled : left ≠ "")
    (right_filled : right ≠ "") (same : (Line.mk depth left).content = (Line.mk depth right).content) :
    left = right := by
  have characters := congrArg String.toList same
  rw [Line.toList_content left_filled, Line.toList_content right_filled] at characters
  exact String.toList_inj.mp (List.append_cancel_left characters)

/-- A line of text has at least the blanks of a depth before it. -/
def Indented (depth : Nat) (content : String) : Prop :=
  indentation depth <+: content.toList

/-- A line that is not empty and stands at a depth or deeper. -/
def Line.Within (depth : Nat) (line : Line) : Prop :=
  depth ≤ line.depth ∧ line.text ≠ ""

theorem Line.Within.mono {outer inner : Nat} (deeper : outer ≤ inner) {line : Line}
    (within : line.Within inner) : line.Within outer :=
  ⟨Nat.le_trans deeper within.1, within.2⟩

theorem Line.Within.indented {depth : Nat} {line : Line} (within : line.Within depth) :
    Indented depth line.content := by
  obtain ⟨more, deeper⟩ := Nat.exists_eq_add_of_le within.1
  refine ⟨indentation more ++ line.text.toList, ?_⟩
  rw [Line.toList_content within.2, deeper, indentation_add, List.append_assoc]

/-- **A line whose text starts with something else than a blank does not stand deeper.** -/
theorem not_indented_of_head {depth : Nat} {text : String} {first : Char}
    (start : text.toList.head? = some first) (visible : first ≠ ' ') :
    ¬ Indented (depth + 1) (Line.mk depth text).content := by
  rintro ⟨rest, deeper⟩
  have filled : text ≠ "" := by
    rintro rfl
    cases start
  rw [Line.toList_content filled, indentation_add, List.append_assoc] at deeper
  have blank : ' ' :: ' ' :: rest = text.toList := List.append_cancel_left deeper
  rw [← blank, List.head?_cons, Option.some.injEq] at start
  exact visible start.symm

/-- **Where lines that stand deeper end.** -/
theorem append_cons_cancel {α : Type} {deeper : α → Prop} {left right rest rest' : List α}
    {close close' : α} (left_deeper : ∀ item ∈ left, deeper item)
    (right_deeper : ∀ item ∈ right, deeper item) (ends : ¬ deeper close) (ends' : ¬ deeper close')
    (same : left ++ close :: rest = right ++ close' :: rest') :
    left = right ∧ close = close' ∧ rest = rest' := by
  induction left generalizing right with
  | nil =>
    cases right with
    | nil => exact ⟨rfl, List.cons_eq_cons.mp same⟩
    | cons first others =>
      obtain ⟨rfl, -⟩ := List.cons_eq_cons.mp same
      exact absurd (right_deeper _ (List.mem_cons_self ..)) ends
  | cons item items ih =>
    rw [List.forall_mem_cons] at left_deeper
    cases right with
    | nil =>
      obtain ⟨rfl, -⟩ := List.cons_eq_cons.mp same
      exact absurd left_deeper.1 ends'
    | cons first others =>
      rw [List.forall_mem_cons] at right_deeper
      obtain ⟨rfl, later⟩ := List.cons_eq_cons.mp same
      obtain ⟨rfl, closed⟩ := ih left_deeper.2 right_deeper.2 later
      exact ⟨rfl, closed⟩

end ProtoPascal.Pascal
