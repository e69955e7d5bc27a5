import Mathlib.Data.List.TakeDrop
import Mathlib.Data.List.TakeWhile
import Mathlib.Tactic.MkIffOfInductiveProp
import ProtoPascal.Proofs.OutputPaths
import ProtoPascal.Request.Options

/-!
Parameters of a request, entry by entry. A parameter is divided at its commas before anything is trimmed,
so two parameters with a comma between them have the entries of the first and then those of the second.
Blanks around an entry, around its key and around its value do not count, and blank entries are passed
over. Of the others the first one that is no choice of a namespace decides about failure, and if there is
none, the last one decides about the namespace.

* `trimChars_surrounded`: blanks around a text do not count;
* `ofEntry_trim`: what one entry stands for;
* `ofEntries_map_trim`: what a list of entries stands for;
* `parse_comma`: two parameters with a comma between them;
* `parameters_compose`: this law, and what a single parameter stands for.
-/

namespace ProtoPascal.Text

/-! ### Blanks -/

/-- A text of blanks only. -/
def Blank (text : String) : Prop :=
  ∀ character ∈ text.toList, isBlank character = true

instance (text : String) : Decidable (Blank text) :=
  inferInstanceAs (Decidable (∀ character ∈ text.toList, isBlank character = true))

theorem ne_divider_of_blank {divider : Char} (visible : isBlank divider = false) {blanks : List Char}
    (blank : ∀ character ∈ blanks, isBlank character = true) :
    ∀ character ∈ blanks, (character != divider) = true := by
  intro character inside
  rw [bne_iff_ne]
  rintro rfl
  exact Bool.false_ne_true (visible.symm.trans (blank character inside))

section

variable {before after : List Char} (blankBefore : ∀ character ∈ before, isBlank character = true)
  (blankAfter : ∀ character ∈ after, isBlank character = true)

include blankBefore blankAfter

/-- **Blanks around a text do not count.** -/
theorem trimChars_surrounded (characters : List Char) :
    trimChars (before ++ (characters ++ after)) = trimChars characters := by
  have behind (start : List Char) :
      (start ++ after).reverse.dropWhile isBlank = start.reverse.dropWhile isBlank := by
    rw [List.reverse_append, List.dropWhile_append_of_pos]
    exact fun character inside => blankAfter character (List.mem_reverse.mp inside)
  rw [trimChars, trimChars, List.dropWhile_append_of_pos blankBefore, List.dropWhile_append]
  split
  · next empty =>
    rw [List.isEmpty_iff.mp empty, List.dropWhile_eq_nil_iff.mpr blankAfter]
  · rw [behind]

variable {divider : Char} (visible : isBlank divider = false)

include visible

/-- Blanks around a text do not count before the first divider either. -/
theorem trimChars_takeWhile (characters : List Char) :
    trimChars ((before ++ (characters ++ after)).takeWhile (· != divider)) =
      trimChars (characters.takeWhile (· != divider)) := by
  rw [List.takeWhile_append_of_pos (ne_divider_of_blank visible blankBefore), List.takeWhile_append]
  split
  · next whole =>
    rw [List.takeWhile_eq_self_iff.mpr (ne_divider_of_blank visible blankAfter),
      trimChars_surrounded blankBefore blankAfter,
      (List.takeWhile_prefix _).eq_of_length whole]
  · have shorter := trimChars_surrounded blankBefore (by simp : ∀ character ∈ [], isBlank character = true)
      (characters.takeWhile (· != divider))
    rwa [List.append_nil] at shorter

/-- Blanks around a text do not count behind the first divider either. -/
theorem trimChars_dropWhile (characters : List Char) :
    trimChars (((before ++ (characters ++ after)).dropWhile (· != divider)).drop 1) =
      trimChars ((characters.dropWhile (· != divider)).drop 1) := by
  rw [List.dropWhile_append_of_pos (ne_divider_of_blank visible blankBefore), List.dropWhile_append]
  split
  · next empty =>
    rw [List.isEmpty_iff.mp empty, List.dropWhile_eq_nil_iff.mpr (ne_divider_of_blank visible blankAfter)]
  · next found =>
    have filled : 1 ≤ (characters.dropWhile (· != divider)).length :=
      List.length_pos_of_ne_nil fun empty => found (List.isEmpty_iff.mpr empty)
    rw [List.drop_append_of_le_length filled]
    exact trimChars_surrounded (by simp : ∀ character ∈ [], isBlank character = true) blankAfter _

end

/-- What is cut off are blanks. -/
theorem exists_surrounding (characters : List Char) :
    ∃ before after, (∀ character ∈ before, isBlank character = true) ∧
      (∀ character ∈ after, isBlank character = true) ∧
      characters = before ++ (trimChars characters ++ after) := by
  refine ⟨characters.takeWhile isBlank,
    ((characters.dropWhile isBlank).reverse.takeWhile isBlank).reverse, ?_, ?_, ?_⟩
  · exact fun character => List.mem_takeWhile_imp
  · exact fun character inside => List.mem_takeWhile_imp (List.mem_reverse.mp inside)
  · rw [trimChars, ← List.reverse_append, List.takeWhile_append_dropWhile, List.reverse_reverse,
      List.takeWhile_append_dropWhile]

/-- Nothing is left of a text exactly if it is blank. -/
theorem trim_eq_empty_iff {text : String} : trim text = "" ↔ Blank text := by
  rw [trim, ← String.toList_inj, String.toList_ofList, Blank]
  constructor
  · intro empty
    obtain ⟨before, after, blankBefore, blankAfter, same⟩ := exists_surrounding text.toList
    rw [empty] at same
    rw [same]
    exact List.forall_mem_append.mpr ⟨blankBefore, blankAfter⟩
  · intro blank
    rw [trimChars, List.dropWhile_eq_nil_iff.mpr blank]
    rfl

/-! ### The first divider -/

/-- The text before the first divider, or the whole text if there is none, without blanks around it. -/
def keyBefore (divider : Char) (text : String) : String :=
  String.ofList (trimChars (text.toList.takeWhile (· != divider)))

/-- The text behind the first divider, without blanks around it. -/
def valueAfter (divider : Char) (text : String) : String :=
  String.ofList (trimChars ((text.toList.dropWhile (· != divider)).drop 1))

section

variable {divider : Char} (visible : isBlank divider = false) (text : String)

include visible

theorem mem_trim : divider ∈ (trim text).toList ↔ divider ∈ text.toList := by
  obtain ⟨before, after, blankBefore, blankAfter, same⟩ := exists_surrounding text.toList
  have outside {blanks : List Char} (blank : ∀ character ∈ blanks, isBlank character = true) :
      divider ∉ blanks := fun inside =>
    bne_iff_ne.mp (ne_divider_of_blank visible blank divider inside) rfl
  rw [trim, String.toList_ofList]
  conv_rhs => rw [same]
  rw [List.mem_append, List.mem_append, or_iff_right (outside blankBefore),
    or_iff_left (outside blankAfter)]

theorem keyBefore_trim : keyBefore divider (trim text) = keyBefore divider text := by
  obtain ⟨before, after, blankBefore, blankAfter, same⟩ := exists_surrounding text.toList
  rw [keyBefore, keyBefore, trim, String.toList_ofList]
  conv_rhs => rw [same, trimChars_takeWhile blankBefore blankAfter visible]

theorem valueAfter_trim : valueAfter divider (trim text) = valueAfter divider text := by
  obtain ⟨before, after, blankBefore, blankAfter, same⟩ := exists_surrounding text.toList
  rw [valueAfter, valueAfter, trim, String.toList_ofList]
  conv_rhs => rw [same, trimChars_dropWhile blankBefore blankAfter visible]

end

theorem keyBefore_of_notMem {divider : Char} {text : String} (undivided : divider ∉ text.toList) :
    keyBefore divider text = trim text := by
  rw [keyBefore, List.takeWhile_eq_self_iff.mpr, trim]
  intro character inside
  rw [bne_iff_ne]
  rintro rfl
  exact undivided inside

/-- A text is split at the first divider, if there is one. -/
theorem splitFirst?_eq (divider : Char) (text : String) :
    splitFirst? divider text =
      if divider ∈ text.toList then
        some (String.ofList (text.toList.takeWhile (· != divider)),
          String.ofList ((text.toList.dropWhile (· != divider)).drop 1))
      else none := by
  have found : text.toList.dropWhile (· != divider) ≠ [] ↔ divider ∈ text.toList := by
    rw [ne_eq, List.dropWhile_eq_nil_iff]
    simp
  rw [splitFirst?, List.span_eq_takeWhile_dropWhile]
  split
  · next empty =>
    rw [if_neg (found.not.mp (not_not.mpr (Prod.mk.inj empty).2))]
  · next before _ after split =>
    obtain ⟨rfl, rest⟩ := Prod.mk.inj split
    rw [if_pos (found.mp (by rw [rest]; exact List.cons_ne_nil _ _)), rest, List.drop_one, List.tail_cons]

end ProtoPascal.Text

namespace ProtoPascal.Request

open Files (piecesBy_append_divider)
open Text

/-! ### Entries -/

/-- An entry chooses a namespace: it has a sign of equality, and the key before the first one is that of
the namespace. -/
@[mk_iff]
structure Chooses (entry : String) : Prop where
  equality : '=' ∈ entry.toList
  key : keyBefore '=' entry = "runtime_namespace"

instance (entry : String) : Decidable (Chooses entry) :=
  decidable_of_iff' _ (chooses_iff entry)

/-- The namespace that an entry chooses. A blank one is no choice. -/
def chosenNamespace (entry : String) : Option String :=
  if valueAfter '=' entry = "" then none else some (valueAfter '=' entry)

/-- The entries of a parameter that are not blank, as they are given. -/
def givenEntries (parameter : String) : List String :=
  (pieces ',' parameter).filter fun entry => ¬ Blank entry

theorem entries_eq (parameter : String) : entries parameter = (givenEntries parameter).map trim := by
  rw [entries, givenEntries, List.filter_map]
  refine congrArg (List.map trim) (List.filter_congr fun entry _ => ?_)
  rw [Function.comp_apply, Bool.eq_iff_iff, Bool.not_eq_true', ← Bool.not_eq_true, String.isEmpty_iff,
    trim_eq_empty_iff, decide_eq_true_eq]

/-- The entries of two parameters with a comma between them. -/
theorem givenEntries_comma (left right : String) :
    givenEntries (left ++ "," ++ right) = givenEntries left ++ givenEntries right := by
  have divided : (left ++ "," ++ right).toList = left.toList ++ ',' :: right.toList := by
    simp
  rw [givenEntries, pieces, divided,
    piecesBy_append_divider (· == ',') (beq_self_eq_true ','), List.map_append, List.filter_append]
  rfl

theorem withRuntimeNamespace_some (value : String) :
    Options.withRuntimeNamespace (some value) =
      { runtimeNamespace := if trim value = "" then none else some (trim value) } := by
  rw [Options.withRuntimeNamespace, Option.map_some, Option.filter_some]
  by_cases empty : trim value = ""
  · rw [if_pos empty, empty]
    rfl
  · rw [if_neg empty, if_pos (by simpa using empty)]

/-- **What one entry stands for**: the namespace that it chooses, or an error with its key. -/
theorem ofEntry_trim (entry : String) :
    Options.ofEntry (trim entry) =
      if Chooses entry then .ok { runtimeNamespace := chosenNamespace entry }
      else .error (.unimplementedOption (keyBefore '=' entry)) := by
  have visible : isBlank '=' = false := by decide
  have key : trim (String.ofList ((trim entry).toList.takeWhile (· != '='))) =
      keyBefore '=' entry := by
    rw [trim, String.toList_ofList]
    exact keyBefore_trim visible entry
  have value : trim (String.ofList (((trim entry).toList.dropWhile (· != '=')).drop 1)) =
      valueAfter '=' entry := by
    rw [trim, String.toList_ofList]
    exact valueAfter_trim visible entry
  rw [Options.ofEntry, splitFirst?_eq]
  by_cases equality : '=' ∈ entry.toList
  · rw [if_pos ((mem_trim visible entry).mpr equality)]
    dsimp only
    rw [key, withRuntimeNamespace_some, value, ← chosenNamespace]
    exact if_congr ⟨fun same => ⟨equality, same⟩, Chooses.key⟩ rfl rfl
  · rw [if_neg ((mem_trim visible entry).not.mpr equality),
      if_neg fun chooses : Chooses entry => equality chooses.equality, keyBefore_of_notMem equality]

/-! ### Lists of entries -/

/-- **What a list of entries stands for**: the first that chooses no namespace is an error, and if there
is none, the last one counts. -/
theorem ofEntries_map_trim (options : Options) (given : List String) :
    Options.ofEntries options (given.map trim) =
      match given.find? fun entry => ¬ Chooses entry with
      | some entry => .error (.unimplementedOption (keyBefore '=' entry))
      | none => .ok (given.getLast?.elim options fun entry =>
          { runtimeNamespace := chosenNamespace entry }) := by
  induction given generalizing options with
  | nil => rfl
  | cons entry rest ih =>
    rw [List.map_cons, Options.ofEntries, ofEntry_trim, List.find?_cons]
    by_cases chooses : Chooses entry
    · have last (found : Option String) :
          (found.elim { runtimeNamespace := chosenNamespace entry } fun later =>
            ({ runtimeNamespace := chosenNamespace later } : Options)) =
            { runtimeNamespace := chosenNamespace (found.getD entry) } := by
        cases found <;> rfl
      rw [if_pos chooses, decide_eq_false (not_not.mpr chooses), List.getLast?_cons, Option.elim_some,
        ← last]
      exact ih _
    · rw [if_neg chooses, decide_eq_true chooses]
      rfl

theorem ofEntries_append (options : Options) (left right : List String) :
    Options.ofEntries options (left ++ right) =
      Options.ofEntries options left >>= fun middle => Options.ofEntries middle right := by
  induction left generalizing options with
  | nil => rfl
  | cons entry rest ih =>
    rw [List.cons_append, Options.ofEntries, Options.ofEntries, bind_assoc]
    exact bind_congr fun next => ih next

/-- Only a list without entries leaves earlier options as they are. -/
theorem ofEntries_of_ne_nil {entries : List String} (filled : entries ≠ []) (options other : Options) :
    Options.ofEntries options entries = Options.ofEntries other entries := by
  cases entries with
  | nil => exact absurd rfl filled
  | cons entry rest => rfl

/-! ### Parameters -/

theorem givenEntries_eq_nil_iff {parameter : String} :
    givenEntries parameter = [] ↔ ∀ entry ∈ pieces ',' parameter, Blank entry := by
  simp [givenEntries]

/-- **Two parameters with a comma between them.** -/
theorem parse_comma (left right : String) :
    Options.parse (left ++ "," ++ right) = (do
      let first ← Options.parse left
      let second ← Options.parse right
      return if ∀ entry ∈ pieces ',' right, Blank entry then first else second) := by
  simp only [Options.parse, entries_eq, givenEntries_comma, List.map_append, ofEntries_append,
    ← givenEntries_eq_nil_iff]
  refine bind_congr fun first => ?_
  by_cases empty : givenEntries right = []
  · rw [empty]
    rfl
  · rw [ofEntries_of_ne_nil (by simpa using empty) first {}]
    simp only [empty, if_false]
    exact (bind_pure _).symm

theorem parse_eq (parameter : String) :
    Options.parse parameter =
      match (givenEntries parameter).find? fun entry => ¬ Chooses entry with
      | some entry => .error (.unimplementedOption (keyBefore '=' entry))
      | none => .ok { runtimeNamespace := (givenEntries parameter).getLast?.bind chosenNamespace } := by
  have last (found : Option String) :
      (found.elim {} fun entry => ({ runtimeNamespace := chosenNamespace entry } : Options)) =
        { runtimeNamespace := found.bind chosenNamespace } := by
    cases found with
    | none => rfl
    | some entry => rw [Option.elim_some, Option.bind_some]
  rw [Options.parse, entries_eq, ofEntries_map_trim, last]

/-- **Parameters compose.** Of two parameters with a comma between them the first error counts, and if
there is none, the options of the second one, unless all its entries are blank. A parameter is accepted
exactly if all its entries that are not blank choose a namespace. Then the last of them counts; otherwise
the error has the key of the first that does not. -/
theorem parameters_compose :
    (∀ left right, Options.parse (left ++ "," ++ right) = (do
      let first ← Options.parse left
      let second ← Options.parse right
      return if ∀ entry ∈ pieces ',' right, Blank entry then first else second)) ∧
    ∀ parameter,
      ((∃ options, Options.parse parameter = .ok options) ↔
        ∀ entry ∈ pieces ',' parameter, ¬ Blank entry → Chooses entry) ∧
      (∀ options, Options.parse parameter = .ok options →
        options.runtimeNamespace = (givenEntries parameter).getLast?.bind chosenNamespace) ∧
      ∀ error, Options.parse parameter = .error error →
        ∃ entry, (givenEntries parameter).find? (fun entry => ¬ Chooses entry) = some entry ∧
          error = .unimplementedOption (keyBefore '=' entry) := by
  refine ⟨parse_comma, fun parameter => ?_⟩
  have all_choose : (givenEntries parameter).find? (fun entry => ¬ Chooses entry) = none ↔
      ∀ entry ∈ pieces ',' parameter, ¬ Blank entry → Chooses entry := by
    simp [givenEntries]
  rw [← all_choose, parse_eq]
  cases (givenEntries parameter).find? fun entry => ¬ Chooses entry with
  | none =>
    refine ⟨iff_of_true ⟨_, rfl⟩ rfl, ?_, nofun⟩
    intro options parsed
    cases parsed
    rfl
  | some entry =>
    refine ⟨iff_of_false (by simp) (by simp), nofun, ?_⟩
    intro error failed
    cases failed
    exact ⟨entry, rfl, rfl⟩

/-- A later choice counts, also a blank one, and a value may have signs of equality. -/
example :
    Options.parse "runtime_namespace=A, runtime_namespace = B=C ," = .ok ⟨some "B=C"⟩ ∧
    Options.parse "runtime_namespace=A,runtime_namespace= " = .ok ⟨none⟩ ∧
    Options.parse " ,runtime_namespace=A, x y ,=" = .error (.unimplementedOption "x y") := by
  decide +kernel

end ProtoPascal.Request
