import ProtoPascal.Proofs.AcceptedSchema
import ProtoPascal.Proofs.ClassPlan

/-!
Well-formed plans of classes: fields and oneofs store what they hold under different names, and the
values of the case type of a oneof stand for its members, in order.

* `ClassPlan.Covers.wellFormed`: the plan of the class of an accepted message is well formed;
* `ClassPlan.Covers.members_values`: the value at the position of a member stands for it.
-/

namespace ProtoPascal.Message

open Naming
open Schema (Field MessageType)

/-- What code that runs relies on in the plan of its class. -/
structure ClassPlan.WellFormed (plan : ClassPlan) : Prop where
  /-- No two fields or oneofs have one backing field. -/
  backings : (plan.fields.map (fun field => field.names.backing) ++
    plan.oneofs.map (fun oneof => oneof.names.backing)).Nodup
  numbers : (plan.fields.map fun field => field.field.number).Nodup
  presence : ∀ field ∈ plan.fields, field.names.presence.isSome = !field.field.repeated
  supported : ∀ field ∈ plan.fields, Supported field.field.type field.support
  repeated : ∀ field ∈ plan.fields, field.field.repeated = true → field.membership = none
  /-- A field with a membership is a member of a oneof of the class. -/
  membership : ∀ field ∈ plan.fields, ∀ membership, field.membership = some membership →
    ∃ oneof ∈ plan.oneofs, field ∈ oneof.members
  /-- The values of a case type stand for the members in order. -/
  member : ∀ oneof ∈ plan.oneofs, ∀ (position : Nat) field,
    oneof.members[position]? = some field → field ∈ plan.fields ∧
      ∃ value, oneof.names.caseValues[position]? = some value ∧
        field.membership = some { oneof := oneof.names, caseValue := value.name } ∧
        oneof.names.caseValue? field.field.number = some value.name
  values : ∀ oneof ∈ plan.oneofs, Apart oneof.names.valueNames
  /-- Every field and every oneof has its slot. -/
  slots : plan.slots.Perm ((List.range plan.fields.length).map Slot.field ++
    (List.range plan.oneofs.length).map Slot.oneof)

section

variable {plan : ClassPlan} {className : String} {scope : Scope} {message : MessageType}

/-- The values of a case type carry the numbers of the members, in order. -/
theorem caseValues_numbers (covers : plan.Covers className scope message) {position : Nat}
    {oneof : OneofPlan} (found : plan.oneofs[position]? = some oneof) :
    Apart oneof.names.valueNames ∧
      oneof.names.caseValues.map CaseValue.number =
        oneof.members.map fun member => member.field.number := by
  have atPosition : (plan.oneofs.map OneofPlan.names)[position]? = some oneof.names := by
    rw [List.getElem?_map, found, Option.map_some]
  obtain ⟨index, index_found, apart, numbered⟩ :=
    exists_left_getElem? covers.named.values atPosition
  obtain ⟨below, same⟩ := List.getElem?_eq_some_iff.mp index_found
  rw [List.getElem_range] at same
  subst same
  refine ⟨apart, ?_⟩
  rw [numbered, ← covers.members_eq found, List.map_map]
  rfl

/-- A field that belongs to the oneof at a position has the membership of this oneof. -/
theorem membership_of_oneofIndex (covers : plan.Covers className scope message) {position : Nat}
    {oneof : OneofPlan} (found : plan.oneofs[position]? = some oneof) {field : FieldPlan}
    (inside : field ∈ plan.fields) (belongs : field.field.oneofIndex = some position) :
    ∃ caseValue, field.membership = some { oneof := oneof.names, caseValue } ∧
      oneof.names.caseValue? field.field.number = some caseValue := by
  have membership := (covers.planned field inside).membership
  cases stored : field.membership with
  | none =>
    rw [stored] at membership
    exact absurd (membership.symm.trans belongs) (by simp)
  | some member =>
    rw [stored] at membership
    obtain ⟨position', belongs', declared, selects⟩ := membership
    rw [belongs, Option.some.injEq] at belongs'
    subst belongs'
    rw [List.getElem?_map, found, Option.map_some, Option.some.injEq] at declared
    obtain ⟨_, caseValue⟩ := member
    subst declared
    exact ⟨caseValue, rfl, selects⟩

/-- A value of a case type is found under its number, if no other has the number. -/
theorem caseValue?_eq_some {names : OneofNames} (different : (names.caseValues.map
    CaseValue.number).Nodup) {value : CaseValue} (inside : value ∈ names.caseValues) :
    names.caseValue? value.number = some value.name := by
  have found : names.caseValues.find? (fun other => other.number == value.number) = some value := by
    refine find?_eq_some_of_unique inside (beq_self_eq_true value.number) ?_
    intro other other_inside same
    exact List.inj_on_of_nodup_map different other_inside inside (beq_iff_eq.mp same)
  rw [OneofNames.caseValue?, found, Option.map_some]

/-- No two fields or oneofs of a class have one backing field. -/
theorem backings_nodup (covers : plan.Covers className scope message) :
    (plan.fields.map (fun field => field.names.backing) ++
      plan.oneofs.map (fun oneof => oneof.names.backing)).Nodup := by
  obtain ⟨final, extension⟩ := covers.named.extension
  have taken : (plan.fields.map (fun field => field.names.backing) ++
      plan.oneofs.map (fun oneof => oneof.names.backing)).Sublist
        (derivedNames (plan.fields.map FieldPlan.names) (plan.oneofs.map OneofPlan.names)) := by
    rw [derivedNames, List.flatMap_map, List.flatMap_map]
    exact (map_sublist_flatMap _ fun _ => List.mem_cons_self ..).append
      (map_sublist_flatMap _ fun _ => List.mem_cons_of_mem _ (List.mem_cons_self ..))
  exact (List.Nodup.of_map Text.fold extension.apart).sublist taken

/-- **The plan of the class of an accepted message is well formed.** -/
theorem ClassPlan.Covers.wellFormed (covers : plan.Covers className scope message)
    (accepted : message.Accepted) : plan.WellFormed := by
  have numbers : (plan.fields.map fun field => field.field.number).Nodup := by
    have different := accepted.numbers
    rwa [← covers.fields_eq, List.map_map] at different
  refine ⟨backings_nodup covers, numbers, covers.presence, ?_, ?_, ?_, ?_, ?_, covers.slots_perm⟩
  · exact fun field inside => (covers.planned field inside).supported
  · intro field inside repeated
    have membership := (covers.planned field inside).membership
    cases stored : field.membership with
    | none => rfl
    | some member =>
      rw [stored] at membership
      obtain ⟨position, belongs, -⟩ := membership
      have original : field.field ∈ message.fields := by
        rw [← covers.fields_eq]
        exact List.mem_map_of_mem inside
      rw [accepted.singular field.field original position belongs] at repeated
      cases repeated
  · intro field inside member stored
    have membership := (covers.planned field inside).membership
    rw [stored] at membership
    obtain ⟨position, belongs, declared, -⟩ := membership
    rw [List.getElem?_map, Option.map_eq_some_iff] at declared
    obtain ⟨oneof, found, -⟩ := declared
    refine ⟨oneof, List.mem_of_getElem? found, ?_⟩
    rw [(covers.oneofs_eq position oneof found).2]
    exact List.mem_filter.mpr ⟨inside, by simp [belongs]⟩
  · -- Numbers of members differ, so the value at a position is the one found under the number.
    intro oneof oneof_inside position field found
    obtain ⟨index, oneof_found⟩ := List.mem_iff_getElem?.mp oneof_inside
    have inside := List.mem_of_getElem? found
    rw [(covers.oneofs_eq index oneof oneof_found).2, List.mem_filter, beq_iff_eq] at inside
    obtain ⟨caseValue, stored, selects⟩ :=
      membership_of_oneofIndex covers oneof_found inside.1 inside.2
    obtain ⟨-, numbered⟩ := caseValues_numbers covers oneof_found
    have sameNumber : (oneof.names.caseValues.map CaseValue.number)[position]? =
        some field.field.number := by
      rw [numbered, List.getElem?_map, found, Option.map_some]
    rw [List.getElem?_map, Option.map_eq_some_iff] at sameNumber
    obtain ⟨value, value_found, sameNumber⟩ := sameNumber
    have different : (oneof.names.caseValues.map CaseValue.number).Nodup := by
      rw [numbered, (covers.oneofs_eq index oneof oneof_found).2]
      exact numbers.sublist (List.filter_sublist.map _)
    have selected := caseValue?_eq_some different (List.mem_of_getElem? value_found)
    rw [sameNumber] at selected
    rw [selected, Option.some.injEq] at selects
    subst selects
    exact ⟨inside.1, value, value_found, stored, selected⟩
  · intro oneof oneof_inside
    obtain ⟨index, found⟩ := List.mem_iff_getElem?.mp oneof_inside
    exact (caseValues_numbers covers found).1

/-- **The value at the position of a member stands for it**, under its number and in its own plan. -/
theorem ClassPlan.Covers.members_values (covers : plan.Covers className scope message)
    (accepted : message.Accepted) {position : Nat} {oneof : OneofPlan}
    (found : plan.oneofs[position]? = some oneof) :
    List.Forall₂ (fun member value => member ∈ plan.fields ∧
      member.membership = some { oneof := oneof.names, caseValue := value.name } ∧
      oneof.names.caseValue? member.field.number = some value.name)
      oneof.members oneof.names.caseValues := by
  have sameLength := congrArg List.length (caseValues_numbers covers found).2
  rw [List.length_map, List.length_map] at sameLength
  refine List.forall₂_iff_get.mpr ⟨sameLength.symm, fun index below below' => ?_⟩
  obtain ⟨inside, value, value_found, membership, selects⟩ := (covers.wellFormed accepted).member
    oneof (List.mem_of_getElem? found) index _ (List.getElem?_eq_getElem below)
  rw [List.getElem?_eq_getElem below', Option.some.injEq] at value_found
  subst value_found
  exact ⟨inside, membership, selects⟩

end

end ProtoPascal.Message
