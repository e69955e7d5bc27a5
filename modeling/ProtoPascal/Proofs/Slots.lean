import Mathlib.Data.List.Nodup
import Mathlib.Data.List.Perm.Lattice
import ProtoPascal.Message.ClassPlan

/-!
The slots of a class hold every field and every oneof of the message once.

* `declarationSlots_perm`: the slots are the positions of the fields and those of the oneofs, in
  another order, provided that fields refer only to oneofs of the message;
* `flatMapSlots_perm`: so what the slots contribute to a class is what its fields and its oneofs
  contribute, in another order;
* `flatMapSlots_fields`: what only fields contribute stands in the order of the fields.
-/

namespace ProtoPascal.Message

open Schema (Field)

/-- The oneofs that fields belong to and that are not yet `placed`, in the order of their first
members. -/
def metOneofs (placed : List Nat) : List Field → List Nat
  | [] => []
  | field :: rest =>
    match field.oneofIndex with
    | none => metOneofs placed rest
    | some oneof =>
      if placed.contains oneof then metOneofs placed rest
      else oneof :: metOneofs (oneof :: placed) rest

/-- A oneof is met exactly if it is not placed and has a member. -/
theorem mem_metOneofs {placed : List Nat} {fields : List Field} {oneof : Nat} :
    oneof ∈ metOneofs placed fields ↔
      oneof ∉ placed ∧ ∃ field ∈ fields, field.oneofIndex = some oneof := by
  induction fields generalizing placed with
  | nil => simp [metOneofs]
  | cons field rest ih =>
    rw [metOneofs]
    split
    · next outside => simp [ih, outside]
    · next position inside =>
      by_cases known : position ∈ placed
      · rw [if_pos (List.contains_iff_mem.mpr known), ih]
        simp only [List.exists_mem_cons_iff, inside, Option.some.injEq]
        constructor
        · exact fun ⟨missing, member⟩ => ⟨missing, .inr member⟩
        · rintro ⟨missing, rfl | member⟩
          · exact absurd known missing
          · exact ⟨missing, member⟩
      · rw [if_neg (fun contained => known (List.contains_iff_mem.mp contained)), List.mem_cons, ih]
        rw [List.exists_mem_cons_iff, inside, Option.some.injEq, List.mem_cons, not_or]
        constructor
        · rintro (rfl | ⟨⟨different, missing⟩, member⟩)
          · exact ⟨known, .inl rfl⟩
          · exact ⟨missing, .inr member⟩
        · rintro ⟨missing, same | member⟩
          · exact .inl same.symm
          · by_cases same : oneof = position
            · exact .inl same
            · exact .inr ⟨⟨same, missing⟩, member⟩

theorem nodup_metOneofs (placed : List Nat) (fields : List Field) :
    (metOneofs placed fields).Nodup := by
  induction fields generalizing placed with
  | nil => exact List.nodup_nil
  | cons field rest ih =>
    rw [metOneofs]
    split
    · exact ih placed
    · next position inside =>
      split
      · exact ih placed
      · refine List.nodup_cons.mpr ⟨fun again => ?_, ih _⟩
        exact (mem_metOneofs.mp again).1 (List.mem_cons_self ..)

/-- The slots from a position on are those of the fields and those of the oneofs that are met. -/
theorem slotsFrom_perm (placed : List Nat) (position : Nat) (fields : List Field) :
    (slotsFrom placed position fields).Perm
      ((List.range' position fields.length).map Slot.field ++
        (metOneofs placed fields).map Slot.oneof) := by
  induction fields generalizing placed position with
  | nil => exact .refl _
  | cons field rest ih =>
    rw [List.length_cons, List.range'_succ, List.map_cons, List.cons_append]
    cases inside : field.oneofIndex with
    | none =>
      simp only [slotsFrom, metOneofs, inside]
      exact (ih placed (position + 1)).cons _
    | some oneof =>
      by_cases known : placed.contains oneof
      · simp only [slotsFrom, metOneofs, inside, known, if_true]
        exact (ih placed (position + 1)).cons _
      · -- A oneof that was not met before gets its slot next to that of its first member.
        simp only [slotsFrom, metOneofs, inside, known, if_false, Bool.false_eq_true, List.map_cons]
        refine (((ih (oneof :: placed) (position + 1)).cons _).cons _).trans ?_
        exact (List.Perm.swap _ _ _).trans (List.perm_middle.symm.cons _)

/-- **The slots are the positions of the fields and those of the oneofs**, in another order. -/
theorem declarationSlots_perm {fields : List Field} {oneofCount : Nat}
    (declared : ∀ field ∈ fields, ∀ oneof, field.oneofIndex = some oneof → oneof < oneofCount) :
    (declarationSlots fields oneofCount).Perm
      ((List.range fields.length).map Slot.field ++ (List.range oneofCount).map Slot.oneof) := by
  let memberless := (List.range oneofCount).filter fun position =>
    !(fields.any fun field => field.oneofIndex == some position)
  have split : (metOneofs [] fields ++ memberless).Perm (List.range oneofCount) := by
    refine (List.perm_ext_iff_of_nodup ?_ List.nodup_range).mpr fun oneof => ?_
    · refine List.nodup_append.mpr ⟨nodup_metOneofs [] fields, List.nodup_range.filter _, ?_⟩
      rintro oneof met _ left rfl
      obtain ⟨-, field, inside, same⟩ := mem_metOneofs.mp met
      have none := (List.mem_filter.mp left).2
      simp only [Bool.not_eq_true', List.any_eq_false, beq_iff_eq] at none
      exact none field inside same
    · rw [List.mem_append, mem_metOneofs, List.mem_filter]
      simp only [List.mem_range, List.not_mem_nil, not_false_eq_true, true_and,
        Bool.not_eq_true', List.any_eq_false, beq_iff_eq]
      constructor
      · rintro (⟨field, inside, same⟩ | ⟨below, -⟩)
        · exact declared field inside oneof same
        · exact below
      · intro below
        by_cases met : ∃ field ∈ fields, field.oneofIndex = some oneof
        · exact .inl met
        · exact .inr ⟨below, fun field inside same => met ⟨field, inside, same⟩⟩
  unfold declarationSlots
  rw [List.range_eq_range' (n := fields.length)]
  refine ((slotsFrom_perm [] 0 fields).append_right _).trans ?_
  rw [List.append_assoc, ← List.map_append]
  exact (split.map Slot.oneof).append_left _

/-- What the positions of a list contribute is what its items contribute. -/
theorem flatMap_range_getElem? {α β : Type} (items : List α) (contribute : α → List β) :
    ((List.range items.length).flatMap fun position =>
      (items[position]?.map contribute).getD []) = items.flatMap contribute := by
  have each : (List.range items.length).map (fun position => items[position]?) =
      items.map some := by
    refine List.ext_getElem (by simp) fun position below _ => ?_
    simp only [List.length_map, List.length_range] at below
    simp [below]
  have moved : ((List.range items.length).flatMap fun position =>
        (items[position]?.map contribute).getD []) =
      ((List.range items.length).map fun position => items[position]?).flatMap
        fun item => (item.map contribute).getD [] := by
    rw [List.flatMap_map]
  rw [moved, each, List.flatMap_map]
  rfl

/-- What the slots contribute to a class comes from a field or a oneof. -/
theorem exists_of_mem_flatMapSlots {α : Type} {plan : ClassPlan} {ofField : FieldPlan → List α}
    {ofOneof : OneofPlan → List α} {item : α} (inside : item ∈ plan.flatMapSlots ofField ofOneof) :
    (∃ field ∈ plan.fields, item ∈ ofField field) ∨
      ∃ oneof ∈ plan.oneofs, item ∈ ofOneof oneof := by
  obtain ⟨slot, -, inside⟩ := List.mem_flatMap.mp inside
  cases slot with
  | field position =>
    cases found : plan.fields[position]? with
    | none => simp [found] at inside
    | some field =>
      exact .inl ⟨field, List.mem_of_getElem? found, by simpa [found] using inside⟩
  | oneof position =>
    cases found : plan.oneofs[position]? with
    | none => simp [found] at inside
    | some oneof =>
      exact .inr ⟨oneof, List.mem_of_getElem? found, by simpa [found] using inside⟩

/-- What the slots contribute to a class is part of what they contribute otherwise, if this holds of
each field and each oneof. -/
theorem flatMapSlots_sublist {α : Type} (plan : ClassPlan) {ofField ofField' : FieldPlan → List α}
    {ofOneof ofOneof' : OneofPlan → List α}
    (fields : ∀ field, (ofField field).Sublist (ofField' field))
    (oneofs : ∀ oneof, (ofOneof oneof).Sublist (ofOneof' oneof)) :
    (plan.flatMapSlots ofField ofOneof).Sublist (plan.flatMapSlots ofField' ofOneof') := by
  unfold ClassPlan.flatMapSlots
  induction plan.slots with
  | nil => exact .slnil
  | cons slot rest ih =>
    rw [List.flatMap_cons, List.flatMap_cons]
    refine List.Sublist.append ?_ ih
    cases slot with
    | field position =>
      dsimp only
      cases plan.fields[position]? with
      | none => exact .slnil
      | some field => exact fields field
    | oneof position =>
      dsimp only
      cases plan.oneofs[position]? with
      | none => exact .slnil
      | some oneof => exact oneofs oneof

/-- What the slots contribute to a class, each item replaced by its image if it has one. -/
theorem filterMap_flatMapSlots {α β : Type} (plan : ClassPlan) (ofField : FieldPlan → List α)
    (ofOneof : OneofPlan → List α) (image : α → Option β) :
    (plan.flatMapSlots ofField ofOneof).filterMap image =
      plan.flatMapSlots (fun field => (ofField field).filterMap image)
        (fun oneof => (ofOneof oneof).filterMap image) := by
  unfold ClassPlan.flatMapSlots
  rw [List.filterMap_flatMap]
  refine List.flatMap_congr fun slot _ => ?_
  cases slot with
  | field position =>
    dsimp only
    cases plan.fields[position]? <;> rfl
  | oneof position =>
    dsimp only
    cases plan.oneofs[position]? <;> rfl

/-- What the slots contribute to a class, each item replaced by its image. -/
theorem map_flatMapSlots {α β : Type} (plan : ClassPlan) (ofField : FieldPlan → List α)
    (ofOneof : OneofPlan → List α) (image : α → β) :
    (plan.flatMapSlots ofField ofOneof).map image =
      plan.flatMapSlots (fun field => (ofField field).map image)
        (fun oneof => (ofOneof oneof).map image) := by
  simp only [← List.filterMap_eq_map]
  exact filterMap_flatMapSlots plan ofField ofOneof _

/-- **What the slots contribute to a class is what its fields and its oneofs contribute**, in
another order. -/
theorem flatMapSlots_perm {α : Type} {plan : ClassPlan}
    (complete : plan.slots.Perm ((List.range plan.fields.length).map Slot.field ++
      (List.range plan.oneofs.length).map Slot.oneof))
    (ofField : FieldPlan → List α) (ofOneof : OneofPlan → List α) :
    (plan.flatMapSlots ofField ofOneof).Perm
      (plan.fields.flatMap ofField ++ plan.oneofs.flatMap ofOneof) := by
  unfold ClassPlan.flatMapSlots
  refine (complete.flatMap_right _).trans ?_
  rw [List.flatMap_append, List.flatMap_map, List.flatMap_map, flatMap_range_getElem?,
    flatMap_range_getElem?]

/-- The slots of fields stand in the order of the fields. -/
theorem flatMap_slotsFrom {α : Type} {contribute : Slot → List α}
    (silent : ∀ oneof, contribute (.oneof oneof) = []) (placed : List Nat) (position : Nat)
    (fields : List Field) :
    (slotsFrom placed position fields).flatMap contribute =
      (List.range' position fields.length).flatMap fun index => contribute (.field index) := by
  induction fields generalizing placed position with
  | nil => rfl
  | cons field rest ih =>
    rw [slotsFrom, List.length_cons, List.range'_succ, List.flatMap_cons]
    split
    · rw [List.flatMap_cons, ih]
    · split
      · rw [List.flatMap_cons, ih]
      · rw [List.flatMap_cons, List.flatMap_cons, silent, List.nil_append, ih]

/-- **What only fields contribute to a class stands in the order of the fields.** -/
theorem flatMapSlots_fields {α : Type} {plan : ClassPlan} {fields : List Field} {oneofCount : Nat}
    (slotted : plan.slots = declarationSlots fields oneofCount)
    (sameLength : plan.fields.length = fields.length) (ofField : FieldPlan → List α) :
    plan.flatMapSlots ofField (fun _ => []) = plan.fields.flatMap ofField := by
  have silent (oneof : Nat) : (plan.oneofs[oneof]?.map fun _ => ([] : List α)).getD [] = [] := by
    cases plan.oneofs[oneof]? <;> rfl
  unfold ClassPlan.flatMapSlots
  rw [slotted, declarationSlots, List.flatMap_append, flatMap_slotsFrom silent, List.flatMap_map,
    ← sameLength, ← List.range_eq_range', flatMap_range_getElem?]
  simp only [silent, List.flatMap_eq_nil_iff.mpr fun _ _ => rfl, List.append_nil]

/-- The slots contribute what some field or some oneof contributes. -/
theorem mem_flatMapSlots {α : Type} {plan : ClassPlan}
    (complete : plan.slots.Perm ((List.range plan.fields.length).map Slot.field ++
      (List.range plan.oneofs.length).map Slot.oneof))
    {ofField : FieldPlan → List α} {ofOneof : OneofPlan → List α} {item : α} :
    item ∈ plan.flatMapSlots ofField ofOneof ↔
      (∃ field ∈ plan.fields, item ∈ ofField field) ∨
        ∃ oneof ∈ plan.oneofs, item ∈ ofOneof oneof := by
  rw [(flatMapSlots_perm complete ofField ofOneof).mem_iff, List.mem_append, List.mem_flatMap,
    List.mem_flatMap]

end ProtoPascal.Message
