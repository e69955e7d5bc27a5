import ProtoPascal.Proofs.Execution.Reachable

/-!
What the code of an instance leaves alone. It changes the fields of the instance and the objects that
these hold, and makes new objects. So another instance that shares no object with it stays as it is.

* `Confined`: a change is confined to one instance;
* `Confined.unchanged`: a confined change leaves other instances as they were.
-/

namespace ProtoPascal.Execution

open Message

variable {Content Payload : Type} {plan : ClassPlan} {self other : Address}
  {machine middle final : Machine Content Payload} {field : FieldPlan} {given : Value}

/-! ### Confined changes -/

/-- Nothing changes but the fields of an instance and the objects that they held. An object that they
come to hold is new, or it is the one that was given to the instance. -/
structure Confined (plan : ClassPlan) (owner : Address) (given : Value)
    (machine final : Machine Content Payload) : Prop where
  fields : ∀ address, address ≠ owner → final.fields address = machine.fields address
  objects : ∀ address < machine.fresh,
    (∀ field ∈ plan.fields, stored owner machine field ≠ .object address) →
      final.objects address = machine.objects address
  holds : ∀ field ∈ plan.fields, ∀ address, stored owner final field = .object address →
    machine.fresh ≤ address ∨ given = .object address ∨
      ∃ before ∈ plan.fields, stored owner machine before = .object address
  fresh : machine.fresh ≤ final.fresh

theorem Confined.refl : Confined plan self given machine machine :=
  ⟨fun _ _ => rfl, fun _ _ _ => rfl, fun field inside _ object => .inr (.inr ⟨field, inside, object⟩),
    Nat.le_refl _⟩

theorem Confined.trans (first : Confined plan self .nil machine middle)
    (second : Confined plan self given middle final) : Confined plan self given machine final := by
  have held {field : FieldPlan} (inside : field ∈ plan.fields) {address : Address}
      (object : stored self middle field = .object address) : machine.fresh ≤ address ∨
        ∃ before ∈ plan.fields, stored self machine before = .object address :=
    (first.holds field inside address object).imp_right fun old => old.resolve_left Value.noConfusion
  refine ⟨fun address different => ?_, fun address known free => ?_,
    fun field inside address object => ?_, Nat.le_trans first.fresh second.fresh⟩
  · rw [second.fields address different, first.fields address different]
  · rw [second.objects address (Nat.lt_of_lt_of_le known first.fresh), first.objects address known free]
    intro field inside object
    rcases held inside object with new | ⟨before, before_inside, old⟩
    · exact absurd known (Nat.not_lt.mpr new)
    · exact free before before_inside old
  · rcases second.holds field inside address object with new | same | ⟨between, between_inside, old⟩
    · exact .inl (Nat.le_trans first.fresh new)
    · exact .inr (.inl same)
    · exact (held between_inside old).imp_right .inr

/-- What was given need not be told if it is no object or a new one. -/
theorem Confined.alone (confined : Confined plan self given machine final)
    (new : ∀ address, given = .object address → machine.fresh ≤ address) :
    Confined plan self .nil machine final where
  fields := confined.fields
  objects := confined.objects
  holds field inside address object := by
    rcases confined.holds field inside address object with late | same | old
    · exact .inl late
    · exact .inl (new address same)
    · exact .inr (.inr old)
  fresh := confined.fresh

theorem Confined.weaken (confined : Confined plan self .nil machine final) :
    Confined plan self given machine final where
  fields := confined.fields
  objects := confined.objects
  holds field inside address object := (confined.holds field inside address object).imp_right
    fun old => .inr (old.resolve_left Value.noConfusion)
  fresh := confined.fresh

theorem confined_store (name : String) (value : Value) :
    Confined plan self value machine (machine.store self name value) where
  fields address different := Function.update_of_ne different _ _
  objects _ _ _ := rfl
  holds field inside address object := by
    by_cases same : field.names.backing = name
    · rw [stored, same, Machine.fields_store_same] at object
      exact .inr (.inl object)
    · rw [stored, Machine.fields_store_name _ _ _ _ same] at object
      exact .inr (.inr ⟨field, inside, object⟩)
  fresh := Nat.le_refl _

theorem confined_allocate (content : Content) :
    Confined plan self .nil machine (machine.allocate content) where
  fields _ _ := rfl
  objects _ known _ := Machine.objects_allocate_other _ _ (Nat.ne_of_lt known)
  holds field inside _ object := .inr (.inr ⟨field, inside, object⟩)
  fresh := Nat.le_succ _

theorem confined_setObject (inside : field ∈ plan.fields) {address : Address}
    (holds : stored self machine field = .object address) (content : Option Content) :
    Confined plan self .nil machine (machine.setObject address content) where
  fields _ _ := rfl
  objects _ _ free := Machine.objects_setObject_other _ _ _ fun same =>
    free field inside (same ▸ holds)
  holds field inside _ object := .inr (.inr ⟨field, inside, object⟩)
  fresh := Nat.le_refl _

theorem confined_free (inside : field ∈ plan.fields) :
    Confined plan self .nil machine (freeValue machine (stored self machine field)) := by
  cases holds : stored self machine field with
  | object address => exact confined_setObject inside holds none
  | _ => exact .refl

theorem confined_replace (inside : field ∈ plan.fields) (value : Value) :
    Confined plan self value machine (replace self machine field value) :=
  (confined_free inside).trans (confined_store _ _)

/-! ### Other instances -/

/-- Two instances hold no object together. -/
def Separate (plan : ClassPlan) (self other : Address) (machine : Machine Content Payload) : Prop :=
  ∀ field ∈ plan.fields, ∀ field' ∈ plan.fields, ∀ address,
    stored self machine field = .object address → stored other machine field' ≠ .object address

/-- An instance stays as it is: its fields and the contents of the objects that they hold. -/
structure Unchanged (plan : ClassPlan) (owner : Address) (machine final : Machine Content Payload) :
    Prop where
  fields : final.fields owner = machine.fields owner
  objects : ∀ field ∈ plan.fields, ∀ address, stored owner machine field = .object address →
    final.objects address = machine.objects address

theorem Unchanged.refl : Unchanged plan self machine machine :=
  ⟨rfl, fun _ _ _ _ => rfl⟩

theorem Unchanged.keeps (unchanged : Unchanged plan self machine final)
    (inside : field ∈ plan.fields) : Keeps self machine final field :=
  ⟨congrFun unchanged.fields _, unchanged.objects field inside⟩

theorem Unchanged.trans (first : Unchanged plan self machine middle)
    (second : Unchanged plan self middle final) : Unchanged plan self machine final :=
  ⟨second.fields.trans first.fields, fun _ inside address object =>
    ((first.keeps inside).trans (second.keeps inside)).objects address object⟩

/-- What leaves an instance as it is happens elsewhere, so the instance stays in a sound state. -/
theorem Unchanged.sound (unchanged : Unchanged plan self machine final)
    (sound : Sound plan self machine)
    (below : ∀ address, (final.objects address).isSome = true → address < final.fresh) :
    Sound plan self final := by
  refine Elsewhere.sound ⟨unchanged.fields, fun field inside address object => ?_, below⟩ sound
  rw [unchanged.objects field inside address object]
  exact sound.consistent.owns.object_alive inside object

/-- **A change that is confined to one instance leaves another one as it is**, if they hold no object
together, and then they hold none together afterwards. -/
theorem Confined.unchanged (confined : Confined plan self .nil machine final) (different : other ≠ self)
    (owns : Owns plan other machine) (separate : Separate plan self other machine) :
    Unchanged plan other machine final ∧ Separate plan self other final := by
  have fields := confined.fields other different
  refine ⟨⟨fields, fun field inside address object => ?_⟩, ?_⟩
  · refine confined.objects address (owns.object_below inside object) fun before before_inside held => ?_
    exact separate before before_inside field inside address held object
  · intro field inside field' inside' address object object'
    rw [stored, fields] at object'
    rcases confined.holds field inside address object with new | impossible | ⟨before, before_inside, old⟩
    · exact absurd (owns.object_below inside' object') (Nat.not_lt.mpr new)
    · cases impossible
    · exact separate before before_inside field' inside' address old object'

end ProtoPascal.Execution
