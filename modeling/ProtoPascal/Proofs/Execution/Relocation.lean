import ProtoPascal.Proofs.Execution.Decoding

/-!
States of instances do not depend on addresses. An instance that has its objects at other addresses,
on another machine, is in the same state, so two instances can be laid out on one machine.

* `Relocates.sound`: an instance stays sound when it is laid out elsewhere;
* `beside`: two instances on one machine.
-/

namespace ProtoPascal.Execution

open Message

variable {Content Payload : Type} {plan : ClassPlan} {self self' left right : Address}
  {machine machine' first second : Machine Content Payload} {place : Address → Address}

/-! ### Other addresses -/

/-- A value, with objects at other addresses. -/
def Value.relocate (place : Address → Address) : Value → Value
  | .object address => .object (place address)
  | value => value

theorem Value.relocate_of_ne_object {value : Value} (plain : ∀ address, value ≠ .object address) :
    value.relocate place = value := by
  cases value with
  | object address => exact absurd rfl (plain address)
  | _ => rfl

theorem Value.relocate_eq_object {value : Value} {address : Address}
    (same : value.relocate place = .object address) :
    ∃ before, value = .object before ∧ place before = address := by
  cases value with
  | object before => exact ⟨before, rfl, Value.object.inj same⟩
  | _ => cases same

/-- An instance is laid out on another machine, with its objects at other addresses. -/
structure Relocates (place : Address → Address) (owner : Address)
    (machine : Machine Content Payload) (owner' : Address) (machine' : Machine Content Payload) :
    Prop where
  injective : Function.Injective place
  fields : ∀ name, machine'.fields owner' name = (machine.fields owner name).relocate place
  objects : ∀ address, machine'.objects (place address) = machine.objects address
  below : ∀ address, (machine'.objects address).isSome = true → address < machine'.fresh

section

variable (relocates : Relocates place self machine self' machine')
include relocates

/-- A client sees the same. -/
theorem Relocates.seen (field : FieldPlan) :
    seen machine' (stored self' machine' field) = seen machine (stored self machine field) := by
  rw [stored, relocates.fields, stored]
  cases machine.fields self field.names.backing with
  | object address => exact congrArg Seen.content (relocates.objects address)
  | _ => rfl

theorem Relocates.fits {field : FieldPlan} (fits : Fits machine field (stored self machine field)) :
    Fits machine' field (stored self' machine' field) := by
  have moved : stored self' machine' field = (stored self machine field).relocate place :=
    relocates.fields _
  rw [moved]
  unfold Fits at fits ⊢
  split
  · next objects =>
    rw [if_pos objects] at fits
    rcases fits with nil | ⟨address, object, alive⟩
    · rw [nil]
      exact .inl rfl
    · rw [object]
      exact .inr ⟨place address, rfl, by rw [relocates.objects]; exact alive⟩
  · next plain =>
    rw [if_neg plain] at fits
    rw [Value.relocate_of_ne_object fits.ne_object]
    exact fits

theorem Relocates.selects {oneof : OneofPlan} {position : Nat}
    (selects : Selects self machine oneof position) : Selects self' machine' oneof position := by
  have moved (field : FieldPlan) :
      stored self' machine' field = (stored self machine field).relocate place :=
    relocates.fields _
  refine ⟨selects.bound, ?_, fun field found message nil => ?_, fun index field found different => ?_⟩
  · rw [relocates.fields, selects.backing]
    rfl
  · refine selects.selected field found message ?_
    rw [moved] at nil
    cases value : stored self machine field with
    | nil => rfl
    | _ =>
      rw [value] at nil
      cases nil
  · rw [moved, selects.unselected index field found different,
      Value.relocate_of_ne_object (absent_ne_object field)]

/-- **An instance stays sound when it is laid out elsewhere.** -/
theorem Relocates.sound (sound : Sound plan self machine) : Sound plan self' machine' := by
  have owns := sound.consistent.owns
  refine ⟨⟨⟨relocates.below, fun field inside => relocates.fits (owns.fits field inside), ?_⟩,
    fun oneof inside => ?_⟩, fun field inside repeated nil => ?_⟩
  · intro field inside other other_inside address object other_object
    obtain ⟨before, held, moved⟩ :=
      Value.relocate_eq_object ((relocates.fields _).symm.trans object)
    obtain ⟨before', held', moved'⟩ :=
      Value.relocate_eq_object ((relocates.fields _).symm.trans other_object)
    obtain rfl := relocates.injective (moved.trans moved'.symm)
    exact owns.apart field inside other other_inside before held held'
  · obtain ⟨position, selects⟩ := sound.consistent.selects oneof inside
    exact ⟨position, relocates.selects selects⟩
  · obtain ⟨address, -, object, -⟩ := sound.collection inside repeated
    have moved := relocates.fields field.names.backing
    rw [show machine.fields self field.names.backing = .object address from object] at moved
    cases nil.symm.trans moved

end

/-! ### Two instances on one machine -/

/-- The even address for an address. -/
def evenPlace (address : Nat) : Nat := 2 * address

/-- The odd address for an address. -/
def oddPlace (address : Nat) : Nat := 2 * address + 1

theorem evenPlace_ne_oddPlace (address address' : Nat) : evenPlace address ≠ oddPlace address' := by
  unfold evenPlace oddPlace
  omega

theorem evenPlace_injective : Function.Injective evenPlace := by
  intro address address' same
  unfold evenPlace at same
  omega

theorem oddPlace_injective : Function.Injective oddPlace := by
  intro address address' same
  unfold oddPlace at same
  omega

/-- What stands at even addresses in one function and at odd addresses in another. -/
def interleave {α : Type} (even odd : Nat → α) (address : Nat) : α :=
  if address % 2 = 0 then even (address / 2) else odd (address / 2)

theorem interleave_evenPlace {α : Type} (even odd : Nat → α) (address : Nat) :
    interleave even odd (evenPlace address) = even address := by
  unfold interleave evenPlace
  rw [if_pos (by omega), show 2 * address / 2 = address by omega]

theorem interleave_oddPlace {α : Type} (even odd : Nat → α) (address : Nat) :
    interleave even odd (oddPlace address) = odd address := by
  unfold interleave oddPlace
  rw [if_neg (by omega), show (2 * address + 1) / 2 = address by omega]

/-- The machine with two instances, at the first two addresses, whose objects are at even and at odd
addresses. -/
def beside (left : Address) (first : Machine Content Payload) (right : Address)
    (second : Machine Content Payload) : Machine Content Payload where
  fields address name :=
    if address = 0 then (first.fields left name).relocate evenPlace
    else (second.fields right name).relocate oddPlace
  objects := interleave first.objects second.objects
  fresh := 2 * max first.fresh second.fresh
  streams _ := []
  unparsed _ := []

section

variable (first_below : ∀ address, (first.objects address).isSome = true → address < first.fresh)
  (second_below : ∀ address, (second.objects address).isSome = true → address < second.fresh)
include first_below second_below

theorem beside_below {address : Address}
    (alive : ((beside left first right second).objects address).isSome = true) :
    address < (beside left first right second).fresh := by
  have half {number bound other : Nat} (below : number / 2 < bound) :
      number < 2 * max bound other ∧ number < 2 * max other bound := by
    omega
  dsimp only [beside, interleave] at alive
  split at alive
  · exact (half (first_below _ alive)).1
  · exact (half (second_below _ alive)).2

theorem relocates_beside_left :
    Relocates evenPlace left first 0 (beside left first right second) where
  injective := evenPlace_injective
  fields _ := rfl
  objects := interleave_evenPlace _ _
  below _ := beside_below first_below second_below

theorem relocates_beside_right :
    Relocates oddPlace right second 1 (beside left first right second) where
  injective := oddPlace_injective
  fields _ := rfl
  objects := interleave_oddPlace _ _
  below _ := beside_below first_below second_below

omit first_below second_below in
/-- Two instances that are laid out on one machine hold no object together. -/
theorem separate_beside : Separate plan 0 1 (beside left first right second) := by
  intro field _ field' _ address object object'
  obtain ⟨before, -, even⟩ := Value.relocate_eq_object object
  obtain ⟨before', -, odd⟩ := Value.relocate_eq_object object'
  exact evenPlace_ne_oddPlace before before' (even.trans odd.symm)

end

end ProtoPascal.Execution
