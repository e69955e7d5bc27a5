import ProtoPascal.Proofs.Execution.Instance

/-!
What the generated code does to single fields and oneofs keeps the state of an instance consistent.
Each change of a field keeps the ownership of objects and all other fields, and a choice of a oneof
leaves its members as the new case demands.

* `Owns.replace`, `Owns.putNew`, `Owns.release`: single changes of fields keep the ownership;
* `Selects.choose`: a oneof selects what it chooses.
-/

namespace ProtoPascal.Execution

open Message

variable {Content Payload : Type} {plan : ClassPlan} {self : Address}
  {machine middle final : Machine Content Payload} {library : Library Content Payload}

/-! ### Fields that stay what they are -/

/-- A field of an instance stores what it stored, and the object that it holds has the content that
it had. -/
structure Keeps (owner : Address) (machine final : Machine Content Payload) (field : FieldPlan) :
    Prop where
  same : stored owner final field = stored owner machine field
  objects : ∀ address, stored owner machine field = .object address →
    final.objects address = machine.objects address

theorem Keeps.refl (field : FieldPlan) : Keeps self machine machine field :=
  ⟨rfl, fun _ _ => rfl⟩

theorem Keeps.trans {field : FieldPlan} (first : Keeps self machine middle field)
    (second : Keeps self middle final field) : Keeps self machine final field := by
  refine ⟨second.same.trans first.same, fun address object => ?_⟩
  rw [second.objects address (first.same.trans object), first.objects address object]

/-- Whether a value fits depends only on whether it is an object that is alive. -/
theorem Fits.congr {field : FieldPlan} {value : Value} (fits : Fits machine field value)
    (same : ∀ address, value = .object address →
      final.objects address = machine.objects address) : Fits final field value := by
  unfold Fits at fits ⊢
  split at fits
  · next objects =>
    rw [if_pos objects]
    rcases fits with rfl | ⟨address, rfl, alive⟩
    · exact .inl rfl
    · exact .inr ⟨address, rfl, by rw [same address rfl]; exact alive⟩
  · next plain =>
    rw [if_neg plain]
    exact fits

theorem Owns.alive (owns : Owns plan self machine) {field : FieldPlan}
    (inside : field ∈ plan.fields) (objects : holdsObjects field = true) :
    IsAlive machine (stored self machine field) := by
  have fits := owns.fits field inside
  rwa [Fits, objects, if_pos rfl] at fits

theorem Owns.fitsScalar (owns : Owns plan self machine) {field : FieldPlan}
    (inside : field ∈ plan.fields) (single : field.field.repeated = false)
    {scalar : Schema.ScalarType} (type : field.field.type = .scalar scalar) :
    FitsScalar scalar (stored self machine field) := by
  have fits := owns.fits field inside
  rw [Fits, holdsObjects, single, type] at fits
  exact fits

theorem Owns.object_alive (owns : Owns plan self machine) {field : FieldPlan}
    (inside : field ∈ plan.fields) {address : Address}
    (object : stored self machine field = .object address) :
    (machine.objects address).isSome = true := by
  have fits := owns.fits field inside
  rw [object, Fits] at fits
  split at fits
  · rcases fits with nil | ⟨_, same, alive⟩
    · cases nil
    · cases same
      exact alive
  · exact absurd rfl (fits.ne_object address)

/-- The object that a field holds is not a new one. -/
theorem Owns.object_below (owns : Owns plan self machine) {field : FieldPlan}
    (inside : field ∈ plan.fields) {address : Address}
    (object : stored self machine field = .object address) : address < machine.fresh :=
  owns.below address (owns.object_alive inside object)

/-- **A change of one field keeps the ownership**, if the other fields stay what they are and the new
value fits and is held by no other field. -/
theorem Owns.update (owns : Owns plan self machine) {field : FieldPlan}
    (below : ∀ address, (final.objects address).isSome = true → address < final.fresh)
    (keeps : ∀ other ∈ plan.fields, other ≠ field → Keeps self machine final other)
    (fits : Fits final field (stored self final field))
    (apart : ∀ other ∈ plan.fields, other ≠ field → ∀ address,
      stored self final field = .object address → stored self machine other ≠ .object address) :
    Owns plan self final := by
  refine ⟨below, ?_, ?_⟩
  · intro other inside
    by_cases same : other = field
    · subst same
      exact fits
    · rw [(keeps other inside same).same]
      exact (owns.fits other inside).congr fun address object =>
        (keeps other inside same).objects address object
  · intro first first_inside second second_inside address holds holds'
    by_contra different
    by_cases first_new : first = field
    · subst first_new
      have second_kept := keeps second second_inside (Ne.symm different)
      rw [second_kept.same] at holds'
      exact apart second second_inside (Ne.symm different) address holds holds'
    · have first_kept := keeps first first_inside first_new
      rw [first_kept.same] at holds
      by_cases second_new : second = field
      · subst second_new
        exact apart first first_inside first_new address holds' holds
      · rw [(keeps second second_inside second_new).same] at holds'
        exact different (owns.apart first first_inside second second_inside address holds holds')

/-! ### Single changes of fields -/

@[simp]
theorem stored_put_same (field : FieldPlan) (value : Value) :
    stored self (put self machine field value) field = value :=
  Machine.fields_store_same ..

@[simp]
theorem objects_put (field : FieldPlan) (value : Value) :
    (put self machine field value).objects = machine.objects := rfl

@[simp]
theorem fresh_put (field : FieldPlan) (value : Value) :
    (put self machine field value).fresh = machine.fresh := rfl

@[simp]
theorem fields_freeValue (value : Value) :
    (freeValue machine value).fields = machine.fields := by
  cases value <;> rfl

@[simp]
theorem fresh_freeValue (value : Value) : (freeValue machine value).fresh = machine.fresh := by
  cases value <;> rfl

theorem objects_freeValue {value : Value} {address : Address} (other : value ≠ .object address) :
    (freeValue machine value).objects address = machine.objects address := by
  cases value with
  | object freed =>
    refine Machine.objects_setObject_other _ _ _ fun same => other ?_
    rw [same]
  | _ => rfl

/-- What is alive after a value is freed was alive before. -/
theorem isSome_of_freeValue {value : Value} {address : Address}
    (alive : ((freeValue machine value).objects address).isSome = true) :
    (machine.objects address).isSome = true := by
  by_cases freed : value = .object address
  · subst freed
    rw [freeValue, Machine.objects_setObject_same] at alive
    cases alive
  · rwa [objects_freeValue freed] at alive

section

variable (wellFormed : plan.WellFormed) {field other : FieldPlan} (inside : field ∈ plan.fields)
  (other_inside : other ∈ plan.fields) (different : other ≠ field)

include wellFormed inside other_inside different in
theorem keeps_put (value : Value) : Keeps self machine (put self machine field value) other := by
  refine ⟨?_, fun _ _ => rfl⟩
  exact Machine.fields_store_name _ _ _ _
    (field_backing_ne wellFormed other_inside inside different) _

include wellFormed inside other_inside different in
theorem keeps_replace (owns : Owns plan self machine) (value : Value) :
    Keeps self machine (replace self machine field value) other := by
  have freed : Keeps self machine (freeValue machine (stored self machine field)) other := by
    refine ⟨by rw [stored, fields_freeValue, stored], fun address object =>
      objects_freeValue fun holds => ?_⟩
    exact different (owns.apart other other_inside field inside address object holds)
  exact freed.trans (keeps_put wellFormed inside other_inside different value)

include wellFormed inside other_inside different in
theorem keeps_release (owns : Owns plan self machine) :
    Keeps self machine (release self machine field) other := by
  unfold release
  split
  · exact keeps_replace wellFormed inside other_inside different owns _
  · exact keeps_put wellFormed inside other_inside different _

theorem keeps_allocate (owns : Owns plan self machine) (inside : field ∈ plan.fields)
    (content : Content) : Keeps self machine (machine.allocate content) field := by
  refine ⟨rfl, fun address object => Machine.objects_allocate_other _ _ ?_⟩
  exact Nat.ne_of_lt (owns.object_below inside object)

include wellFormed inside other_inside different in
theorem keeps_putNew (owns : Owns plan self machine) (content : Content) :
    Keeps self machine (putNew self machine field content) other :=
  (keeps_allocate owns other_inside content).trans
    (keeps_put wellFormed inside other_inside different _)

include wellFormed inside other_inside different in
theorem keeps_renew (owns : Owns plan self machine) :
    Keeps self machine (renew self machine library field) other := by
  unfold renew
  split
  · exact keeps_putNew wellFormed inside other_inside different owns _
  · exact keeps_put wellFormed inside other_inside different _

include wellFormed inside in
/-- A value that is no object keeps the ownership. -/
theorem Owns.put (owns : Owns plan self machine) (plain : holdsObjects field = false) {value : Value}
    (fits : Fits machine field value) : Owns plan self (put self machine field value) := by
  refine owns.update owns.below (fun other other_inside different =>
    keeps_put wellFormed inside other_inside different value) ?_ ?_
  · rw [stored_put_same]
    exact fits
  · intro other _ _ address object
    rw [stored_put_same] at object
    subst object
    rw [Fits, plain, if_neg Bool.false_ne_true] at fits
    exact absurd rfl (fits.ne_object address)

include wellFormed inside in
/-- An object that is alive and that no field holds keeps the ownership. -/
theorem Owns.replace (owns : Owns plan self machine) (objects : holdsObjects field = true)
    {value : Value} (alive : IsAlive machine value)
    (free : ∀ other ∈ plan.fields, ∀ address, value = .object address →
      stored self machine other ≠ .object address) :
    Owns plan self (replace self machine field value) := by
  refine owns.update ?_ (fun other other_inside different =>
    keeps_replace wellFormed inside other_inside different owns value) ?_ ?_
  · intro address isSome
    rw [Execution.replace, objects_put] at isSome
    rw [Execution.replace, fresh_put, fresh_freeValue]
    exact owns.below address (isSome_of_freeValue isSome)
  · rw [Execution.replace, stored_put_same, Fits, objects, if_pos rfl]
    rcases alive with rfl | ⟨address, rfl, alive⟩
    · exact .inl rfl
    · refine .inr ⟨address, rfl, ?_⟩
      rw [objects_put, objects_freeValue (free field inside address rfl)]
      exact alive
  · intro other other_inside _ address object
    rw [Execution.replace, stored_put_same] at object
    exact free other other_inside address object

/-- The value that stands for absence fits, unless the field is repeated. -/
theorem fits_absent (single : field.field.repeated = false) :
    Fits machine field (absent field) := by
  unfold Fits absent holdsObjects
  rw [single, Bool.false_or]
  cases type : field.field.type with
  | scalar scalar =>
    exact fitsScalar_absentValue scalar
  | reference kind typeName =>
    cases kind with
    | message => exact .inl rfl
    | enumeration => exact ⟨0, ⟨by decide, by decide⟩, rfl⟩

include wellFormed inside in
/-- The release of a field keeps the ownership. -/
theorem Owns.release (owns : Owns plan self machine) (single : field.field.repeated = false) :
    Owns plan self (release self machine field) := by
  unfold Execution.release
  cases message : field.field.type.isMessage with
  | true =>
    rw [if_pos rfl]
    refine owns.replace wellFormed inside (by rw [holdsObjects, message, Bool.or_true])
      (.inl rfl) ?_
    rintro _ _ _ ⟨⟩
  | false =>
    rw [if_neg Bool.false_ne_true]
    exact owns.put wellFormed inside (by rw [holdsObjects, single, message]; rfl)
      (fits_absent single)

include wellFormed inside in
/-- A new object of a field keeps the ownership. -/
theorem Owns.putNew (owns : Owns plan self machine) (objects : holdsObjects field = true)
    (content : Content) : Owns plan self (putNew self machine field content) := by
  refine owns.update ?_ (fun other other_inside different =>
    keeps_putNew wellFormed inside other_inside different owns content) ?_ ?_
  · intro address isSome
    rw [Execution.putNew, objects_put] at isSome
    rw [Execution.putNew, fresh_put, Machine.fresh_allocate]
    by_cases new : address = machine.fresh
    · rw [new]
      exact Nat.lt_succ_self _
    · rw [Machine.objects_allocate_other _ _ new] at isSome
      exact Nat.lt_succ_of_lt (owns.below address isSome)
  · rw [Execution.putNew, stored_put_same, Fits, objects, if_pos rfl]
    refine .inr ⟨machine.fresh, rfl, ?_⟩
    rw [objects_put, Machine.objects_allocate_fresh]
    rfl
  · intro other other_inside _ address object holds
    rw [Execution.putNew, stored_put_same, Value.object.injEq] at object
    subst object
    exact Nat.lt_irrefl _ (owns.object_below other_inside holds)

include wellFormed inside in
/-- A new value of a field keeps the ownership. -/
theorem Owns.renew (owns : Owns plan self machine) (single : field.field.repeated = false) :
    Owns plan self (renew self machine library field) := by
  unfold Execution.renew
  cases message : field.field.type.isMessage with
  | true =>
    rw [if_pos rfl]
    exact owns.putNew wellFormed inside (by rw [holdsObjects, message, Bool.or_true]) _
  | false =>
    rw [if_neg Bool.false_ne_true]
    exact owns.put wellFormed inside (by rw [holdsObjects, single, message]; rfl)
      (fits_absent single)

end

/-! ### Choices of oneofs -/

section

variable (wellFormed : plan.WellFormed) {oneof : OneofPlan} (inside : oneof ∈ plan.oneofs)

include wellFormed inside in
theorem case_put {field : FieldPlan} (field_inside : field ∈ plan.fields) (value : Value) :
    (put self machine field value).fields self oneof.names.backing =
      machine.fields self oneof.names.backing :=
  Machine.fields_store_name _ _ _ _
    (field_oneof_backing_ne wellFormed field_inside inside).symm _

include wellFormed inside in
theorem case_release {field : FieldPlan} (field_inside : field ∈ plan.fields) :
    (release self machine field).fields self oneof.names.backing =
      machine.fields self oneof.names.backing := by
  unfold release replace
  split
  · rw [case_put wellFormed inside field_inside, fields_freeValue]
  · exact case_put wellFormed inside field_inside _

include wellFormed inside in
theorem case_renew {field : FieldPlan} (field_inside : field ∈ plan.fields) :
    (renew self machine library field).fields self oneof.names.backing =
      machine.fields self oneof.names.backing := by
  unfold renew
  split
  · rw [putNew, case_put wellFormed inside field_inside, Machine.fields_allocate]
  · exact case_put wellFormed inside field_inside _

theorem stored_release (field : FieldPlan) :
    stored self (release self machine field) field = absent field := by
  unfold release replace
  split
  · next message => rw [stored_put_same, absent_of_isMessage message]
  · rw [stored_put_same]

include wellFormed inside in
theorem keeps_putCase {field : FieldPlan} (field_inside : field ∈ plan.fields) (position : Nat) :
    Keeps self machine (putCase self machine oneof position) field :=
  ⟨Machine.fields_store_name _ _ _ _ (field_oneof_backing_ne wellFormed field_inside inside) _,
    fun _ _ => rfl⟩

include wellFormed inside in
theorem Owns.putCase (owns : Owns plan self machine) (position : Nat) :
    Owns plan self (putCase self machine oneof position) := by
  have keeps : ∀ field ∈ plan.fields,
      Keeps self machine (Execution.putCase self machine oneof position) field :=
    fun field field_inside => keeps_putCase wellFormed inside field_inside position
  refine ⟨owns.below, ?_, ?_⟩
  · intro field field_inside
    rw [(keeps field field_inside).same]
    exact (owns.fits field field_inside).congr fun _ _ => rfl
  · intro field field_inside other other_inside address holds holds'
    rw [(keeps field field_inside).same] at holds
    rw [(keeps other other_inside).same] at holds'
    exact owns.apart field field_inside other other_inside address holds holds'

include wellFormed inside in
/-- The release of a member keeps the ownership. -/
theorem Owns.leave (owns : Owns plan self machine) (position : Nat) :
    Owns plan self (leave self machine oneof position) := by
  unfold Execution.leave
  cases found : memberAt oneof position with
  | none => exact owns
  | some field =>
    exact owns.release wellFormed (memberAt_mem wellFormed inside found)
      (memberAt_presence wellFormed inside found).1

include wellFormed inside in
theorem Owns.enter (owns : Owns plan self machine) (position : Nat) :
    Owns plan self (enter self machine library oneof position) := by
  unfold Execution.enter
  cases found : memberAt oneof position with
  | none => exact owns
  | some field =>
    exact owns.renew wellFormed (memberAt_mem wellFormed inside found)
      (memberAt_presence wellFormed inside found).1

include wellFormed inside in
/-- Fields other than the member stay what they are when it is released. -/
theorem keeps_leave (owns : Owns plan self machine) {field : FieldPlan}
    (field_inside : field ∈ plan.fields) {position : Nat}
    (other : memberAt oneof position ≠ some field) :
    Keeps self machine (leave self machine oneof position) field := by
  unfold leave
  cases found : memberAt oneof position with
  | none => exact Keeps.refl field
  | some member =>
    refine keeps_release wellFormed (memberAt_mem wellFormed inside found) field_inside ?_ owns
    rintro rfl
    exact other found

include wellFormed inside in
theorem keeps_enter (owns : Owns plan self machine) {field : FieldPlan}
    (field_inside : field ∈ plan.fields) {position : Nat}
    (other : memberAt oneof position ≠ some field) :
    Keeps self machine (enter self machine library oneof position) field := by
  unfold enter
  cases found : memberAt oneof position with
  | none => exact Keeps.refl field
  | some member =>
    refine keeps_renew wellFormed (memberAt_mem wellFormed inside found) field_inside ?_ owns
    rintro rfl
    exact other found

include wellFormed inside in
theorem case_leave {other : OneofPlan} (other_inside : other ∈ plan.oneofs) (position : Nat) :
    (leave self machine oneof position).fields self other.names.backing =
      machine.fields self other.names.backing := by
  unfold leave
  cases found : memberAt oneof position with
  | none => rfl
  | some member =>
    exact case_release wellFormed other_inside (memberAt_mem wellFormed inside found)

include wellFormed inside in
theorem case_enter {other : OneofPlan} (other_inside : other ∈ plan.oneofs) (position : Nat) :
    (enter self machine library oneof position).fields self other.names.backing =
      machine.fields self other.names.backing := by
  unfold enter
  cases found : memberAt oneof position with
  | none => rfl
  | some member =>
    exact case_renew wellFormed other_inside (memberAt_mem wellFormed inside found)

include wellFormed inside in
/-- **A choice keeps the ownership.** -/
theorem Owns.choose (owns : Owns plan self machine) (old new : Nat) :
    Owns plan self (choose self machine library oneof old new) := by
  unfold Execution.choose
  split
  · exact owns
  · exact ((owns.leave wellFormed inside old).putCase wellFormed inside new).enter wellFormed
      inside new

include wellFormed inside in
/-- Fields that neither leave nor enter stay what they are. -/
theorem keeps_choose (owns : Owns plan self machine) {field : FieldPlan}
    (field_inside : field ∈ plan.fields) {old new : Nat}
    (stays : old ≠ new → memberAt oneof old ≠ some field ∧ memberAt oneof new ≠ some field) :
    Keeps self machine (choose self machine library oneof old new) field := by
  unfold choose
  split
  · exact Keeps.refl field
  · next different =>
    obtain ⟨notOld, notNew⟩ := stays different
    have owned := owns.leave wellFormed inside old
    exact ((keeps_leave wellFormed inside owns field_inside notOld).trans
      (keeps_putCase wellFormed inside field_inside new)).trans
        (keeps_enter wellFormed inside (owned.putCase wellFormed inside new) field_inside notNew)

include wellFormed inside in
/-- The member that leaves stores the value that stands for absence. -/
theorem stored_choose_old (owns : Owns plan self machine) {field : FieldPlan} {old new : Nat}
    (found : memberAt oneof old = some field) (different : old ≠ new) :
    stored self (choose self machine library oneof old new) field = absent field := by
  have field_inside := memberAt_mem wellFormed inside found
  have notNew : memberAt oneof new ≠ some field := fun again =>
    different (memberAt_unique wellFormed inside inside found again).2
  have left : stored self (leave self machine oneof old) field = absent field := by
    rw [leave, found]
    exact stored_release field
  have owned := (owns.leave wellFormed inside old).putCase wellFormed inside new
  rw [choose, if_neg different, (keeps_enter wellFormed inside owned field_inside notNew).same,
    (keeps_putCase wellFormed inside field_inside new).same, left]

@[simp]
theorem fresh_leave (position : Nat) :
    (leave self machine oneof position).fresh = machine.fresh := by
  unfold leave
  cases memberAt oneof position with
  | none => rfl
  | some field =>
    rw [Option.elim_some, release]
    split
    · rw [replace, fresh_put, fresh_freeValue]
    · rfl

/-- The member that enters stores the value that stands for absence, or a new object if it is a
message. -/
theorem stored_choose_new {field : FieldPlan} {old new : Nat}
    (found : memberAt oneof new = some field) (different : old ≠ new) :
    stored self (choose self machine library oneof old new) field =
      if field.field.type.isMessage then .object machine.fresh else absent field := by
  rw [choose, if_neg different, enter, found, Option.elim_some, renew]
  split
  · rw [putNew, stored_put_same, putCase, Machine.fresh_store, fresh_leave]
  · rw [stored_put_same]

/-- An object that the member at a position does not hold stays what it is when the member is
released. -/
theorem objects_leave {position : Nat} {address : Address}
    (other : ∀ field, memberAt oneof position = some field →
      stored self machine field ≠ .object address) :
    (leave self machine oneof position).objects address = machine.objects address := by
  unfold leave
  cases found : memberAt oneof position with
  | none => rfl
  | some field =>
    rw [Option.elim_some, release]
    split
    · rw [replace, objects_put, objects_freeValue (other field found)]
    · rfl

theorem objects_enter {position : Nat} {address : Address} (known : address ≠ machine.fresh) :
    (enter self machine library oneof position).objects address = machine.objects address := by
  unfold enter
  cases memberAt oneof position with
  | none => rfl
  | some field =>
    rw [Option.elim_some, renew]
    split
    · rw [putNew, objects_put, Machine.objects_allocate_other _ _ known]
    · rfl

/-- An object that the member that leaves does not hold stays what it is. -/
theorem objects_choose {old new : Nat} {address : Address} (known : address ≠ machine.fresh)
    (other : old ≠ new → ∀ field, memberAt oneof old = some field →
      stored self machine field ≠ .object address) :
    (choose self machine library oneof old new).objects address = machine.objects address := by
  unfold choose
  split
  · rfl
  · next different =>
    rw [objects_enter, putCase, Machine.objects_store, objects_leave (other different)]
    rw [putCase, Machine.fresh_store, fresh_leave]
    exact known

theorem absent_ne_object (field : FieldPlan) (address : Address) :
    absent field ≠ .object address := by
  unfold absent
  rcases field.field.type with scalar | ⟨kind, typeName⟩
  · cases scalar <;> exact Value.noConfusion
  · cases kind <;> exact Value.noConfusion

include wellFormed inside in
/-- After a choice no field holds an object that is not new and that no field held before. -/
theorem stored_choose_ne (owns : Owns plan self machine) {field : FieldPlan}
    (field_inside : field ∈ plan.fields) {old new : Nat} {address : Address}
    (known : address ≠ machine.fresh) (free : stored self machine field ≠ .object address) :
    stored self (choose self machine library oneof old new) field ≠ .object address := by
  by_cases different : old = new
  · rw [choose, if_pos different]
    exact free
  · by_cases enters : memberAt oneof new = some field
    · rw [stored_choose_new enters different]
      split
      · exact fun same => known (Value.object.inj same).symm
      · exact absent_ne_object field address
    · by_cases leaves : memberAt oneof old = some field
      · rw [stored_choose_old wellFormed inside owns leaves different]
        exact absent_ne_object field address
      · rw [(keeps_choose wellFormed inside owns field_inside fun _ => ⟨leaves, enters⟩).same]
        exact free

include wellFormed inside in
theorem case_choose {old new : Nat}
    (selected : machine.fields self oneof.names.backing = caseAt oneof old) :
    (choose self machine library oneof old new).fields self oneof.names.backing =
      caseAt oneof new := by
  unfold choose
  split
  · next same => rw [selected, same]
  · rw [case_enter wellFormed inside inside, putCase, Machine.fields_store_same]

include wellFormed inside in
theorem case_choose_other {other : OneofPlan} (other_inside : other ∈ plan.oneofs)
    (different : other ≠ oneof) (old new : Nat) :
    (choose self machine library oneof old new).fields self other.names.backing =
      machine.fields self other.names.backing := by
  unfold choose
  split
  · rfl
  · rw [case_enter wellFormed inside other_inside, putCase, Machine.fields_store_name _ _ _ _
      (oneof_backing_ne wellFormed other_inside inside different),
      case_leave wellFormed inside other_inside]

include wellFormed inside in
/-- **A oneof selects what it chooses.** -/
theorem Selects.choose (owns : Owns plan self machine) {old new : Nat}
    (selects : Selects self machine oneof old) (bound : new ≤ oneof.members.length) :
    Selects self (choose self machine library oneof old new) oneof new := by
  by_cases same : old = new
  · rw [Execution.choose, if_pos same, ← same]
    exact selects
  refine ⟨bound, case_choose wellFormed inside selects.backing, ?_, ?_⟩
  · intro field found message
    rw [stored_choose_new found same, message, if_pos rfl]
    exact Value.noConfusion
  · intro position field found different
    by_cases old_member : position = old
    · subst old_member
      exact stored_choose_old wellFormed inside owns found different
    · have field_inside := memberAt_mem wellFormed inside found
      have keeps : Keeps self machine
          (Execution.choose self machine library oneof old new) field := by
        refine keeps_choose wellFormed inside owns field_inside fun _ => ⟨?_, ?_⟩
        · exact fun again =>
            old_member (memberAt_unique wellFormed inside inside found again).2
        · exact fun again =>
            different (memberAt_unique wellFormed inside inside found again).2
      rw [keeps.same]
      exact selects.unselected position field found old_member

/-- A oneof selects what it selected, if its case and its members stay what they are. -/
theorem Selects.congr {position : Nat} (selects : Selects self machine oneof position)
    (backing : final.fields self oneof.names.backing = machine.fields self oneof.names.backing)
    (keeps : ∀ index field, memberAt oneof index = some field → Keeps self machine final field) :
    Selects self final oneof position := by
  refine ⟨selects.bound, backing.trans selects.backing, ?_, ?_⟩
  · intro field found message
    rw [(keeps position field found).same]
    exact selects.selected field found message
  · intro index field found different
    rw [(keeps index field found).same]
    exact selects.unselected index field found different

end

end ProtoPascal.Execution
