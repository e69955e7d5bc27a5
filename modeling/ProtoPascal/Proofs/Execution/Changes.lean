import ProtoPascal.Proofs.Execution.Consistency

/-!
Changes of an instance. A write to a property changes one field, or one oneof with its members, and
leaves all else as it was. Both kinds of changes keep the state of the instance consistent.

* `touches_assignOutside`: a value for a field outside oneofs changes this field;
* `moves_markMember`: a value for the presence of a member of a oneof changes this oneof;
* `moves_assignMember`: a value for a member of a oneof makes the oneof select the member.
-/

namespace ProtoPascal.Execution

open Message

variable {Content Payload : Type} {plan : ClassPlan} {self : Address}
  {machine middle final : Machine Content Payload} {library : Library Content Payload}
  (wellFormed : plan.WellFormed) {field : FieldPlan}

/-- Every collection of an instance is there. -/
def Filled (plan : ClassPlan) (self : Address) (machine : Machine Content Payload) : Prop :=
  ∀ field ∈ plan.fields, field.field.repeated = true → stored self machine field ≠ .nil

/-! ### Changes of one field -/

/-- One field of an instance changes, while all other fields and the cases of all oneofs stay what
they are. -/
structure Touches (plan : ClassPlan) (owner : Address) (field : FieldPlan)
    (machine final : Machine Content Payload) : Prop where
  owns : Owns plan owner final
  keeps : ∀ other ∈ plan.fields, other ≠ field → Keeps owner machine final other
  cases : ∀ oneof ∈ plan.oneofs, final.fields owner oneof.names.backing =
    machine.fields owner oneof.names.backing
  unparsed : final.unparsed = machine.unparsed

theorem Touches.refl (owns : Owns plan self machine) : Touches plan self field machine machine :=
  ⟨owns, fun _ _ _ => .refl _, fun _ _ => rfl, rfl⟩

theorem Touches.trans (first : Touches plan self field machine middle)
    (second : Touches plan self field middle final) : Touches plan self field machine final where
  owns := second.owns
  keeps other inside different :=
    (first.keeps other inside different).trans (second.keeps other inside different)
  cases oneof inside := (second.cases oneof inside).trans (first.cases oneof inside)
  unparsed := second.unparsed.trans first.unparsed

/-- A field outside oneofs is no member of a oneof. -/
theorem memberAt_ne_of_outside (wellFormed : plan.WellFormed) (outside : field.membership = none)
    {oneof : OneofPlan} (inside : oneof ∈ plan.oneofs) {position : Nat} {member : FieldPlan}
    (found : memberAt oneof position = some member) : member ≠ field := by
  rintro rfl
  have membership := (memberAt_presence wellFormed inside found).2.1
  rw [outside] at membership
  cases membership

include wellFormed in
theorem Touches.selects (touches : Touches plan self field machine final)
    (outside : field.membership = none) {oneof : OneofPlan} (inside : oneof ∈ plan.oneofs)
    {position : Nat} (selects : Selects self machine oneof position) :
    Selects self final oneof position := by
  refine selects.congr (touches.cases oneof inside) fun index member found => ?_
  exact touches.keeps member (memberAt_mem wellFormed inside found)
    (memberAt_ne_of_outside wellFormed outside inside found)

include wellFormed in
/-- **A change of a field outside oneofs keeps the state consistent.** -/
theorem Touches.consistent (touches : Touches plan self field machine final)
    (outside : field.membership = none) (consistent : Consistent plan self machine) :
    Consistent plan self final := by
  refine ⟨touches.owns, fun oneof inside => ?_⟩
  obtain ⟨position, selects⟩ := consistent.selects oneof inside
  exact ⟨position, touches.selects wellFormed outside inside selects⟩

/-- Collections stay there when a field changes that is no collection, or one that is there
afterwards. -/
theorem Touches.filled (touches : Touches plan self field machine final)
    (filled : Filled plan self machine)
    (there : field.field.repeated = true → stored self final field ≠ .nil) :
    Filled plan self final := by
  intro other inside repeated
  by_cases same : other = field
  · subst same
    exact there repeated
  · rw [(touches.keeps other inside same).same]
    exact filled other inside repeated

@[simp]
theorem unparsed_freeValue (value : Value) :
    (freeValue machine value).unparsed = machine.unparsed := by
  cases value <;> rfl

section

variable (inside : field ∈ plan.fields)

include wellFormed inside in
theorem touches_put (owns : Owns plan self machine) (plain : holdsObjects field = false)
    {value : Value} (fits : Fits machine field value) :
    Touches plan self field machine (put self machine field value) where
  owns := owns.put wellFormed inside plain fits
  keeps _ other_inside different := keeps_put wellFormed inside other_inside different value
  cases _ oneof_inside := case_put wellFormed oneof_inside inside value
  unparsed := rfl

include wellFormed inside in
/-- An object that is alive and that no field holds changes one field. -/
theorem touches_replace (owns : Owns plan self machine) (objects : holdsObjects field = true)
    {value : Value} (alive : IsAlive machine value)
    (free : ∀ other ∈ plan.fields, ∀ address, value = .object address →
      stored self machine other ≠ .object address) :
    Touches plan self field machine (replace self machine field value) where
  owns := owns.replace wellFormed inside objects alive free
  keeps _ other_inside different :=
    keeps_replace wellFormed inside other_inside different owns value
  cases _ oneof_inside := by
    rw [replace, case_put wellFormed oneof_inside inside, fields_freeValue]
  unparsed := unparsed_freeValue _

include wellFormed inside in
theorem touches_putNew (owns : Owns plan self machine) (objects : holdsObjects field = true)
    (content : Content) : Touches plan self field machine (putNew self machine field content) where
  owns := owns.putNew wellFormed inside objects content
  keeps _ other_inside different :=
    keeps_putNew wellFormed inside other_inside different owns content
  cases _ oneof_inside := case_put wellFormed oneof_inside inside _
  unparsed := rfl

theorem unparsed_release : (release self machine field).unparsed = machine.unparsed := by
  unfold release
  split
  · exact unparsed_freeValue _
  · rfl

include wellFormed inside in
theorem touches_release (owns : Owns plan self machine) (single : field.field.repeated = false) :
    Touches plan self field machine (release self machine field) where
  owns := owns.release wellFormed inside single
  keeps _ other_inside different := keeps_release wellFormed inside other_inside different owns
  cases _ oneof_inside := case_release wellFormed oneof_inside inside
  unparsed := unparsed_release

include inside in
/-- A new content of the object that a field holds changes one field. -/
theorem touches_setObject (owns : Owns plan self machine) {address : Address}
    (holds : stored self machine field = .object address) (content : Content) :
    Touches plan self field machine (machine.setObject address (some content)) := by
  have alive := owns.object_alive inside holds
  have keeps : ∀ other ∈ plan.fields, other ≠ field →
      Keeps self machine (machine.setObject address (some content)) other := by
    intro other other_inside different
    refine ⟨rfl, fun address' object => Machine.objects_setObject_other _ _ _ ?_⟩
    rintro rfl
    exact different (owns.apart other other_inside field inside address' object holds)
  refine ⟨owns.update ?_ keeps ?_ ?_, keeps, fun _ _ => rfl, rfl⟩
  · intro address' isSome
    by_cases same : address' = address
    · subst same
      exact owns.below address' alive
    · rw [Machine.objects_setObject_other _ _ _ same] at isSome
      exact owns.below address' isSome
  · show Fits _ field (stored self machine field)
    have fits := owns.fits field inside
    rw [holds] at fits ⊢
    unfold Fits at fits ⊢
    split
    · exact .inr ⟨address, rfl, by rw [Machine.objects_setObject_same]; rfl⟩
    · next plain =>
      rw [if_neg plain] at fits
      exact fits
  · intro other other_inside different address' object other_holds
    exact different (owns.apart other other_inside field inside address' other_holds object)

/-- An object that the property of a field accepts and that the field does not hold is held by no
field. -/
theorem Accepts.free {value : Value} (accepts : Accepts plan self machine field value)
    (objects : holdsObjects field = true) (changed : value ≠ stored self machine field) :
    ∀ other ∈ plan.fields, ∀ address, value = .object address →
      stored self machine other ≠ .object address := by
  rw [Accepts, objects, if_pos rfl] at accepts
  intro other other_inside address object holds
  have same := accepts.2 other other_inside address object holds
  subst same
  exact changed (object.trans holds.symm)

/-- An object that the property of a field accepts is alive. -/
theorem Accepts.alive {value : Value} (accepts : Accepts plan self machine field value)
    (objects : holdsObjects field = true) : IsAlive machine value := by
  rw [Accepts, objects, if_pos rfl] at accepts
  exact accepts.1

include wellFormed inside in
/-- **A value for a field outside oneofs changes this field.** -/
theorem touches_assignOutside (owns : Owns plan self machine) {value : Value}
    (accepts : Accepts plan self machine field value) :
    Touches plan self field machine (assignOutside self machine field value) := by
  unfold assignOutside
  cases objects : holdsObjects field with
  | false =>
    rw [if_neg Bool.false_ne_true]
    exact touches_put wellFormed inside owns objects accepts.fits
  | true =>
    rw [if_pos rfl]
    split
    · exact .refl owns
    · next changed =>
      exact touches_replace wellFormed inside owns objects (accepts.alive objects)
        (accepts.free objects changed)

end

/-! ### Changes of one oneof -/

/-- A oneof of an instance comes to select the value at a position, while the fields outside it and
the cases of the other oneofs stay what they are. -/
structure Moves (plan : ClassPlan) (owner : Address) (oneof : OneofPlan) (position : Nat)
    (machine final : Machine Content Payload) : Prop where
  owns : Owns plan owner final
  selects : Selects owner final oneof position
  keeps : ∀ field ∈ plan.fields, (∀ index, memberAt oneof index ≠ some field) →
    Keeps owner machine final field
  cases : ∀ other ∈ plan.oneofs, other ≠ oneof → final.fields owner other.names.backing =
    machine.fields owner other.names.backing
  unparsed : final.unparsed = machine.unparsed

section

variable {oneof : OneofPlan} {current position : Nat}

theorem Moves.refl (owns : Owns plan self machine) (selects : Selects self machine oneof position) :
    Moves plan self oneof position machine machine :=
  ⟨owns, selects, fun _ _ _ => .refl _, fun _ _ _ => rfl, rfl⟩

/-- The position of a member is one of the case type. -/
theorem memberAt_bound (found : memberAt oneof position = some field) :
    position ≤ oneof.members.length := by
  cases position with
  | zero => exact Nat.zero_le _
  | succ position => exact (List.getElem?_eq_some_iff.mp found).1

variable (inside : oneof ∈ plan.oneofs)

include wellFormed inside in
/-- A change of one oneof leaves every other one as it was. -/
theorem Moves.selects_other (moves : Moves plan self oneof position machine final)
    {other : OneofPlan} (other_inside : other ∈ plan.oneofs) (different : other ≠ oneof)
    {index : Nat} (selects : Selects self machine other index) :
    Selects self final other index := by
  refine selects.congr (moves.cases other other_inside different) fun index' member found => ?_
  refine moves.keeps member (memberAt_mem wellFormed other_inside found) fun index again => ?_
  exact different (memberAt_unique wellFormed other_inside inside found again).1

include wellFormed inside in
/-- **A change of one oneof keeps the state consistent.** -/
theorem Moves.consistent (moves : Moves plan self oneof position machine final)
    (consistent : Consistent plan self machine) : Consistent plan self final := by
  refine ⟨moves.owns, fun other other_inside => ?_⟩
  by_cases same : other = oneof
  · subst same
    exact ⟨position, moves.selects⟩
  · obtain ⟨index, selects⟩ := consistent.selects other other_inside
    exact ⟨index, moves.selects_other wellFormed inside other_inside same selects⟩

include wellFormed inside in
theorem Moves.filled (moves : Moves plan self oneof position machine final)
    (filled : Filled plan self machine) : Filled plan self final := by
  intro field field_inside repeated
  rw [(moves.keeps field field_inside ?_).same]
  · exact filled field field_inside repeated
  · intro index found
    rw [(memberAt_presence wellFormed inside found).1] at repeated
    cases repeated

include wellFormed inside in
/-- After a change of a oneof, a change of the selected member that leaves a message there. -/
theorem Moves.touch (moves : Moves plan self oneof position machine middle)
    (found : memberAt oneof position = some field)
    (touches : Touches plan self field middle final)
    (there : field.field.type.isMessage = true → stored self final field ≠ .nil) :
    Moves plan self oneof position machine final where
  owns := touches.owns
  selects := by
    refine ⟨moves.selects.bound, (touches.cases oneof inside).trans moves.selects.backing, ?_, ?_⟩
    · intro member member_found message
      rw [found, Option.some.injEq] at member_found
      subst member_found
      exact there message
    · intro index other other_found different
      rw [(touches.keeps other (memberAt_mem wellFormed inside other_found) ?_).same]
      · exact moves.selects.unselected index other other_found different
      · rintro rfl
        exact different (memberAt_unique wellFormed inside inside other_found found).2
  keeps other other_inside outside := by
    refine (moves.keeps other other_inside outside).trans (touches.keeps other other_inside ?_)
    rintro rfl
    exact outside position found
  cases other other_inside different :=
    (touches.cases other other_inside).trans (moves.cases other other_inside different)
  unparsed := touches.unparsed.trans moves.unparsed

theorem unparsed_choose (old new : Nat) :
    (choose self machine library oneof old new).unparsed = machine.unparsed := by
  have left : (leave self machine oneof old).unparsed = machine.unparsed := by
    unfold leave
    cases memberAt oneof old with
    | none => rfl
    | some field => exact unparsed_release
  have entered (between : Machine Content Payload) :
      (enter self between library oneof new).unparsed = between.unparsed := by
    unfold enter
    cases memberAt oneof new with
    | none => rfl
    | some field =>
      rw [Option.elim_some, renew]
      split <;> rfl
  unfold choose
  split
  · rfl
  · rw [entered]
    exact left

include wellFormed inside in
/-- **A choice changes one oneof.** -/
theorem moves_choose (owns : Owns plan self machine) {old new : Nat}
    (selects : Selects self machine oneof old) (bound : new ≤ oneof.members.length) :
    Moves plan self oneof new machine (choose self machine library oneof old new) where
  owns := owns.choose wellFormed inside old new
  selects := selects.choose wellFormed inside owns bound
  keeps _ field_inside outside :=
    keeps_choose wellFormed inside owns field_inside fun _ => ⟨outside old, outside new⟩
  cases _ other_inside different :=
    case_choose_other wellFormed inside other_inside different old new
  unparsed := unparsed_choose old new

/-- The case after the presence property of a member is written. -/
def markedCase (current position : Nat) (value : Bool) : Nat :=
  if value then position else if current = position then 0 else current

/-- The case after the property of a member is given a value. -/
def assignedCase (field : FieldPlan) (current position : Nat) (value : Value) : Nat :=
  if field.field.type.isMessage = true ∧ value = .nil then markedCase current position false
  else position

variable (found : memberAt oneof position = some field)

include wellFormed inside found in
/-- **A value for the presence of a member changes one oneof.** -/
theorem moves_markMember (owns : Owns plan self machine)
    (selects : Selects self machine oneof current) (value : Bool) :
    Moves plan self oneof (markedCase current position value) machine
      (markMember self machine library oneof current position value) := by
  unfold markMember markedCase
  cases value with
  | true =>
    rw [if_pos rfl, if_pos rfl]
    exact moves_choose wellFormed inside owns selects (memberAt_bound found)
  | false =>
    rw [if_neg Bool.false_ne_true, if_neg Bool.false_ne_true]
    split
    · exact moves_choose wellFormed inside owns selects (Nat.zero_le _)
    · exact .refl owns selects

/-- A message member that stores something is the selected one. -/
theorem Selects.position_eq (selects : Selects self machine oneof current)
    (found : memberAt oneof position = some field) (message : field.field.type.isMessage = true)
    (there : stored self machine field ≠ .nil) : current = position := by
  by_contra different
  rw [selects.unselected position field found (Ne.symm different)] at there
  exact there (absent_of_isMessage message)

section

variable (message : field.field.type.isMessage = true) {value : Value}
include message

theorem assignMember_nil : assignMember self machine library oneof current position field .nil =
    markMember self machine library oneof current position false := by
  rw [assignMember, message, if_pos rfl, if_pos rfl]

theorem assignMember_same (there : value ≠ .nil) (same : value = stored self machine field) :
    assignMember self machine library oneof current position field value = machine := by
  rw [assignMember, message, if_pos rfl, if_neg there, if_pos same]

theorem assignMember_changed (there : value ≠ .nil) (changed : value ≠ stored self machine field) :
    assignMember self machine library oneof current position field value =
      replace self (markMember self machine library oneof current position true) field value := by
  rw [assignMember, message, if_pos rfl, if_neg there, if_neg changed]

end

theorem assignMember_plain (plain : field.field.type.isMessage = false) (value : Value) :
    assignMember self machine library oneof current position field value =
      put self (markMember self machine library oneof current position true) field
        (toStored value) := by
  rw [assignMember, plain, if_neg Bool.false_ne_true]

theorem Fits.plain {value : Value} (plain : holdsObjects field = false)
    (fits : Fits machine field value) : Fits final field value := by
  rw [Fits, plain, if_neg Bool.false_ne_true] at fits ⊢
  exact fits

include wellFormed inside in
/-- An object that the property of a member accepts stays what it is while the oneof chooses the
member, and no field holds it afterwards. -/
theorem replaceable_markMember (owns : Owns plan self machine)
    (objects : holdsObjects field = true) {value : Value}
    (accepts : Accepts plan self machine field value)
    (changed : value ≠ stored self machine field) :
    ∀ address, value = .object address →
      (markMember self machine library oneof current position true).objects address =
          machine.objects address ∧
        ∀ other ∈ plan.fields,
          stored self (markMember self machine library oneof current position true) other ≠
            .object address := by
  have free := accepts.free objects changed
  have alive := accepts.alive objects
  rintro address rfl
  have known : address ≠ machine.fresh := by
    rcases alive with impossible | ⟨_, same, alive⟩
    · cases impossible
    · rw [Value.object.injEq] at same
      subst same
      exact Nat.ne_of_lt (owns.below _ alive)
  rw [markMember, if_pos rfl]
  refine ⟨objects_choose known fun _ member member_found => ?_, fun other other_inside => ?_⟩
  · exact free member (memberAt_mem wellFormed inside member_found) address rfl
  · exact stored_choose_ne wellFormed inside owns other_inside known
      (free other other_inside address rfl)

include wellFormed inside found in
/-- **A value for a member of a oneof changes one oneof**, which selects the member unless the value
is an absent message. -/
theorem moves_assignMember (owns : Owns plan self machine)
    (selects : Selects self machine oneof current) {value : Value}
    (accepts : Accepts plan self machine field value) :
    Moves plan self oneof (assignedCase field current position value) machine
      (assignMember self machine library oneof current position field value) := by
  have field_inside := memberAt_mem wellFormed inside found
  obtain ⟨single, -, -⟩ := memberAt_presence wellFormed inside found
  have chosen : Moves plan self oneof position machine
      (markMember self machine library oneof current position true) :=
    moves_markMember wellFormed inside found owns selects true
  unfold assignedCase
  cases message : field.field.type.isMessage with
  | false =>
    have plain : holdsObjects field = false := by rw [holdsObjects, single, message]; rfl
    rw [assignMember_plain message, if_neg (by simp)]
    exact chosen.touch wellFormed inside found
      (touches_put wellFormed field_inside chosen.owns plain (accepts.fits.plain plain))
      (by simp [message])
  | true =>
    have objects : holdsObjects field = true := by rw [holdsObjects, message, Bool.or_true]
    by_cases nil : value = .nil
    · subst nil
      rw [assignMember_nil message, if_pos ⟨rfl, rfl⟩]
      exact moves_markMember wellFormed inside found owns selects false
    · rw [if_neg (fun both => nil both.2)]
      by_cases same : value = stored self machine field
      · rw [assignMember_same message nil same]
        have selected := selects.position_eq found message (same ▸ nil)
        exact .refl owns (selected ▸ selects)
      · have kept (address : Address) (object : value = .object address) :
            (markMember self machine library oneof current position true).objects address =
              machine.objects address ∧ _ :=
          replaceable_markMember wellFormed inside owns objects accepts same address object
        have alive : IsAlive (markMember self machine library oneof current position true)
            value := by
          rcases accepts.alive objects with nil | ⟨address, object, alive⟩
          · exact .inl nil
          · exact .inr ⟨address, object, by rw [(kept address object).1]; exact alive⟩
        rw [assignMember_changed message nil same]
        refine chosen.touch wellFormed inside found (touches_replace wellFormed field_inside
          chosen.owns objects alive fun other other_inside address object =>
            (kept address object).2 other other_inside) fun _ => ?_
        rw [replace, stored_put_same]
        exact nil

end

end ProtoPascal.Execution
