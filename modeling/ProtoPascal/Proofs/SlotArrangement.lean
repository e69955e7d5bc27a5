import ProtoPascal.Proofs.Failures

/-!
The arrangement of the slots of a class. Fields keep their order, a oneof stands just before the first
of its members, and the oneofs without members follow at the end.

The slots can be found with a table that has one entry for each oneof of the message and is looked up
at the positions that fields refer to. Such a lookup is inside the table exactly if the position is that
of a oneof. Messages need not be validated before classes are generated from them; a field that refers
to no oneof of its message stops the generation of the class when the field is planned, which is before
any slot is asked for.

* `placeAll_eq_some`: the table follows the oneofs that have their slots;
* `slotsByTable_eq_some`: the table serves exactly if all oneofs are declared;
* `declarationSlots_arranged`: how the slots are arranged;
* `generateArranged_error`: a message with an undeclared oneof does not get as far as its slots;
* `slots_arranged_when_reached`: all of this for one message.
-/

namespace ProtoPascal.Message

open Naming
open Schema (Field MessageType)

/-- The position of the field in a slot. -/
def Slot.field? : Slot → Option Nat
  | .field position => some position
  | .oneof _ => none

/-- The position of the oneof in a slot. -/
def Slot.oneof? : Slot → Option Nat
  | .field _ => none
  | .oneof position => some position

/-- The position of the first member of a oneof, if it has members. -/
def firstMember? (fields : List Field) (oneof : Nat) : Option Nat :=
  fields.findIdx? fun field => field.oneofIndex == some oneof

theorem firstMember?_eq_none {fields : List Field} {oneof : Nat} :
    firstMember? fields oneof = none ↔ ∀ field ∈ fields, field.oneofIndex ≠ some oneof := by
  simp [firstMember?, List.findIdx?_eq_none_iff]

/-! ### Slots by a table -/

/-- The slots so far, and for each oneof of the message whether it has its slot. -/
structure Placement where
  slots : List Slot
  placed : List Bool

/-- Place the next field, and its oneof before it unless that has its slot. There is no result where the
table has no entry for the oneof. -/
def Placement.place (state : Placement) (entry : Field × Nat) : Option Placement :=
  match entry.1.oneofIndex with
  | none => some { state with slots := state.slots ++ [.field entry.2] }
  | some oneof => do
    let placed ← state.placed[oneof]?
    if placed then
      return { state with slots := state.slots ++ [.field entry.2] }
    else
      return { slots := state.slots ++ [.oneof oneof, .field entry.2]
               placed := state.placed.set oneof true }

/-- The slots of the oneofs without a slot in a table. -/
def openSlots (placed : List Bool) : List Slot :=
  (placed.zipIdx.filter fun entry => !entry.1).map fun entry => .oneof entry.2

/-- The slots of a class, found with a table. There is no result if a lookup is outside the table. -/
def slotsByTable (fields : List Field) (oneofCount : Nat) : Option (List Slot) := do
  let final ← fields.zipIdx.foldlM Placement.place ⟨[], List.replicate oneofCount false⟩
  return final.slots ++ openSlots final.placed

/-- The table in which the oneofs of a list have their slots. -/
def tableOf (oneofCount : Nat) (placed : List Nat) : List Bool :=
  (List.range oneofCount).map fun oneof => placed.contains oneof

theorem tableOf_nil (oneofCount : Nat) : tableOf oneofCount [] = List.replicate oneofCount false := by
  simp [tableOf, List.map_const']

theorem tableOf_getElem? (oneofCount : Nat) (placed : List Nat) (oneof : Nat) :
    (tableOf oneofCount placed)[oneof]? =
      if oneof < oneofCount then some (placed.contains oneof) else none := by
  by_cases below : oneof < oneofCount <;> simp [tableOf, below]

theorem set_tableOf (oneofCount : Nat) (placed : List Nat) (oneof : Nat) :
    (tableOf oneofCount placed).set oneof true = tableOf oneofCount (oneof :: placed) := by
  refine List.ext_getElem? fun position => ?_
  rw [List.getElem?_set, tableOf_getElem?, tableOf_getElem?, tableOf, List.length_map,
    List.length_range]
  by_cases same : oneof = position
  · simp [same]
  · simp [same, Ne.symm same]

/-- The oneofs with a slot after a field is placed. -/
def placedAfter (placed : List Nat) (fields : List Field) : List Nat :=
  (metOneofs placed fields).reverse ++ placed

theorem slotsFrom_cons (placed : List Nat) (position : Nat) (field : Field) (rest : List Field) :
    slotsFrom placed position (field :: rest) = slotsFrom placed position [field] ++
      slotsFrom (placedAfter placed [field]) (position + 1) rest := by
  cases inside : field.oneofIndex with
  | none => simp [slotsFrom, placedAfter, metOneofs, inside]
  | some oneof =>
    by_cases known : oneof ∈ placed <;>
      simp [slotsFrom, placedAfter, metOneofs, inside, known]

theorem placedAfter_cons (placed : List Nat) (field : Field) (rest : List Field) :
    placedAfter placed (field :: rest) = placedAfter (placedAfter placed [field]) rest := by
  cases inside : field.oneofIndex with
  | none => simp [placedAfter, metOneofs, inside]
  | some oneof =>
    by_cases known : oneof ∈ placed <;> simp [placedAfter, metOneofs, inside, known]

/-- **One field.** It is placed exactly if its oneof is one of the message. -/
theorem place_eq_some {oneofCount : Nat} {slots : List Slot} {placed : List Nat} {field : Field}
    {position : Nat} {next : Placement} :
    Placement.place ⟨slots, tableOf oneofCount placed⟩ (field, position) = some next ↔
      (∀ oneof, field.oneofIndex = some oneof → oneof < oneofCount) ∧
        next = ⟨slots ++ slotsFrom placed position [field],
          tableOf oneofCount (placedAfter placed [field])⟩ := by
  cases inside : field.oneofIndex with
  | none =>
    simp [Placement.place, slotsFrom, placedAfter, metOneofs, inside, eq_comm]
  | some oneof =>
    by_cases below : oneof < oneofCount
    · by_cases known : oneof ∈ placed <;>
        simp [Placement.place, slotsFrom, placedAfter, metOneofs, inside, tableOf_getElem?, below,
          known, set_tableOf, eq_comm]
    · simp [Placement.place, inside, tableOf_getElem?, below]

/-- **All fields.** The table follows the oneofs that have their slots. -/
theorem placeAll_eq_some {oneofCount : Nat} {slots : List Slot} {placed : List Nat}
    {fields : List Field} {position : Nat} {final : Placement} :
    (fields.zipIdx position).foldlM Placement.place ⟨slots, tableOf oneofCount placed⟩ = some final ↔
      (∀ field ∈ fields, ∀ oneof, field.oneofIndex = some oneof → oneof < oneofCount) ∧
        final = ⟨slots ++ slotsFrom placed position fields,
          tableOf oneofCount (placedAfter placed fields)⟩ := by
  induction fields generalizing slots placed position with
  | nil => simp [slotsFrom, placedAfter, metOneofs, eq_comm]
  | cons field rest ih =>
    rw [List.zipIdx_cons, List.foldlM_cons, Option.bind_eq_bind, Option.bind_eq_some_iff,
      List.forall_mem_cons, slotsFrom_cons,
      placedAfter_cons placed field rest, ← List.append_assoc]
    simp only [place_eq_some]
    constructor
    · rintro ⟨_, ⟨first, rfl⟩, others⟩
      obtain ⟨declared, rfl⟩ := ih.mp others
      exact ⟨⟨first, declared⟩, rfl⟩
    · rintro ⟨⟨first, declared⟩, rfl⟩
      exact ⟨_, ⟨first, rfl⟩, ih.mpr ⟨declared, rfl⟩⟩

/-- The oneofs without a slot in the table are those that have none among the placed ones. -/
theorem openSlots_tableOf (oneofCount : Nat) (placed : List Nat) :
    openSlots (tableOf oneofCount placed) =
      ((List.range oneofCount).filter fun oneof => !placed.contains oneof).map .oneof := by
  have numbered : (tableOf oneofCount placed).zipIdx =
      (List.range oneofCount).map fun oneof => (placed.contains oneof, oneof) := by
    refine List.ext_getElem? fun position => ?_
    rw [List.getElem?_zipIdx, tableOf_getElem?, List.getElem?_map]
    by_cases below : position < oneofCount <;> simp [below]
  rw [openSlots, numbered, List.filter_map, List.map_map]
  rfl

/-- **The table serves exactly if all oneofs are declared**, and then it gives the slots of the class. -/
theorem slotsByTable_eq_some {fields : List Field} {oneofCount : Nat} {slots : List Slot} :
    slotsByTable fields oneofCount = some slots ↔
      (∀ field ∈ fields, ∀ oneof, field.oneofIndex = some oneof → oneof < oneofCount) ∧
        slots = declarationSlots fields oneofCount := by
  have memberless : (fun oneof => !(placedAfter [] fields).contains oneof) =
      fun oneof => !(fields.any fun field => field.oneofIndex == some oneof) := by
    funext oneof
    rw [placedAfter, List.append_nil, List.contains_reverse]
    refine congrArg not (Bool.eq_iff_iff.mpr ?_)
    rw [List.contains_iff_mem, mem_metOneofs]
    simp
  have same : slotsFrom [] 0 fields ++ openSlots (tableOf oneofCount (placedAfter [] fields)) =
      declarationSlots fields oneofCount := by
    rw [openSlots_tableOf, memberless, declarationSlots]
  rw [slotsByTable, ← tableOf_nil, Option.bind_eq_bind, Option.bind_eq_some_iff]
  simp only [placeAll_eq_some, List.nil_append]
  constructor
  · rintro ⟨_, ⟨declared, rfl⟩, found⟩
    exact ⟨declared, (Option.some.inj found).symm.trans same⟩
  · rintro ⟨declared, rfl⟩
    exact ⟨_, ⟨declared, rfl⟩, congrArg some same⟩

/-! ### The arrangement -/

/-- How the slots of the class of a message are arranged. -/
structure SlotsArranged (message : MessageType) (slots : List Slot) : Prop where
  /-- Every field has one slot, and the slots of the fields stand in order. -/
  fields : slots.filterMap Slot.field? = List.range message.fields.length
  /-- Every oneof has one slot. -/
  oneofs : (slots.filterMap Slot.oneof?).Perm (List.range message.oneofs.length)
  /-- A oneof with members stands immediately before the first of them. -/
  first : ∀ oneof first, firstMember? message.fields oneof = some first →
    [.oneof oneof, .field first] <:+: slots
  /-- After a oneof without members there are only others of this kind, at higher positions. -/
  last : slots.Pairwise fun earlier later => ∀ oneof, earlier = .oneof oneof →
    firstMember? message.fields oneof = none →
      ∃ other, later = .oneof other ∧ firstMember? message.fields other = none ∧ oneof < other

/-- The slots of the fields from a position on stand in order. -/
theorem filterMap_slotsFrom (placed : List Nat) (position : Nat) (fields : List Field) :
    (slotsFrom placed position fields).filterMap Slot.field? =
      List.range' position fields.length := by
  rw [List.filterMap_eq_flatMap_toList, flatMap_slotsFrom fun _ => rfl]
  exact List.flatMap_singleton' _

/-- A oneof without a slot gets it immediately before the first of its members. -/
theorem first_slotsFrom {placed : List Nat} {fields : List Field} {oneof first : Nat}
    (position : Nat) (missing : oneof ∉ placed) (found : firstMember? fields oneof = some first) :
    [.oneof oneof, .field (position + first)] <:+: slotsFrom placed position fields := by
  induction fields generalizing placed position first with
  | nil => cases found
  | cons field rest ih =>
    rw [firstMember?, List.findIdx?_cons] at found
    by_cases member : field.oneofIndex = some oneof
    · rw [if_pos (beq_iff_eq.mpr member), Option.some.injEq] at found
      subst found
      simp [slotsFrom, member, missing, List.infix_cons_iff]
    · rw [if_neg (fun same => member (beq_iff_eq.mp same)), Option.map_eq_some_iff] at found
      obtain ⟨later, found, rfl⟩ := found
      rw [slotsFrom_cons, Nat.add_comm later 1, ← Nat.add_assoc]
      refine (ih (position + 1) ?_ found).trans (List.suffix_append _ _).isInfix
      rw [placedAfter, List.mem_append, List.mem_reverse, mem_metOneofs]
      simp [missing, member]

/-- A oneof has a slot among those of the fields only if it has members. -/
theorem oneof_mem_slotsFrom {placed : List Nat} {position : Nat} {fields : List Field} {oneof : Nat}
    (inside : .oneof oneof ∈ slotsFrom placed position fields) :
    firstMember? fields oneof ≠ none := by
  rw [(slotsFrom_perm placed position fields).mem_iff, List.mem_append] at inside
  have met : oneof ∈ metOneofs placed fields := by simpa using inside
  obtain ⟨-, field, field_inside, member⟩ := mem_metOneofs.mp met
  exact fun none => firstMember?_eq_none.mp none field field_inside member

/-- **How the slots are arranged.** -/
theorem declarationSlots_arranged {message : MessageType} (declared : OneofsDeclared message) :
    SlotsArranged message (declarationSlots message.fields message.oneofs.length) where
  fields := by
    rw [declarationSlots, List.filterMap_append, filterMap_slotsFrom, ← List.range_eq_range']
    have none (oneofs : List Nat) : (oneofs.map Slot.oneof).filterMap Slot.field? = [] := by
      simp [List.filterMap_map, Function.comp_def, Slot.field?]
    rw [none, List.append_nil]
  oneofs := by
    have perm := (declarationSlots_perm declared).filterMap Slot.oneof?
    simpa [List.filterMap_append, List.filterMap_map, Function.comp_def, Slot.oneof?] using perm
  first := by
    intro oneof first found
    have inside := first_slotsFrom 0 List.not_mem_nil found
    rw [Nat.zero_add] at inside
    exact inside.trans (List.prefix_append _ _).isInfix
  last := by
    rw [declarationSlots, List.pairwise_append]
    refine ⟨?_, ?_, ?_⟩
    · -- Oneofs without members have no slots among those of the fields.
      refine List.pairwise_of_forall_mem_list fun earlier inside _ _ oneof same none => ?_
      subst same
      exact absurd none (oneof_mem_slotsFrom inside)
    · rw [List.pairwise_map]
      refine (List.pairwise_lt_range.filter _).imp_of_mem ?_
      intro oneof other _ inside less oneof' same _
      cases same
      refine ⟨other, rfl, firstMember?_eq_none.mpr ?_, less⟩
      simpa using (List.mem_filter.mp inside).2
    · intro earlier inside _ _ oneof same none
      subst same
      exact absurd none (oneof_mem_slotsFrom inside)

/-! ### Before the slots -/

/-- The plan of the class of a message, with the slots that a computation gives, which runs when all
fields and oneofs are planned. -/
def ClassPlan.arrangedBy (arrange : Except Error (List Slot)) (context : Context)
    (className fullName : String) (scope : Scope) (message : MessageType) :
    Except Error ClassPlan := do
  let (fieldNames, oneofNames) ← (claimNames message).resultIn scope
  let fields ← (message.fields.zip fieldNames).mapM
    (planField context className fullName oneofNames)
  let oneofs := oneofNames.zipIdx.map fun (names, position) =>
    planOneof className fields names position
  let slots ← arrange
  return { className, fields, oneofs, slots }

/-- The class of a message, with the slots that a computation gives, which may fail. -/
def generateArranged (arrange : Except Error (List Slot)) (context : Context) (place : Place)
    (message : MessageType) : Except Error MessageClass := do
  let identifier ← typeIdentifier message.name
  let enums ← message.nestedEnums.mapM enumDeclaration
  let nested ← (generateMessages context (place.inside message identifier)
    message.nestedMessages).result
  let className := nestedIn place.parentClass identifier
  let plan ← ClassPlan.arrangedBy arrange context className (place.fullName message)
    (memberNamesScope enums nested) message
  let parts : ClassParts := { identifier, className, enums, nested, plan }
  checkUniqueFrom (place.shownName message) [] parts.members
  return parts.assemble (place.shownName message)

/-- The class of a message has the slots of its declarations. -/
theorem generateMessage_arranged (context : Context) (place : Place) (message : MessageType) :
    (generateMessage context place message).result =
      generateArranged (.ok (declarationSlots message.fields message.oneofs.length)) context place
        message := by
  rw [generateMessage_result, classParts]
  simp only [bind_assoc, pure_bind]
  rfl

/-- Fields that are planned refer to oneofs that have names. -/
theorem oneofsDeclared_of_planned {context : Context} {className fullName : String} {scope : Scope}
    {message : MessageType} {names : List FieldNames × List OneofNames} {fields : List FieldPlan}
    (claimed : (claimNames message).resultIn scope = .ok names)
    (planned : (message.fields.zip names.1).mapM (planField context className fullName names.2) =
      .ok fields) : OneofsDeclared message := by
  have made : ClassPlan.make context className fullName scope message = .ok _ :=
    bind_eq_ok.mpr ⟨names, claimed, bind_eq_ok.mpr ⟨fields, planned, rfl⟩⟩
  have covers := make_covers made
  intro field inside position belongs
  rw [← covers.fields_eq] at inside
  obtain ⟨plan, plan_inside, rfl⟩ := List.mem_map.mp inside
  rw [← covers.oneofs_length, ← List.length_map OneofPlan.names]
  exact (covers.planned plan plan_inside).position_lt belongs

/-- A field that refers to no oneof of its message fails before the slots are asked for. -/
theorem arrangedBy_error {message : MessageType} (undeclared : ¬ OneofsDeclared message)
    (context : Context) (className fullName : String) (scope : Scope) :
    ∃ error, ∀ arrange,
      ClassPlan.arrangedBy arrange context className fullName scope message = .error error := by
  unfold ClassPlan.arrangedBy
  cases claimed : (claimNames message).resultIn scope with
  | error error => exact ⟨error, fun _ => rfl⟩
  | ok names =>
    cases planned : (message.fields.zip names.1).mapM
        (planField context className fullName names.2) with
    | error error =>
      refine ⟨error, fun _ => ?_⟩
      simp only [bind, Except.bind, planned]
    | ok fields => exact absurd (oneofsDeclared_of_planned claimed planned) undeclared

/-- **A message with an undeclared oneof does not get as far as its slots**: it fails, with the same
error whatever the slots would be and whether they could be found or not. -/
theorem generateArranged_error {message : MessageType} (undeclared : ¬ OneofsDeclared message)
    (context : Context) (place : Place) :
    ∃ error, ∀ arrange, generateArranged arrange context place message = .error error := by
  unfold generateArranged
  cases typeIdentifier message.name with
  | error error => exact ⟨error, fun _ => rfl⟩
  | ok identifier =>
    cases message.nestedEnums.mapM enumDeclaration with
    | error error => exact ⟨error, fun _ => rfl⟩
    | ok enums =>
      cases nested : (generateMessages context (place.inside message identifier)
          message.nestedMessages).result with
      | error error =>
        refine ⟨error, fun _ => ?_⟩
        simp only [bind, Except.bind, nested]
      | ok classes =>
        obtain ⟨error, failed⟩ := arrangedBy_error undeclared context
          (nestedIn place.parentClass identifier) (place.fullName message)
          (memberNamesScope enums classes)
        refine ⟨error, fun arrange => ?_⟩
        simp only [bind, Except.bind, nested, failed arrange]

/-- **The slots of a class.** Where all fields of a message refer to oneofs of the message, a table of
the oneofs finds the slots of its declarations without a lookup outside the table, and these slots are
arranged: fields once and in order, oneofs once, those with members immediately before the first of
them, the others after all fields and in order. Where some field refers to no oneof of the message, the
class fails before the slots are asked for. So no message makes a class look outside the table. -/
theorem slots_arranged_when_reached (message : MessageType) :
    (OneofsDeclared message →
      SlotsArranged message (declarationSlots message.fields message.oneofs.length) ∧
        slotsByTable message.fields message.oneofs.length =
          some (declarationSlots message.fields message.oneofs.length)) ∧
      ∀ (context : Context) (place : Place),
        (¬ OneofsDeclared message → ∃ error,
          (generateMessage context place message).result = .error error ∧
            ∀ arrange, generateArranged arrange context place message = .error error) ∧
        ∀ crash : Error,
          generateArranged ((slotsByTable message.fields message.oneofs.length).elim (.error crash) .ok)
            context place message = (generateMessage context place message).result := by
  have inTable : OneofsDeclared message → slotsByTable message.fields message.oneofs.length =
      some (declarationSlots message.fields message.oneofs.length) :=
    fun declared => slotsByTable_eq_some.mpr ⟨declared, rfl⟩
  refine ⟨fun declared => ⟨declarationSlots_arranged declared, inTable declared⟩, ?_⟩
  intro context place
  refine ⟨fun undeclared => ?_, fun crash => ?_⟩
  · obtain ⟨error, failed⟩ := generateArranged_error undeclared context place
    exact ⟨error, (generateMessage_arranged context place message).trans (failed _), failed⟩
  · rw [generateMessage_arranged]
    by_cases declared : OneofsDeclared message
    · rw [inTable declared]
      rfl
    · obtain ⟨error, failed⟩ := generateArranged_error declared context place
      rw [failed, failed]

/-- A message with four oneofs: the members of the second one stand apart, those of the first between
them, and the others have none. -/
def braidedMessage : MessageType :=
  { name := "Braid"
    fields :=
      [{ name := "left", number := 1, type := .scalar .int32, oneofIndex := some 1 },
       { name := "middle", number := 2, type := .scalar .string },
       { name := "over", number := 3, type := .scalar .bool, oneofIndex := some 0 },
       { name := "right", number := 4, type := .scalar .int32, oneofIndex := some 1 }]
    oneofs := [{ name := "crossing" }, { name := "side" }, { name := "knot" }, { name := "loose" }] }

/-- A message with a field that refers to a oneof after the only one. -/
def strayMessage : MessageType :=
  { name := "Stray"
    fields := [{ name := "lost", number := 1, type := .scalar .int32, oneofIndex := some 1 }]
    oneofs := [{ name := "home" }] }

/-- The slots of the one message, and the failure of the other one. -/
theorem braided_slots_arranged :
    SlotsArranged braidedMessage
      [.oneof 1, .field 0, .field 1, .oneof 0, .field 2, .field 3, .oneof 2, .oneof 3] ∧
    slotsByTable braidedMessage.fields 4 =
      some [.oneof 1, .field 0, .field 1, .oneof 0, .field 2, .field 3, .oneof 2, .oneof 3] ∧
    slotsByTable strayMessage.fields 1 = none ∧
    ∃ error,
      (generateMessage { index := {}, runtime := .reference, unit := "uStray" } ⟨"", none⟩
        strayMessage).result = .error error ∧
      ∀ arrange, generateArranged arrange { index := {}, runtime := .reference, unit := "uStray" }
        ⟨"", none⟩ strayMessage = .error error := by
  have declared : OneofsDeclared braidedMessage := by
    simp [OneofsDeclared, braidedMessage]
  have undeclared : ¬ OneofsDeclared strayMessage := by
    simp [OneofsDeclared, strayMessage]
  obtain ⟨arranged, inTable⟩ := (slots_arranged_when_reached braidedMessage).1 declared
  exact ⟨arranged, inTable, by decide,
    ((slots_arranged_when_reached strayMessage).2 _ _).1 undeclared⟩

end ProtoPascal.Message
