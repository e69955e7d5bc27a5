import ProtoPascal.Proofs.Execution.Accounting
import ProtoPascal.Proofs.Execution.Encoding

/-!
How an instance reads what another one has written. The fields are read one after the other. A field
that is read holds what the source holds, whatever it held before, and stays so while the others are
read: a member of a oneof that the source has not selected takes nothing away from the one that it
has.

* `Copied`: a field of an instance agrees with that of the source;
* `Takes`: a field takes over what that of a source has;
* `invoke_decode`: after reading, all fields agree with those of the source.
-/

namespace ProtoPascal.Execution

open Message
open Pascal
open Schema (FieldType)

variable {Content Payload : Type} {program : Program Content Payload} {plan : ClassPlan}
  {source self : Address} {origin machine middle final : Machine Content Payload}
  {field other : FieldPlan}

/-! ### What a client sees -/

/-- What a client sees of a value: the content of an object, and the value itself otherwise. -/
inductive Seen (Content : Type) where
  | value (value : Value)
  | content (content : Option Content)

/-- What a client sees of a value on a machine. -/
def seen (machine : Machine Content Payload) : Value → Seen Content
  | .object address => .content (machine.objects address)
  | value => .value value

/-- An object of a field is seen with the content that it is given. -/
theorem seen_setObject {address : Address} (holds : stored self machine field = .object address)
    (content : Content) :
    seen (machine.setObject address (some content))
      (stored self (machine.setObject address (some content)) field) = .content (some content) := by
  show seen _ (stored self machine field) = _
  rw [holds, seen, Machine.objects_setObject_same]

theorem seen_of_ne_object {value : Value} (plain : ∀ address, value ≠ .object address) :
    seen machine value = .value value := by
  cases value with
  | object address => exact absurd rfl (plain address)
  | _ => rfl

theorem eq_of_seen_eq {value other : Value} (plain : ∀ address, other ≠ .object address)
    (same : seen origin value = seen machine other) : value = other := by
  rw [seen_of_ne_object plain] at same
  cases value with
  | object address => cases same
  | _ => exact Seen.value.inj same

theorem Keeps.seen (keeps : Keeps self machine final field) :
    seen final (stored self final field) = seen machine (stored self machine field) := by
  rw [keeps.same]
  cases object : stored self machine field with
  | object address => exact congrArg Seen.content (keeps.objects address object)
  | _ => rfl

/-- A field of an instance agrees with that of a source: a client sees the same value, and if the
field is a member of a oneof, it is selected in both or in none. -/
structure Copied (plan : ClassPlan) (source : Address) (origin : Machine Content Payload)
    (owner : Address) (machine : Machine Content Payload) (field : FieldPlan) : Prop where
  same : seen origin (stored source origin field) = seen machine (stored owner machine field)
  chosen : ∀ oneof ∈ plan.oneofs, ∀ position, memberAt oneof position = some field →
    (machine.fields owner oneof.names.backing = caseAt oneof position ↔
      origin.fields source oneof.names.backing = caseAt oneof position)

theorem Copied.refl : Copied plan self machine self machine field :=
  ⟨rfl, fun _ _ _ _ => Iff.rfl⟩

theorem Copied.trans (first : Copied plan source origin self middle field)
    (second : Copied plan self middle self final field) : Copied plan source origin self final field :=
  ⟨first.same.trans second.same, fun oneof inside position found =>
    (second.chosen oneof inside position found).trans (first.chosen oneof inside position found)⟩

/-- A field that agrees with that of the source is present if that one is. -/
theorem Copied.present_iff (copied : Copied plan source origin self machine field) :
    Present plan self machine field ↔ Present plan source origin field := by
  unfold Present
  cases field.membership with
  | none =>
    refine not_congr ⟨fun gone => ?_, fun gone => ?_⟩
    · have same := copied.same
      rw [gone] at same
      exact eq_of_seen_eq (absent_ne_object field) same
    · have same := copied.same
      rw [gone] at same
      exact eq_of_seen_eq (absent_ne_object field) same.symm
  | some membership =>
    constructor
    · rintro ⟨oneof, inside, position, found, chosen⟩
      exact ⟨oneof, inside, position, found,
        (copied.chosen oneof inside position found).mp chosen⟩
    · rintro ⟨oneof, inside, position, found, chosen⟩
      exact ⟨oneof, inside, position, found,
        (copied.chosen oneof inside position found).mpr chosen⟩

theorem Copied.ofOutside (wellFormed : plan.WellFormed) (outside : field.membership = none)
    (same : seen origin (stored source origin field) = seen machine (stored self machine field)) :
    Copied plan source origin self machine field :=
  ⟨same, fun _ inside _ found =>
    absurd rfl (memberAt_ne_of_outside wellFormed outside inside found)⟩

/-- A field that stays what it is goes on to agree, if the oneofs of which it is a member do. -/
theorem Copied.keep (copied : Copied plan source origin self machine field)
    (keeps : Keeps self machine final field)
    (cases : ∀ oneof ∈ plan.oneofs, ∀ position, memberAt oneof position = some field →
      final.fields self oneof.names.backing = machine.fields self oneof.names.backing) :
    Copied plan source origin self final field := by
  refine ⟨copied.same.trans keeps.seen.symm, fun oneof inside position found => ?_⟩
  rw [cases oneof inside position found]
  exact copied.chosen oneof inside position found

theorem Copied.touch (copied : Copied plan source origin self machine other)
    (touches : Touches plan self field machine final) (inside : other ∈ plan.fields)
    (different : other ≠ field) : Copied plan source origin self final other :=
  copied.keep (touches.keeps other inside different) fun oneof oneof_inside _ _ =>
    touches.cases oneof oneof_inside

/-- A field outside the oneof that changes goes on to agree. -/
theorem Copied.move {oneof : OneofPlan} {position : Nat}
    (copied : Copied plan source origin self machine other)
    (moves : Moves plan self oneof position machine final) (inside : other ∈ plan.fields)
    (outside : ∀ index, memberAt oneof index ≠ some other) :
    Copied plan source origin self final other := by
  refine copied.keep (moves.keeps other inside outside) fun oneof' inside' index found => ?_
  refine moves.cases oneof' inside' ?_
  rintro rfl
  exact outside index found

section

variable (wellFormed : plan.WellFormed)
include wellFormed

/-- A member that neither the source nor the instance selects agrees. -/
theorem Copied.ofUnselected {oneof : OneofPlan} (inside : oneof ∈ plan.oneofs)
    {current position index : Nat} (found : memberAt oneof index = some other)
    (origin_selects : Selects source origin oneof current)
    (selects : Selects self final oneof position) (origin_other : index ≠ current)
    (final_other : index ≠ position) : Copied plan source origin self final other := by
  have gone := origin_selects.unselected index other found origin_other
  have gone' := selects.unselected index other found final_other
  refine ⟨?_, fun oneof' inside' index' found' => ?_⟩
  · rw [gone, gone', seen_of_ne_object (absent_ne_object other),
      seen_of_ne_object (absent_ne_object other)]
  · obtain ⟨rfl, rfl⟩ := memberAt_unique wellFormed inside' inside found' found
    rw [origin_selects.backing, selects.backing, caseAt_inj, caseAt_inj]
    exact ⟨fun same => absurd same.symm final_other, fun same => absurd same.symm origin_other⟩

/-- The oneof of a member that is present selects it. -/
theorem Present.selects {oneof : OneofPlan} (inside : oneof ∈ plan.oneofs) {position : Nat}
    (found : memberAt oneof position = some field) (consistent : Consistent plan source origin)
    (present : Present plan source origin field) : Selects source origin oneof position := by
  obtain ⟨current, selects⟩ := consistent.selects oneof inside
  rw [present_iff_of_member wellFormed inside found selects] at present
  subst present
  exact selects

end

/-! ### Fields that are read -/

/-- A field is given a value, and nothing else changes but the oneof of which it is a member, which
comes to select it. -/
inductive Receives (plan : ClassPlan) (self : Address) (field : FieldPlan)
    (machine final : Machine Content Payload) : Prop where
  | outside (outside : field.membership = none) (touches : Touches plan self field machine final)
  | member {oneof : OneofPlan} {position : Nat} (inside : oneof ∈ plan.oneofs)
      (found : memberAt oneof position = some field)
      (moves : Moves plan self oneof position machine final)

theorem Assigns.receives {value : Value} (assigns : Assigns plan self field value machine final)
    (there : field.field.type.isMessage = true → value ≠ .nil) :
    Receives plan self field machine final ∧ stored self final field = toStored value := by
  cases assigns with
  | outside outside touches stores _ => exact ⟨.outside outside touches, stores⟩
  | member inside found _ moves stores _ =>
    rw [assignedCase, if_neg fun both => there both.1 both.2] at moves
    exact ⟨.member inside found moves, stores there⟩

section

variable (wellFormed : plan.WellFormed) (origin_consistent : Consistent plan source origin)

include wellFormed in
theorem Receives.touch (receives : Receives plan self field machine middle)
    (touches : Touches plan self field middle final)
    (there : field.field.type.isMessage = true → stored self final field ≠ .nil) :
    Receives plan self field machine final := by
  cases receives with
  | outside outside first => exact .outside outside (first.trans touches)
  | member inside found moves =>
    exact .member inside found (moves.touch wellFormed inside found touches there)

theorem Touches.receives (touches : Touches plan self field machine middle)
    (receives : Receives plan self field middle final) : Receives plan self field machine final := by
  cases receives with
  | outside outside second => exact .outside outside (touches.trans second)
  | member inside found moves =>
    refine .member inside found ⟨moves.owns, moves.selects, fun other other_inside outside => ?_,
      fun other other_inside different => ?_, moves.unparsed.trans touches.unparsed⟩
    · refine (touches.keeps other other_inside ?_).trans (moves.keeps other other_inside outside)
      rintro rfl
      exact outside _ found
    · exact (moves.cases other other_inside different).trans (touches.cases other other_inside)

include wellFormed in
theorem Receives.consistent (receives : Receives plan self field machine final)
    (consistent : Consistent plan self machine) : Consistent plan self final := by
  cases receives with
  | outside outside touches => exact touches.consistent wellFormed outside consistent
  | member inside _ moves => exact moves.consistent wellFormed inside consistent

include wellFormed in
theorem Receives.filled (receives : Receives plan self field machine final)
    (filled : Filled plan self machine)
    (there : field.field.repeated = true → stored self final field ≠ .nil) :
    Filled plan self final := by
  cases receives with
  | outside _ touches => exact touches.filled filled there
  | member inside _ moves => exact moves.filled wellFormed inside filled

theorem Receives.unparsed (receives : Receives plan self field machine final) :
    final.unparsed = machine.unparsed := by
  cases receives with
  | outside _ touches => exact touches.unparsed
  | member _ _ moves => exact moves.unparsed

theorem Unmarks.unparsed (unmarks : Unmarks plan self field machine final) :
    final.unparsed = machine.unparsed := by
  cases unmarks with
  | outside _ touches _ => exact touches.unparsed
  | member _ _ _ moves _ => exact moves.unparsed

include wellFormed in
theorem Receives.handles (receives : Receives plan self field machine final)
    (sound : Sound plan self machine)
    (there : field.field.repeated = true → stored self final field ≠ .nil)
    (manages : Manages plan self .nil machine final) : Handles plan self .nil machine final :=
  ⟨manages, receives.consistent wellFormed sound.consistent,
    receives.filled wellFormed sound.filled there⟩

include wellFormed in
theorem Unmarks.handles (unmarks : Unmarks plan self field machine final)
    (sound : Sound plan self machine) (single : field.field.repeated = false)
    (manages : Manages plan self .nil machine final) : Handles plan self .nil machine final :=
  ⟨manages, unmarks.consistent wellFormed sound.consistent,
    unmarks.filled wellFormed single sound.filled⟩

/-- What is known after a field is read: it agrees with that of the source, and so do the fields that
agreed before. -/
structure Reads (plan : ClassPlan) (source : Address) (origin : Machine Content Payload)
    (owner : Address) (field : FieldPlan) (machine final : Machine Content Payload) : Prop where
  consistent : Consistent plan owner final
  filled : Filled plan owner final
  unparsed : final.unparsed = machine.unparsed
  copied : ∀ other ∈ plan.fields, other = field ∨ Copied plan source origin owner machine other →
    Copied plan source origin owner final other

/-- What is known while fields are read: an instance agrees with a source in all fields but the ones that
are still to come. -/
structure AgreesBut (plan : ClassPlan) (source : Address) (origin : Machine Content Payload)
    (owner : Address) (rest : List FieldPlan) (machine : Machine Content Payload) : Prop where
  inside : rest ⊆ plan.fields
  consistent : Consistent plan owner machine
  filled : Filled plan owner machine
  copied : ∀ field ∈ plan.fields, field ∈ rest ∨ Copied plan source origin owner machine field

theorem AgreesBut.next {rest : List FieldPlan}
    (agrees : AgreesBut plan source origin self (field :: rest) machine)
    (reads : Reads plan source origin self field machine final) :
    AgreesBut plan source origin self rest final := by
  refine ⟨List.Subset.trans (List.subset_cons_self ..) agrees.inside, reads.consistent, reads.filled,
    fun other inside => ?_⟩
  rcases agrees.copied other inside with now | before
  · rcases List.mem_cons.mp now with here | later
    · exact .inr (reads.copied other inside (.inl here))
    · exact .inl later
  · exact .inr (reads.copied other inside (.inr before))

include wellFormed origin_consistent

/-- **A field that receives the value of the source agrees with it.** -/
theorem Receives.copied (receives : Receives plan self field machine final)
    (present : Present plan source origin field)
    (same : seen origin (stored source origin field) = seen final (stored self final field)) :
    Copied plan source origin self final field := by
  cases receives with
  | outside outside touches => exact .ofOutside wellFormed outside same
  | member inside found moves =>
    refine ⟨same, fun other other_inside index other_found => ?_⟩
    obtain ⟨rfl, rfl⟩ := memberAt_unique wellFormed other_inside inside other_found found
    have selects := present.selects wellFormed other_inside found origin_consistent
    exact iff_of_true moves.selects.backing selects.backing

/-- Fields that agree go on to agree while another one receives the value of the source. -/
theorem Receives.keeps_copied (receives : Receives plan self field machine final)
    (present : Present plan source origin field) (inside : other ∈ plan.fields)
    (different : other ≠ field) (copied : Copied plan source origin self machine other) :
    Copied plan source origin self final other := by
  cases receives with
  | outside outside touches => exact copied.touch touches inside different
  | @member oneof position oneof_inside found moves =>
    by_cases outside : ∀ index, memberAt oneof index ≠ some other
    · exact copied.move moves inside outside
    · -- The source has selected the field, so it has not selected another member.
      obtain ⟨index, again⟩ := not_forall.mp outside
      have other_found := not_not.mp again
      have elsewhere : index ≠ position := by
        rintro rfl
        rw [found, Option.some.injEq] at other_found
        exact different other_found.symm
      exact .ofUnselected wellFormed oneof_inside other_found
        (present.selects wellFormed oneof_inside found origin_consistent) moves.selects elsewhere
        elsewhere

/-- **A field that is marked as absent agrees with one that the source lacks.** -/
theorem Unmarks.copied (unmarks : Unmarks plan self field machine final)
    (gone : ¬ Present plan source origin field) : Copied plan source origin self final field := by
  cases unmarks with
  | outside outside _ stores =>
    refine .ofOutside wellFormed outside ?_
    rw [present_iff_of_outside outside, not_not] at gone
    rw [gone, stores, seen_of_ne_object (absent_ne_object field),
      seen_of_ne_object (absent_ne_object field)]
  | @member oneof current position inside found selects moves _ =>
    obtain ⟨chosen, origin_selects⟩ := origin_consistent.selects oneof inside
    rw [present_iff_of_member wellFormed inside found origin_selects] at gone
    refine .ofUnselected wellFormed inside found origin_selects moves.selects (Ne.symm gone) ?_
    rw [markedCase, if_neg Bool.false_ne_true]
    split
    · rintro rfl
      cases found
    · next elsewhere => exact Ne.symm elsewhere

/-- Fields that agree go on to agree while another one that the source lacks is marked as absent. -/
theorem Unmarks.keeps_copied (unmarks : Unmarks plan self field machine final)
    (inside : other ∈ plan.fields) (different : other ≠ field)
    (copied : Copied plan source origin self machine other) :
    Copied plan source origin self final other := by
  cases unmarks with
  | outside outside touches _ => exact copied.touch touches inside different
  | @member oneof current position oneof_inside found selects moves idle =>
    by_cases chosen : current = position
    · subst chosen
      by_cases outside : ∀ index, memberAt oneof index ≠ some other
      · exact copied.move moves inside outside
      · -- The instance had selected the field, so neither it nor the source selects another member.
        obtain ⟨index, again⟩ := not_forall.mp outside
        have other_found := not_not.mp again
        have elsewhere : index ≠ current := by
          rintro rfl
          rw [found, Option.some.injEq] at other_found
          exact different other_found.symm
        obtain ⟨origin_chosen, origin_selects⟩ := origin_consistent.selects oneof oneof_inside
        have origin_elsewhere : index ≠ origin_chosen := by
          rintro rfl
          have both := (copied.chosen oneof oneof_inside index other_found).mpr
            origin_selects.backing
          rw [selects.backing, caseAt_inj] at both
          exact elsewhere both.symm
        refine .ofUnselected wellFormed oneof_inside other_found origin_selects moves.selects
          origin_elsewhere ?_
        rw [markedCase, if_neg Bool.false_ne_true, if_pos rfl]
        rintro rfl
        cases other_found
    · rw [idle chosen]
      exact copied

theorem Receives.reads (receives : Receives plan self field machine final)
    (consistent : Consistent plan self machine) (filled : Filled plan self machine)
    (present : Present plan source origin field)
    (same : seen origin (stored source origin field) = seen final (stored self final field))
    (there : field.field.repeated = true → stored self final field ≠ .nil) :
    Reads plan source origin self field machine final := by
  refine ⟨receives.consistent wellFormed consistent, receives.filled wellFormed filled there,
    receives.unparsed, fun other inside before => ?_⟩
  have here := receives.copied wellFormed origin_consistent present same
  by_cases again : other = field
  · rw [again]
    exact here
  · exact receives.keeps_copied wellFormed origin_consistent present inside again
      (before.resolve_left again)

theorem Unmarks.reads (unmarks : Unmarks plan self field machine final)
    (single : field.field.repeated = false) (consistent : Consistent plan self machine)
    (filled : Filled plan self machine) (gone : ¬ Present plan source origin field) :
    Reads plan source origin self field machine final := by
  refine ⟨unmarks.consistent wellFormed consistent, unmarks.filled wellFormed single filled,
    unmarks.unparsed, fun other inside before => ?_⟩
  by_cases again : other = field
  · rw [again]
    exact unmarks.copied wellFormed origin_consistent gone
  · exact unmarks.keeps_copied wellFormed origin_consistent inside again
      (before.resolve_left again)

end

/-! ### Fields that are taken over -/

/-- A field takes over what that of a source has: its value if it is present, and else its
absence. -/
inductive Takes (plan : ClassPlan) (source : Address) (origin : Machine Content Payload)
    (self : Address) (field : FieldPlan) (machine final : Machine Content Payload) : Prop where
  | value (receives : Receives plan self field machine final)
      (present : Present plan source origin field)
      (same : seen origin (stored source origin field) = seen final (stored self final field))
      (there : field.field.repeated = true → stored self final field ≠ .nil)
  | absence (unmarks : Unmarks plan self field machine final)
      (single : field.field.repeated = false) (gone : ¬ Present plan source origin field)

section

variable {source' : Address} {origin' : Machine Content Payload} (wellFormed : plan.WellFormed)
  (takes : Takes plan source origin self field machine final)
include wellFormed takes

theorem Takes.reads (origin_consistent : Consistent plan source origin)
    (consistent : Consistent plan self machine) (filled : Filled plan self machine) :
    Reads plan source origin self field machine final := by
  cases takes with
  | value receives present same there =>
    exact receives.reads wellFormed origin_consistent consistent filled present same there
  | absence unmarks single gone =>
    exact unmarks.reads wellFormed origin_consistent single consistent filled gone

/-- Fields that agree with those of a second source, which has the field that is taken over if the
first one has it, go on to agree with them. -/
theorem Takes.keeps_copied (origin_consistent : Consistent plan source' origin')
    (same : Present plan source' origin' field ↔ Present plan source origin field)
    (inside : other ∈ plan.fields) (different : other ≠ field)
    (copied : Copied plan source' origin' self machine other) :
    Copied plan source' origin' self final other := by
  cases takes with
  | value receives present _ _ =>
    exact receives.keeps_copied wellFormed origin_consistent (same.mpr present) inside different
      copied
  | absence unmarks _ _ =>
    exact unmarks.keeps_copied wellFormed origin_consistent inside different copied

/-- Collections stay what they are while another field is taken over. -/
theorem Takes.keeps_collection (inside : other ∈ plan.fields) (different : other ≠ field)
    (repeated : other.field.repeated = true) : Keeps self machine final other := by
  have noMember {oneof : OneofPlan} (oneof_inside : oneof ∈ plan.oneofs) (index : Nat) :
      memberAt oneof index ≠ some other := by
    intro found
    rw [(memberAt_presence wellFormed oneof_inside found).1] at repeated
    cases repeated
  cases takes with
  | value receives _ _ _ =>
    cases receives with
    | outside _ touches => exact touches.keeps other inside different
    | member oneof_inside _ moves => exact moves.keeps other inside (noMember oneof_inside)
  | absence unmarks _ _ =>
    cases unmarks with
    | outside _ touches _ => exact touches.keeps other inside different
    | member oneof_inside _ _ moves _ => exact moves.keeps other inside (noMember oneof_inside)

end

/-! ### Decoding -/

/-- The collections of an instance have contents of the classes that its fields declare. -/
def TypedCollections (ofClass : String → Content → Prop) (plan : ClassPlan) (owner : Address)
    (machine : Machine Content Payload) : Prop :=
  ∀ field ∈ plan.fields, field.field.repeated = true → ∀ content,
    seen machine (stored owner machine field) = .content (some content) →
      ofClass field.internalType content

/-- The collections and messages of an instance have contents of the classes that its fields
declare. -/
structure Typed (ofClass : String → Content → Prop) (plan : ClassPlan) (owner : Address)
    (machine : Machine Content Payload) : Prop where
  collections : TypedCollections ofClass plan owner machine
  messages : ∀ field ∈ plan.fields, field.field.repeated = false → ∀ content,
    seen machine (stored owner machine field) = .content (some content) →
      ofClass field.support.publicType content

/-- The collections of an instance keep contents of their classes while a field takes over what that of
a source has. -/
theorem Takes.typedCollections {ofClass : String → Content → Prop} (wellFormed : plan.WellFormed)
    (takes : Takes plan source origin self field machine final)
    (origin_typed : TypedCollections ofClass plan source origin)
    (typed : TypedCollections ofClass plan self machine) :
    TypedCollections ofClass plan self final := by
  intro other inside repeated content shows
  by_cases again : other = field
  · subst again
    cases takes with
    | value _ _ same _ => exact origin_typed other inside repeated content (same.trans shows)
    | absence _ single _ =>
      rw [single] at repeated
      cases repeated
  · rw [(takes.keeps_collection wellFormed inside again repeated).seen] at shows
    exact typed other inside repeated content shows

/-- What the code outside the generated classes has to do for an instance to be read back, if
`ofClass` says which contents the objects of a class can have: each part of it reads what it writes for
objects of the class of a field, with the codec of the field, and the ancestor writes no records of the
fields of the class. -/
structure Library.Faithful (library : Library Content Payload) (plan : ClassPlan)
    (ofClass : String → Content → Prop) : Prop where
  /-- A codec reads back the values of its type. -/
  scalar : ∀ type support codec value, Supported type support → support.wireCodec = some codec →
    FitsType type value → library.decodeScalar codec [library.encodeScalar codec value] = value
  /-- A new message that reads what another one of its class has written has the content of that
  one. -/
  message : ∀ field ∈ plan.fields, field.field.repeated = false →
    field.field.type.isMessage = true → ∀ content, ofClass field.support.publicType content →
      library.decodeMessage [library.encodeMessage content]
        (library.create field.support.publicType) = content
  /-- A collection that reads what another one of its class has written has the content of that one,
  whatever it held before. -/
  collection : ∀ field ∈ plan.fields, field.field.repeated = true → ∀ content before,
    ofClass field.internalType content → ofClass field.internalType before →
      library.decodeCollection field.support.wireCodec
        (library.encodeCollection field.support.wireCodec content) before = content
  ancestor : ∀ record ∈ library.ancestorRecords, ∀ field ∈ plan.fields,
    record.number ≠ field.field.number

section

variable (library : Library Content Payload) {address : Address} {content : Content}
  (found : machine.objects address = some content) (reader : Address) (number : Int)
include found

theorem useValue_decodeCollection (codec : Option String) :
    (useValue library (.object address) "DecodeAsUnknownRepeatedField" (.object reader ::
      .integer number :: (codec.map Value.codec).toList)).on machine =
        (.ok .nil, machine.setObject address
          (some (library.decodeCollection codec (machine.payloads reader number) content))) := by
  rw [useValue, Run.on_bind, Run.on_look, found]
  cases codec <;> rfl

theorem useValue_decodeMessage :
    (useValue library (.object address) "DecodeAsUnknownSingularField"
      [.object reader, .integer number]).on machine = (.ok .nil, machine.setObject address
        (some (library.decodeMessage (machine.payloads reader number) content))) := by
  rw [useValue, Run.on_bind, Run.on_look, found]
  rfl

end

/-- An instance reads the records of a stream. -/
def Machine.receive (machine : Machine Content Payload) (self arrival : Address) :
    Machine Content Payload :=
  { machine with unparsed := Function.update machine.unparsed self (machine.streams arrival) }

theorem elsewhere_receive (owns : Owns plan self machine) (arrival : Address) :
    Elsewhere plan self machine (machine.receive self arrival) :=
  ⟨rfl, fun _ inside _ object => owns.object_alive inside object, owns.below⟩

theorem eval_self {call : Caller Content Payload} {frame : Frame} :
    (eval program call frame (.localName "Self")).on machine =
      (.ok (.object frame.self), machine) :=
  eval_local (by simp [Frame.read?])

section

variable (implements : Implements program.code plan) (inside : field ∈ plan.fields)
  {call : Caller Content Payload} {frame : Frame}
include implements inside

theorem evalAll_reader : (evalAll program call frame [.localName "Self", field.number]).on machine =
    (.ok [.object frame.self, .integer field.field.number], machine) :=
  evalAll_cons eval_self (evalAll_cons (eval_fieldNumber implements inside)
    (by rw [evalAll_nil, Run.on_pure]))

/-- The ancestor tells whether there is something to read for a field. -/
theorem eval_hasUnparsedField :
    (eval program call frame (.callOwn "HasUnparsedField" [field.number])).on machine =
      (.ok (.truth (!(machine.payloads frame.self field.field.number).isEmpty)), machine) := by
  have arguments : (evalAll program call frame [field.number]).on machine =
      (.ok [.integer field.field.number], machine) :=
    evalAll_cons (eval_fieldNumber implements inside) (by rw [evalAll_nil, Run.on_pure])
  have any : ((machine.unparsed frame.self).any fun record =>
      record.number == field.field.number) =
        !(machine.payloads frame.self field.field.number).isEmpty := by
    rw [Machine.payloads, List.isEmpty_map, Bool.eq_iff_iff]
    simp [List.filter_eq_nil_iff]
  rw [eval, Run.on_bind_ok arguments]
  unfold callMember
  rw [implements.ancestor]
  exact congrArg (fun value => (Except.ok (Value.truth value), machine)) any

theorem exec_decodeCollection {address : Address} {content : Content}
    (holds : stored frame.self machine field = .object address)
    (alive : machine.objects address = some content) :
    (exec program call (invoke field.backing "DecodeAsUnknownRepeatedField"
      ([.localName "Self", field.number] ++ field.codecArgument)) frame).on machine =
        (.ok frame, machine.setObject address (some (program.library.decodeCollection
          field.support.wireCodec (machine.payloads frame.self field.field.number) content))) := by
  have arguments : (evalAll program call frame
      ([.localName "Self", field.number] ++ field.codecArgument)).on machine =
        (.ok (.object frame.self :: .integer field.field.number ::
          (field.support.wireCodec.map Value.codec).toList), machine) :=
    evalAll_cons eval_self (evalAll_cons (eval_fieldNumber implements inside) evalAll_codecArgument)
  have used := useValue_decodeCollection program.library alive frame.self field.field.number
    field.support.wireCodec
  rw [← holds] at used
  exact exec_invoke_backing implements inside arguments used

theorem exec_decodeMessage {address : Address} {content : Content}
    (holds : stored frame.self machine field = .object address)
    (alive : machine.objects address = some content) :
    (exec program call (invoke field.backing "DecodeAsUnknownSingularField"
      [.localName "Self", field.number]) frame).on machine =
        (.ok frame, machine.setObject address (some (program.library.decodeMessage
          (machine.payloads frame.self field.field.number) content))) := by
  have used := useValue_decodeMessage program.library alive frame.self field.field.number
  rw [← holds] at used
  exact exec_invoke_backing implements inside (evalAll_reader implements inside) used

theorem eval_decodeValue {codec : String} :
    (eval program call frame (.invoke (.runtimeObject codec) "DecodeUnknownField"
      [.localName "Self", field.number])).on machine =
        (.ok (program.library.decodeScalar codec
          (machine.payloads frame.self field.field.number)), machine) := by
  have codecValue : (eval program call frame (.runtimeObject codec)).on machine =
      (.ok (.codec codec), machine) := by
    rw [eval, Run.on_pure]
  exact eval_invoke codecValue (evalAll_reader implements inside)

omit implements inside in
/-- A property of messages accepts a new one, which no field holds. -/
theorem accepts_allocated (owns : Owns plan self machine)
    (message : field.field.type.isMessage = true) (content : Content) :
    Accepts plan self (machine.allocate content) field (.object machine.fresh) := by
  rw [Accepts, if_pos (holdsObjects_of_isMessage message)]
  refine ⟨.inr ⟨_, rfl, by rw [Machine.objects_allocate_fresh]; rfl⟩, ?_⟩
  rintro other other_inside _ ⟨⟩ holds
  exact absurd (owns.object_below other_inside holds) (Nat.lt_irrefl _)

theorem exec_putMessage (message : field.field.type.isMessage = true)
    (consistent : Consistent plan frame.self machine) :
    ∃ final, (∀ depth, (exec program (invokeMethod program (depth + 3))
      (assign field.property (.create field.support.publicType)) frame).on machine =
        (.ok frame, final)) ∧
        Receives plan frame.self field machine final ∧
        stored frame.self final field = .object machine.fresh ∧
        final.objects machine.fresh = some (program.library.create field.support.publicType) ∧
        Manages plan frame.self .nil machine final := by
  have owns := consistent.owns
  -- A new object belongs to no field.
  have created := (elsewhere_allocate owns (program.library.create
    field.support.publicType)).consistent consistent
  have touches : Touches plan frame.self field machine
      (machine.allocate (program.library.create field.support.publicType)) :=
    ⟨created.owns, fun _ other_inside _ => keeps_allocate owns other_inside _, fun _ _ => rfl, rfl⟩
  obtain ⟨final, written, assigns, manages⟩ :=
    invoke_setter_manages implements inside created (accepts_allocated owns message _)
  obtain ⟨receives, stores⟩ := assigns.receives fun _ => Value.noConfusion
  refine ⟨final, fun depth =>
    exec_assign_property (implements.property inside) eval_create (written depth),
    touches.receives receives, stores, ?_, .ofNew manages⟩
  rw [assigns.objects, Machine.objects_allocate_fresh]

/-- A new message is given to a field and reads itself. -/
theorem execAll_decodeMessage (message : field.field.type.isMessage = true)
    (consistent : Consistent plan frame.self machine) :
    ∃ final, Completes program 3
      [assign field.property (.create field.support.publicType),
       invoke field.backing "DecodeAsUnknownSingularField" [.localName "Self", field.number]]
      frame machine final ∧ Receives plan frame.self field machine final ∧
        seen final (stored frame.self final field) = .content (some (program.library.decodeMessage
          (machine.payloads frame.self field.field.number)
          (program.library.create field.support.publicType))) ∧
        Manages plan frame.self .nil machine final := by
  have wellFormed := implements.wellFormed
  obtain ⟨middle, assigned, receives, stores, alive, manages⟩ :=
    exec_putMessage implements inside message consistent
  -- The object reads what the instance has read, which the assignment has left alone.
  have payloads : middle.payloads frame.self field.field.number =
      machine.payloads frame.self field.field.number := by
    rw [Machine.payloads, receives.unparsed]
    rfl
  have reads := touches_setObject inside (receives.consistent wellFormed consistent).owns stores
    (program.library.decodeMessage (machine.payloads frame.self field.field.number)
      (program.library.create field.support.publicType))
  refine ⟨_, fun depth => ?_, receives.touch wellFormed reads
    fun _ => stores.trans_ne Value.noConfusion, seen_setObject stores _,
    manages.trans (manages_setObject inside stores _)⟩
  rw [execAll_cons (assigned depth), execAll_singleton,
    exec_decodeMessage implements inside stores alive, payloads]

omit implements inside in
theorem shown_ne_object {value : Value} (fits : FitsType field.field.type value)
    (address : Address) : shown field value ≠ .object address := by
  intro object
  have stores := toStored_shown fits
  rw [object] at stores
  exact fits.ne_object address stores.symm

/-- A value that is no object is given to a field by its property. -/
theorem completes_putValue {expression : Expr} (plain : field.field.type.isMessage = false)
    (single : field.field.repeated = false) (consistent : Consistent plan frame.self machine)
    {value : Value} (fits : FitsType field.field.type value)
    (valueOf : ∀ depth, (eval program (invokeMethod program (depth + 3)) frame expression).on
      machine = (.ok (shown field value), machine)) :
    ∃ final, Completes program 3 [assign field.property expression] frame machine final ∧
      Receives plan frame.self field machine final ∧ stored frame.self final field = value ∧
      Manages plan frame.self .nil machine final := by
  obtain ⟨final, written, assigns, manages⟩ :=
    invoke_setter_manages implements inside consistent (accepts_shown single plain fits)
  obtain ⟨receives, stores⟩ := assigns.receives fun impossible => by
    rw [plain] at impossible
    cases impossible
  refine ⟨final, fun depth => ?_, receives, stores.trans (toStored_shown fits),
    manages.alone (shown_ne_object fits)⟩
  rw [execAll_singleton]
  exact exec_assign_property (implements.property inside) (valueOf depth) (written depth)

theorem execAll_decodeValue {codec : String} (plain : field.field.type.isMessage = false)
    (single : field.field.repeated = false) (consistent : Consistent plan frame.self machine)
    {value : Value} (fits : FitsType field.field.type value)
    (decodes : program.library.decodeScalar codec
      (machine.payloads frame.self field.field.number) = value) :
    ∃ final, Completes program 3
      [assign field.property (field.support.toPublic (.invoke (.runtimeObject codec)
        "DecodeUnknownField" [.localName "Self", field.number]))] frame machine final ∧
        Receives plan frame.self field machine final ∧ stored frame.self final field = value ∧
        Manages plan frame.self .nil machine final := by
  refine completes_putValue implements inside plain single consistent fits fun depth => ?_
  refine eval_toPublic (implements.wellFormed.supported field inside) (.inl fits) ?_
  rw [eval_decodeValue implements inside, decodes]

/-- A field that is not repeated reads a value if there is a record for it, and is marked as absent
otherwise. -/
theorem completes_ifUnparsed {present absentBody : Body}
    (read : machine.payloads frame.self field.field.number ≠ [] →
      Completes program 3 present frame machine final)
    (unread : ¬ machine.payloads frame.self field.field.number ≠ [] →
      Completes program 3 absentBody frame machine final) :
    Completes program 3 [.ifElse (.callOwn "HasUnparsedField" [field.number]) present absentBody]
      frame machine final :=
  completes_ifElse ⟨_, by simp, fun _ => eval_hasUnparsedField implements inside⟩ read unread

/-- **A field reads what that of the source has on the wire.** -/
theorem execAll_decodeBody {ofClass : String → Content → Prop}
    (faithful : program.library.Faithful plan ofClass)
    (origin_consistent : Consistent plan source origin)
    (origin_typed : Typed ofClass plan source origin)
    (written : Written program.library plan source origin field
      (machine.payloads frame.self field.field.number))
    (consistent : Consistent plan frame.self machine) (filled : Filled plan frame.self machine)
    (typed : TypedCollections ofClass plan frame.self machine) :
    ∃ final, Completes program 3 field.decodeBody frame machine final ∧
        Takes plan source origin frame.self field machine final := by
  have wellFormed := implements.wellFormed
  have owns := consistent.owns
  have supported := wellFormed.supported field inside
  unfold FieldPlan.decodeBody
  -- The cases are those of what the source wrote; in each of them one branch of the body runs.
  generalize payloads_eq : machine.payloads frame.self field.field.number = payloads at written
  cases written with
  | @collection _ content repeated holds alive =>
    have outside := wellFormed.repeated field inside repeated
    have present : Present plan source origin field := by
      rw [present_iff_of_outside outside, holds]
      exact (absent_ne_object field _).symm
    obtain ⟨address, before, object, found⟩ :=
      Sound.collection ⟨consistent, filled⟩ inside repeated
    have ofSource : ofClass field.internalType content :=
      origin_typed.collections field inside repeated content (by rw [holds, seen, alive])
    have ofTarget : ofClass field.internalType before :=
      typed field inside repeated before (by rw [object, seen, found])
    have touches := touches_setObject inside owns object content
    refine ⟨_, fun depth => ?_, .value (.outside outside touches) present ?_
      fun _ => object.trans_ne Value.noConfusion⟩
    · rw [if_pos repeated, execAll_singleton, exec_decodeCollection implements inside object found,
        payloads_eq, faithful.collection field inside repeated content before ofSource ofTarget]
    · rw [seen_setObject object, holds, seen, alive]
  | missing single gone =>
    obtain ⟨final, ran, unmarks⟩ := exec_unmark implements inside single consistent
    refine ⟨final, ?_, .absence unmarks single gone⟩
    rw [if_neg (by simp [single])]
    exact completes_ifUnparsed implements inside (absurd payloads_eq) fun _ => ran.deeper
  | @message _ content single present message holds alive =>
    obtain ⟨final, ran, receives, shows, -⟩ :=
      execAll_decodeMessage implements inside message consistent
    have coded : field.support.wireCodec = none := by
      rcases wireCodec_cases supported with ⟨coded, -⟩ | ⟨_, -, plain⟩
      · exact coded
      · rw [message] at plain
        cases plain
    have ofSource : ofClass field.support.publicType content :=
      origin_typed.messages field inside single content (by rw [holds, seen, alive])
    refine ⟨final, ?_, .value receives present ?_ (by simp [single])⟩
    · rw [if_neg (by simp [single]), coded]
      exact completes_ifUnparsed implements inside (fun _ => ran) (by simp [payloads_eq])
    · rw [shows, payloads_eq, faithful.message field inside single message content ofSource, holds]
      exact congrArg Seen.content alive
  | @value codec single present plain coded =>
    have fits : FitsType field.field.type (stored source origin field) := by
      have fits := origin_consistent.owns.fits field inside
      rwa [Fits, holdsObjects, single, plain, if_neg (by simp)] at fits
    obtain ⟨final, ran, receives, stores, -⟩ := execAll_decodeValue implements inside plain single
      consistent fits (by rw [payloads_eq, faithful.scalar _ _ _ _ supported coded fits])
    refine ⟨final, ?_, .value receives present ?_ (by simp [single])⟩
    · rw [if_neg (by simp [single]), coded]
      exact completes_ifUnparsed implements inside (fun _ => ran) (by simp [payloads_eq])
    · rw [stores, seen_of_ne_object fits.ne_object, seen_of_ne_object fits.ne_object]

omit inside in
include implements in
/-- **All fields read what those of the source have on the wire**, one after the other. Those that
are read agree with the source from then on. -/
theorem execAll_decode {ofClass : String → Content → Prop}
    (faithful : program.library.Faithful plan ofClass)
    (origin_consistent : Consistent plan source origin)
    (origin_typed : Typed ofClass plan source origin)
    (written : ∀ field ∈ plan.fields, Written program.library plan source origin field
      (machine.payloads frame.self field.field.number))
    (consistent : Consistent plan frame.self machine) (filled : Filled plan frame.self machine)
    (typed : TypedCollections ofClass plan frame.self machine) :
    ∃ final, Completes program 3 (plan.concatFields FieldPlan.decodeBody) frame machine final ∧
        AgreesBut plan source origin frame.self [] final := by
  -- What the instance has still to take apart stays the same, so all fields read the same wire.
  obtain ⟨final, ran, -, -, agrees⟩ := completes_flatMap
    (fun rest now => now.unparsed = machine.unparsed ∧
      TypedCollections ofClass plan frame.self now ∧
      AgreesBut plan source origin frame.self rest now)
    (fun field rest now ⟨same, typed, before⟩ => by
      have inside := before.inside (List.mem_cons_self ..)
      have payloads : now.payloads frame.self field.field.number =
          machine.payloads frame.self field.field.number := by
        rw [Machine.payloads, same, Machine.payloads]
      obtain ⟨middle, ran, takes⟩ := execAll_decodeBody implements inside faithful
        origin_consistent origin_typed (payloads ▸ written field inside) before.consistent
        before.filled typed
      have reads := takes.reads implements.wellFormed origin_consistent before.consistent
        before.filled
      exact ⟨middle, ran, reads.unparsed.trans same,
        takes.typedCollections implements.wellFormed origin_typed.collections typed,
        before.next reads⟩)
    ⟨rfl, typed, List.Subset.refl plan.fields, consistent, filled, fun _ => .inl⟩
  exact ⟨final, ran, agrees⟩

/-! ### Records of a message -/

omit implements inside in
theorem payloads_recordsOf (payloads : List Payload) (number : Int) :
    ((recordsOf field payloads).filter fun record => record.number == number).map Record.payload =
      if field.field.number = number then payloads else [] := by
  split
  · next same => simp [recordsOf, List.filter_map, Function.comp_def, same]
  · next different => simp [recordsOf, different]

omit implements inside in
/-- Of the records of several fields with different numbers, those with the number of a field are its
own. -/
theorem payloads_flatMap {payloadsOf : FieldPlan → List Payload} {fields : List FieldPlan}
    (different : (fields.map fun field => field.field.number).Nodup) (inside : field ∈ fields) :
    ((fields.flatMap fun other => recordsOf other (payloadsOf other)).filter fun record =>
      record.number == field.field.number).map Record.payload = payloadsOf field := by
  induction fields with
  | nil => cases inside
  | cons first rest ih =>
    rw [List.map_cons, List.nodup_cons] at different
    rw [List.flatMap_cons, List.filter_append, List.map_append, payloads_recordsOf]
    rcases List.mem_cons.mp inside with rfl | later
    · have others : (rest.flatMap fun other => recordsOf other (payloadsOf other)).filter
          (fun record => record.number == field.field.number) = [] := by
        refine List.filter_eq_nil_iff.mpr fun record record_inside same => ?_
        obtain ⟨other, other_inside, from_other⟩ := List.mem_flatMap.mp record_inside
        obtain ⟨payload, -, rfl⟩ := List.mem_map.mp from_other
        exact different.1 (List.mem_map.mpr ⟨other, other_inside, beq_iff_eq.mp same⟩)
      rw [others, if_pos rfl, List.map_nil, List.append_nil]
    · have elsewhere : first.field.number ≠ field.field.number := fun same =>
        different.1 (List.mem_map.mpr ⟨field, later, same.symm⟩)
      rw [if_neg elsewhere, List.nil_append, ih different.2 later]

omit implements in
/-- An instance that has read a message finds under the number of a field what the message has for
it. -/
theorem payloads_of_unparsed (wellFormed : plan.WellFormed) {library : Library Content Payload}
    {ofClass : String → Content → Prop} (faithful : library.Faithful plan ofClass)
    {payloadsOf : FieldPlan → List Payload}
    (unparsed : machine.unparsed self = library.ancestorRecords ++
      plan.fields.flatMap fun other => recordsOf other (payloadsOf other)) :
    machine.payloads self field.field.number = payloadsOf field := by
  have foreign : library.ancestorRecords.filter
      (fun record => record.number == field.field.number) = [] :=
    List.filter_eq_nil_iff.mpr fun record record_inside same =>
      faithful.ancestor record record_inside field inside (beq_iff_eq.mp same)
  rw [Machine.payloads, unparsed, List.filter_append, foreign, List.nil_append,
    payloads_flatMap wellFormed.numbers inside]

omit inside in
include implements in
/-- A stream is read by the parts of the fields, after the ancestor has read its records. -/
theorem invoke_decode_of_exec {arrival : Address}
    (ran : Completes program 3 (plan.concatFields FieldPlan.decodeBody)
      (argumentFrame self "aSource" (.stream arrival)) (machine.receive self arrival) final)
    (depth : Nat) :
    (invokeMethod program (depth + 4) self "Decode" [.stream arrival]).on machine =
      (.ok .nil, final) := by
  obtain ⟨implementation, found, parameters, body⟩ := implements.decode
  refine invokeMethod_procedure found parameters (by decide) ?_
  have inherited : (exec program (invokeMethod program (depth + 3))
      (inheritCall "Decode" [sourceMessage])
      (argumentFrame self "aSource" (.stream arrival))).on machine =
        (.ok (argumentFrame self "aSource" (.stream arrival)), machine.receive self arrival) :=
    exec_inheritCall (evalAll_cons (eval_stream (by decide))
      (by rw [evalAll_nil, Run.on_pure])) rfl
  rw [body, execAll_cons inherited]
  exact ran depth

omit inside in
include implements in
/-- **An instance reads what another one has written**, and agrees with it in all fields. -/
theorem invoke_decode {ofClass : String → Content → Prop}
    (faithful : program.library.Faithful plan ofClass)
    (origin_consistent : Consistent plan source origin)
    (origin_typed : Typed ofClass plan source origin) {payloadsOf : FieldPlan → List Payload}
    (written : ∀ field ∈ plan.fields,
      Written program.library plan source origin field (payloadsOf field))
    (consistent : Consistent plan self machine) (filled : Filled plan self machine)
    (typed : TypedCollections ofClass plan self machine)
    {arrival : Address} (arrives : machine.streams arrival = program.library.ancestorRecords ++
      plan.fields.flatMap fun field => recordsOf field (payloadsOf field)) :
    ∃ final, (∀ depth, (invokeMethod program (depth + 4) self "Decode" [.stream arrival]).on machine =
      (.ok .nil, final)) ∧ Consistent plan self final ∧
        ∀ field ∈ plan.fields, Copied plan source origin self final field := by
  have unparsed : (machine.receive self arrival).unparsed self = program.library.ancestorRecords ++
      plan.fields.flatMap fun field => recordsOf field (payloadsOf field) :=
    (Function.update_self ..).trans arrives
  have before : Consistent plan (argumentFrame self "aSource" (.stream arrival)).self
      (machine.receive self arrival) := (elsewhere_receive consistent.owns arrival).consistent consistent
  obtain ⟨final, ran, agrees⟩ := execAll_decode implements faithful origin_consistent origin_typed
    (fun field inside => (payloads_of_unparsed inside implements.wellFormed faithful unparsed).symm ▸
      written field inside) before filled typed
  exact ⟨final, invoke_decode_of_exec implements ran, agrees.consistent,
    fun field inside => (agrees.copied field inside).resolve_left List.not_mem_nil⟩

end

end ProtoPascal.Execution
