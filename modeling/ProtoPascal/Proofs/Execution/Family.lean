import ProtoPascal.Proofs.Execution.Assigning
import ProtoPascal.Proofs.Execution.Clearing
import ProtoPascal.Proofs.Execution.Relocation
import ProtoPascal.Proofs.RoundTrip

/-!
Generated classes that use each other. The code of one class knows the messages of other classes by
their contents only. Here a content is all that is seen of a message, and the library that the
classes share does with contents what the code of their classes does with instances in such states.

* `Snapshot`: what is seen of a message, with all that is in it;
* `Family.Attained.proper`: the contents that messages reach are those of messages in sound states;
* `Family.Linked`: the library treats messages as the generated code does;
* `Family.Linked.assign_eq`: a message that is assigned another one gets the content of that one.
-/

namespace ProtoPascal.Execution

open Message
open Schema (MessageType)

/-! ### Contents -/

/-- What is seen of an object: of a message its class, its fields and the cases of its oneofs, and of
a collection its elements. -/
inductive Snapshot (Class Element : Type) where
  | message (type : Class) (fields : List (Seen (Snapshot Class Element))) (cases : List Value)
  | collection (elements : List Element)

/-- Generated classes, and the library as each of them uses it. -/
structure Family (Class Element Payload : Type) where
  message : Class → MessageType
  code : Class → ClassCode
  plan : Class → ClassPlan
  generated : ∀ type, Generated (message type) (code type) (plan type)
  /-- The class of the messages with a full name. -/
  classOf : String → Class
  library : Class → Library (Snapshot Class Element) Payload

variable {Class Element Payload : Type} {family : Family Class Element Payload} {type user : Class}
  {self source target : Address} {machine final : Machine (Snapshot Class Element) Payload}

namespace Family

/-- A class of the family with the library that it uses. -/
def program (family : Family Class Element Payload) (type : Class) :
    Program (Snapshot Class Element) Payload :=
  ⟨family.code type, family.library type⟩

theorem implements (family : Family Class Element Payload) (type : Class) :
    Implements (family.program type).code (family.plan type) :=
  (family.generated type).implements

/-- What is seen of an instance of a class. -/
def snapshot (family : Family Class Element Payload) (type : Class) (self : Address)
    (machine : Machine (Snapshot Class Element) Payload) : Snapshot Class Element :=
  .message type ((family.plan type).fields.map fun field => seen machine (stored self machine field))
    ((family.plan type).oneofs.map fun oneof => machine.fields self oneof.names.backing)

/-- A content is that of a message of a class in a sound state. Its repeated fields hold collections,
and its other fields hold messages of their types, of which the same is true. -/
inductive Proper (family : Family Class Element Payload) : Class → Snapshot Class Element → Prop where
  | message {type : Class} {self : Address} {machine : Machine (Snapshot Class Element) Payload}
      (sound : Sound (family.plan type) self machine)
      (collections : ∀ field ∈ (family.plan type).fields, field.field.repeated = true → ∀ content,
        seen machine (stored self machine field) = .content (some content) →
          ∃ elements, content = .collection elements)
      (messages : ∀ field ∈ (family.plan type).fields, field.field.repeated = false → ∀ content,
        seen machine (stored self machine field) = .content (some content) →
          ∀ typeName, field.field.type = .reference .message typeName →
            Proper family (family.classOf typeName) content) :
      Proper family type (family.snapshot type self machine)

/-- An instance of a class is in a sound state, and so are all messages in it. -/
structure Intact (family : Family Class Element Payload) (type : Class) (owner : Address)
    (machine : Machine (Snapshot Class Element) Payload) : Prop where
  sound : Sound (family.plan type) owner machine
  proper : family.Proper type (family.snapshot type owner machine)

/-- A content is that of a message of a class in a state that it reaches from its creation by operations
of its clients, of which none takes a collection away. Its repeated fields hold collections, and its
other fields hold messages of their types, of which the same is true. -/
inductive Attained (family : Family Class Element Payload) :
    Class → Snapshot Class Element → Prop where
  | message {type : Class} {self : Address} {machine : Machine (Snapshot Class Element) Payload}
      (reachable : Reachable (family.program type) (family.plan type) self
        Operation.SparesCollections machine)
      (collections : ∀ field ∈ (family.plan type).fields, field.field.repeated = true → ∀ content,
        seen machine (stored self machine field) = .content (some content) →
          ∃ elements, content = .collection elements)
      (messages : ∀ field ∈ (family.plan type).fields, field.field.repeated = false → ∀ content,
        seen machine (stored self machine field) = .content (some content) →
          ∀ typeName, field.field.type = .reference .message typeName →
            Attained family (family.classOf typeName) content) :
      Attained family type (family.snapshot type self machine)

/-- **The contents that messages reach are proper.** Each message is in a sound state, since it reaches
it, and the induction is on the messages in it. -/
theorem Attained.proper {content : Snapshot Class Element} (attained : family.Attained type content) :
    family.Proper type content := by
  induction attained with
  | @message type self machine reachable collections messages ih =>
    exact .message (reachable.sound (family.implements type)) collections ih

/-- An instance in a state that it reaches is intact, if the messages in it have reached theirs. -/
theorem Attained.intact
    (attained : family.Attained type (family.snapshot type self machine))
    (reachable : Reachable (family.program type) (family.plan type) self Operation.SparesCollections
      machine) : family.Intact type self machine :=
  ⟨reachable.sound (family.implements type), attained.proper⟩

/-- The library treats messages as the code of their classes does, and collections as lists. -/
structure Linked (family : Family Class Element Payload) : Prop where
  /-- A new message is as the constructor of its class leaves a new instance. -/
  create : ∀ type, ∀ field ∈ (family.plan type).fields, field.field.repeated = false →
    ∀ typeName, field.field.type = .reference .message typeName → ∀ self start final,
      IsNew (family.plan (family.classOf typeName)) self start →
      Settles (callMethod (family.program (family.classOf typeName)) self "Create" []) start (.ok ())
        final →
      (family.library type).create field.support.publicType =
        family.snapshot (family.classOf typeName) self final
  /-- A message that is assigned another one is as the method of their class leaves an instance. -/
  assign : ∀ user type machine target source final, target ≠ source →
    family.Intact type target machine → family.Intact type source machine →
    Separate (family.plan type) target source machine →
    Settles (callMethod (family.program type) target "Assign" [.object source]) machine (.ok ())
      final →
    (family.library user).assign (family.snapshot type target machine)
      (family.snapshot type source machine) = family.snapshot type target final
  createCollection : ∀ type, ∀ field ∈ (family.plan type).fields, field.field.repeated = true →
    (family.library type).create field.internalType = .collection []
  clearCollection : ∀ type elements,
    (family.library type).clear (.collection elements) = .collection []
  assignCollection : ∀ type before elements,
    (family.library type).assign (.collection before) (.collection elements) = .collection elements

/-! ### Equal contents -/

section

variable {self' : Address} {machine' : Machine (Snapshot Class Element) Payload}

/-- Instances with equal contents agree in all fields. -/
theorem copied_of_snapshot_eq
    (same : family.snapshot type self machine = family.snapshot type self' machine')
    {field : FieldPlan} (inside : field ∈ (family.plan type).fields) :
    Copied (family.plan type) self machine self' machine' field := by
  rw [snapshot, snapshot, Snapshot.message.injEq] at same
  refine ⟨List.map_inj_left.mp same.2.1 field inside, fun oneof oneof_inside position _ => ?_⟩
  rw [List.map_inj_left.mp same.2.2 oneof oneof_inside]

/-- Instances in consistent states that agree in all fields have equal contents. -/
theorem snapshot_eq_of_copied (consistent : Consistent (family.plan type) self machine)
    (consistent' : Consistent (family.plan type) self' machine')
    (copied : ∀ field ∈ (family.plan type).fields,
      Copied (family.plan type) self machine self' machine' field) :
    family.snapshot type self machine = family.snapshot type self' machine' := by
  rw [snapshot, snapshot, Snapshot.message.injEq]
  refine ⟨rfl, List.map_inj_left.mpr fun field inside => (copied field inside).same,
    List.map_inj_left.mpr fun oneof inside => ?_⟩
  obtain ⟨current, selects⟩ := consistent.selects oneof inside
  obtain ⟨position, selects'⟩ := consistent'.selects oneof inside
  rw [selects.backing, selects'.backing, position_eq_of_copied
    (family.implements type).wellFormed copied inside selects selects']

/-- An instance that is laid out elsewhere has the content that it had. -/
theorem snapshot_relocates {place : Address → Address}
    (relocates : Relocates place self machine self' machine')
    (sound : Sound (family.plan type) self machine) :
    family.snapshot type self' machine' = family.snapshot type self machine := by
  rw [snapshot, snapshot, Snapshot.message.injEq]
  refine ⟨rfl, List.map_inj_left.mpr fun field _ => relocates.seen field,
    List.map_inj_left.mpr fun oneof inside => ?_⟩
  obtain ⟨position, selects⟩ := sound.consistent.selects oneof inside
  rw [selects.backing, (relocates.selects selects).backing]

end

theorem Proper.exists_sound {content : Snapshot Class Element} (proper : family.Proper type content) :
    ∃ self machine, Sound (family.plan type) self machine ∧
      family.snapshot type self machine = content := by
  cases proper with
  | message sound => exact ⟨_, _, sound, rfl⟩

/-- Two messages can be laid out on one machine. -/
theorem Proper.exists_beside {before content : Snapshot Class Element}
    (proper : family.Proper type before) (source_proper : family.Proper type content) :
    ∃ machine, family.Intact type 0 machine ∧ family.Intact type 1 machine ∧
      Separate (family.plan type) 0 1 machine ∧ family.snapshot type 0 machine = before ∧
      family.snapshot type 1 machine = content := by
  obtain ⟨left, first, sound, rfl⟩ := proper.exists_sound
  obtain ⟨right, second, source_sound, rfl⟩ := source_proper.exists_sound
  have below := sound.consistent.owns.below
  have source_below := source_sound.consistent.owns.below
  have here : Relocates evenPlace left first 0 (beside left first right second) :=
    relocates_beside_left below source_below
  have there : Relocates oddPlace right second 1 (beside left first right second) :=
    relocates_beside_right below source_below
  have same : family.snapshot type 0 (beside left first right second) =
      family.snapshot type left first := snapshot_relocates here sound
  have source_same : family.snapshot type 1 (beside left first right second) =
      family.snapshot type right second := snapshot_relocates there source_sound
  exact ⟨beside left first right second, ⟨here.sound sound, same.symm ▸ proper⟩,
    ⟨there.sound source_sound, source_same.symm ▸ source_proper⟩, separate_beside, same, source_same⟩

section

variable {field : FieldPlan} {content : Snapshot Class Element}
  (intact : family.Intact type self machine) (inside : field ∈ (family.plan type).fields)
  (shows : seen machine (stored self machine field) = .content (some content))
include intact inside shows

theorem Intact.collection (repeated : field.field.repeated = true) :
    ∃ elements, content = .collection elements := by
  have proper := intact.proper
  generalize whole : family.snapshot type self machine = snapshot at proper
  cases proper with
  | message _ collections _ =>
    rw [(copied_of_snapshot_eq whole inside).same] at shows
    exact collections field inside repeated content shows

theorem Intact.message (single : field.field.repeated = false) {typeName : String}
    (reference : field.field.type = .reference .message typeName) :
    family.Proper (family.classOf typeName) content := by
  have proper := intact.proper
  generalize whole : family.snapshot type self machine = snapshot at proper
  cases proper with
  | message _ _ messages =>
    rw [(copied_of_snapshot_eq whole inside).same] at shows
    exact messages field inside single content shows typeName reference

end

/-! ### New messages -/

/-- What is seen of a new instance of a class. -/
def blank (family : Family Class Element Payload) (type : Class) : Snapshot Class Element :=
  .message type
    ((family.plan type).fields.map fun field =>
      if field.field.repeated then .content (some (.collection [])) else .value (absent field))
    ((family.plan type).oneofs.map fun oneof => caseAt oneof 0)

/-- An instance that is vacant has the content of a new one. -/
theorem snapshot_of_vacant
    (vacant : Vacant (family.library type) (family.plan type) self machine)
    (collections : ∀ field ∈ (family.plan type).fields, field.field.repeated = true →
      (family.library type).clear ((family.library type).create field.internalType) =
        .collection []) :
    family.snapshot type self machine = family.blank type := by
  have wellFormed := (family.implements type).wellFormed
  rw [snapshot, blank, Snapshot.message.injEq]
  refine ⟨rfl, List.map_inj_left.mpr fun field inside => ?_,
    List.map_inj_left.mpr fun oneof inside => ?_⟩
  · cases repeated : field.field.repeated with
    | true =>
      rw [vacant.collections field inside repeated, collections field inside repeated, if_pos rfl]
    | false =>
      rw [stored_of_gone wellFormed inside vacant.consistent (vacant.gone field inside repeated),
        seen_of_ne_object (absent_ne_object field), if_neg Bool.false_ne_true]
  · obtain ⟨position, selects⟩ := vacant.consistent.selects oneof inside
    have missing : memberAt oneof position = none := by
      refine Option.eq_none_iff_forall_ne_some.mpr fun member found => ?_
      refine vacant.gone member (memberAt_mem wellFormed inside found)
        (memberAt_presence wellFormed inside found).1 ?_
      exact (present_iff_of_member wellFormed inside found selects).mpr rfl
    rw [selects.backing, eq_zero_of_memberAt selects.bound missing]

section

variable (linked : family.Linked)
include linked

theorem Linked.collections (type : Class) : ∀ field ∈ (family.plan type).fields,
    field.field.repeated = true →
      (family.library type).clear ((family.library type).create field.internalType) =
        .collection [] := by
  intro field inside repeated
  rw [linked.createCollection type field inside repeated, linked.clearCollection]

/-- A new message has its content from its creation: all its collections are empty, and it has no
messages. -/
theorem Linked.attained_blank (type : Class) : family.Attained type (family.blank type) := by
  have implements := family.implements type
  have new : IsNew (family.plan type) 0
      (zeroed (family.plan type) : Machine (Snapshot Class Element) Payload) :=
    isNew_zeroed implements.wellFormed 0
  obtain ⟨final, created, vacant⟩ := invoke_create_vacant implements new
  rw [← snapshot_of_vacant vacant (linked.collections type)]
  refine .message (.created new (settles_callMethod 4 created))
    (fun field inside repeated content shows => ?_) fun field inside single content shows => ?_
  · rw [vacant.collections field inside repeated] at shows
    cases shows
    exact ⟨[], linked.collections type field inside repeated⟩
  · rw [stored_of_gone implements.wellFormed inside vacant.consistent
      (vacant.gone field inside single), seen_of_ne_object (absent_ne_object field)] at shows
    cases shows

theorem Linked.proper_blank (type : Class) : family.Proper type (family.blank type) :=
  (linked.attained_blank type).proper

/-- The library makes messages that have the content of new instances. -/
theorem Linked.create_eq {field : FieldPlan} (inside : field ∈ (family.plan user).fields)
    (single : field.field.repeated = false) {typeName : String}
    (reference : field.field.type = .reference .message typeName) :
    (family.library user).create field.support.publicType =
      family.blank (family.classOf typeName) := by
  have implements := family.implements (family.classOf typeName)
  have new : IsNew (family.plan (family.classOf typeName)) 0
      (zeroed (family.plan (family.classOf typeName)) : Machine (Snapshot Class Element) Payload) :=
    isNew_zeroed implements.wellFormed 0
  obtain ⟨final, created, vacant⟩ := invoke_create_vacant implements new
  rw [linked.create user field inside single typeName reference 0 _ final new
    (settles_callMethod 4 created), snapshot_of_vacant vacant (linked.collections _)]

end

/-! ### Assignment -/

/-- A field that is not repeated and holds an object has a type of messages. -/
theorem exists_reference (owns : Owns (family.plan type) self machine) {field : FieldPlan}
    (inside : field ∈ (family.plan type).fields) (single : field.field.repeated = false)
    {content : Option (Snapshot Class Element)}
    (shows : seen machine (stored self machine field) = .content content) :
    ∃ typeName, field.field.type = .reference .message typeName := by
  cases plain : field.field.type.isMessage with
  | false =>
    rw [seen_of_ne_object (owns.plain inside single plain)] at shows
    cases shows
  | true =>
    cases reference : field.field.type with
    | scalar scalar =>
      rw [reference] at plain
      cases plain
    | reference kind typeName =>
      rw [reference] at plain
      cases kind with
      | message => exact ⟨typeName, rfl⟩
      | enumeration => cases plain

/-- Fields of messages are copied if the messages that the source holds are. -/
theorem Linked.copies (linked : family.Linked) (target_intact : family.Intact type target machine)
    (source_intact : family.Intact type source machine) {field : FieldPlan}
    (inside : field ∈ (family.plan type).fields)
    (messages : field.field.repeated = false → ∀ content,
      seen machine (stored source machine field) = .content (some content) → ∀ typeName,
        field.field.type = .reference .message typeName → ∀ before,
          family.Proper (family.classOf typeName) before →
            (family.library type).assign before content = content) :
    (family.program type).library.Copies target machine source machine field := by
  refine ⟨fun single content shows => ?_, fun repeated before content shows source_shows => ?_⟩
  · obtain ⟨typeName, reference⟩ :=
      exists_reference source_intact.sound.consistent.owns inside single shows
    rw [show (family.program type).library.create _ = _ from
      linked.create_eq inside single reference]
    exact messages single content shows typeName reference _ (linked.proper_blank _)
  · obtain ⟨elements, rfl⟩ := target_intact.collection inside shows repeated
    obtain ⟨elements', rfl⟩ := source_intact.collection inside source_shows repeated
    exact linked.assignCollection type elements elements'

/-- **A message that is assigned another one gets the content of that one**, whatever it held before.
The induction is on the messages in the other one. -/
theorem Linked.assign_eq (linked : family.Linked) {content : Snapshot Class Element}
    (proper : family.Proper type content) (user : Class) {before : Snapshot Class Element}
    (before_proper : family.Proper type before) :
    (family.library user).assign before content = content := by
  induction proper generalizing user before with
  | @message type self machine sound collections messages ih =>
    have whole : family.Proper type (family.snapshot type self machine) :=
      .message sound collections messages
    obtain ⟨both, target, source, separate, target_same, same⟩ :=
      before_proper.exists_beside whole
    have copies : ∀ field ∈ (family.plan type).fields,
        (family.program type).library.Copies 0 both 1 both field := by
      refine fun field inside => linked.copies target source inside ?_
      intro single content shows typeName reference before before_proper
      rw [(copied_of_snapshot_eq same inside).same] at shows
      exact ih field inside single content shows typeName reference type before_proper
    obtain ⟨final, ran, final_sound, -, copied⟩ := invoke_assign (family.implements type)
      Nat.one_ne_zero target.sound source.sound separate copies
    have settles : Settles (callMethod (family.program type) 0 "Assign" [.object 1]) both (.ok ())
        final := settles_callMethod 5 ran
    rw [← target_same, ← same, linked.assign user type both 0 1 final Nat.zero_ne_one target source
      separate settles]
    exact (snapshot_eq_of_copied source.sound.consistent final_sound.consistent copied).symm

end Family

end ProtoPascal.Execution
