import ProtoPascal.Proofs.ClassPlan

/-!
The parts of a class. `classParts` is what is known of a class before its members are compared with
each other.

* `generateMessage_result`: a class is made of its parts, provided that no two members clash;
* `checkUniqueFrom_eq_ok`: the comparison succeeds exactly if the names of the members are apart;
* `ClassParts.PartsOf.covers`: the plan among the parts covers the fields and oneofs of the message.
-/

namespace ProtoPascal.Message

open Naming
open Pascal
open Schema (EnumType MessageType)

/-! ### Making a class of its parts -/

/-- The fully qualified name of a message at a place. -/
def Place.fullName (place : Place) (message : MessageType) : String :=
  Schema.qualifiedName place.scope message.name

/-- The place inside a message whose class has an identifier. -/
def Place.inside (place : Place) (message : MessageType) (identifier : String) : Place :=
  ⟨place.fullName message, some (nestedIn place.parentClass identifier)⟩

/-- The name of a message in comments and errors. -/
def Place.shownName (place : Place) (message : MessageType) : String :=
  Text.trimStart '.' (place.fullName message)

/-- What is known of a class before its members are compared with each other. -/
structure ClassParts where
  identifier : String
  /-- The class with the classes around it. -/
  className : String
  enums : List EnumDeclaration
  nested : List MessageClass
  plan : ClassPlan

/-- The scope in which the fields and oneofs of a class take their names. -/
def memberNamesScope (enums : List EnumDeclaration) (nested : List MessageClass) : Scope :=
  classScope.extend ((nestedMembers enums nested).map Member.name)

/-- The parts of the class of a message. -/
def classParts (context : Context) (place : Place) (message : MessageType) :
    Except Error ClassParts := do
  let identifier ← typeIdentifier message.name
  let enums ← message.nestedEnums.mapM enumDeclaration
  let nested ← (generateMessages context (place.inside message identifier)
    message.nestedMessages).result
  let className := nestedIn place.parentClass identifier
  let plan ← ClassPlan.make context className (place.fullName message)
    (memberNamesScope enums nested) message
  return { identifier, className, enums, nested, plan }

/-- The members for the types nested in the message. -/
def ClassParts.typeMembers (parts : ClassParts) : List Member :=
  nestedMembers parts.enums parts.nested

/-- The members that the fields and oneofs declare. -/
def ClassParts.derivedMembers (parts : ClassParts) : List Member :=
  parts.plan.flatMapSlots FieldPlan.declarations OneofPlan.declarations

/-- The methods that every class has, as members. -/
def ClassParts.lifecycleMembers (parts : ClassParts) : List Member :=
  parts.plan.methods.map ClassMethod.member

/-- All members of the class. -/
def ClassParts.members (parts : ClassParts) : List Member :=
  parts.typeMembers ++ parts.derivedMembers ++ parts.lifecycleMembers

/-- The implementations of the methods of the class itself. -/
def ClassParts.ownImplementation (parts : ClassParts) : List (Implementation Action Expr) :=
  parts.plan.flatMapSlots FieldPlan.implementations OneofPlan.implementations
    ++ parts.plan.methods.map (ClassMethod.implementation parts.className)

/-- The class made of its parts. -/
def ClassParts.assemble (parts : ClassParts) (shownName : String) : MessageClass :=
  { name := parts.identifier
    comment := summaryComment ("Protobuf message <c>" ++ shownName ++ "</c>.")
    members := parts.members
    implementation := parts.nested.flatMap MessageClass.implementation ++ parts.ownImplementation
    uses := addUnits (addUnits [] (parts.nested.flatMap MessageClass.uses))
      (parts.plan.flatMapSlots FieldPlan.units fun _ => []) }

/-- The class of a message from its identifier and its nested types is made of its parts. -/
theorem assembleClass_eq (context : Context) (place : Place) (identifier : String)
    (enums : List EnumDeclaration) (nested : List MessageClass) (message : MessageType) :
    assembleClass context place identifier enums nested message = (do
      let className := nestedIn place.parentClass identifier
      let plan ← ClassPlan.make context className (place.fullName message)
        (memberNamesScope enums nested) message
      let parts : ClassParts := { identifier, className, enums, nested, plan }
      checkUniqueFrom (place.shownName message) [] parts.members
      return parts.assemble (place.shownName message)) := by
  unfold assembleClass
  refine congrArg (Except.bind _) (funext fun plan => ?_)
  simp only [ClassParts.members, ClassParts.typeMembers, ClassParts.derivedMembers,
    ClassParts.lifecycleMembers, ClassParts.assemble, ClassParts.ownImplementation,
    Place.shownName, Place.fullName, List.append_assoc]

/-- **A class is made of its parts, provided that no two members clash.** -/
theorem generateMessage_result (context : Context) (place : Place) (message : MessageType) :
    (generateMessage context place message).result = (do
      let parts ← classParts context place message
      checkUniqueFrom (place.shownName message) [] parts.members
      return parts.assemble (place.shownName message)) := by
  obtain ⟨name, fields, oneofs, nestedMessages, nestedEnums⟩ := message
  rw [generateMessage]
  simp only [Traced.result_bind, Traced.monadLift_eq, Traced.result_silent, Traced.result_note,
    assembleClass_eq, classParts, bind_assoc, pure_bind]
  rfl

/-! ### The comparison of the members -/

/-- The names that members declare, announced classes apart. -/
def declaredNames (members : List Member) : List String :=
  (members.filter fun member => !member.isForward).map Member.name

theorem declaredNames_append (left right : List Member) :
    declaredNames (left ++ right) = declaredNames left ++ declaredNames right := by
  rw [declaredNames, List.filter_append, List.map_append, declaredNames, declaredNames]

/-- Members of which none announces a class declare all their names. -/
theorem declaredNames_eq_map {members : List Member}
    (proper : ∀ member ∈ members, member.isForward = false) :
    declaredNames members = members.map Member.name := by
  rw [declaredNames, List.filter_eq_self.mpr]
  intro member inside
  rw [proper member inside, Bool.not_false]

/-- **The comparison succeeds exactly if the declared names are apart** from each other and from
those seen before. -/
theorem checkUniqueFrom_eq_ok {messageName : String} {seen : List String} {members : List Member} :
    checkUniqueFrom messageName seen members = .ok () ↔
      Apart (declaredNames members) ∧ ∀ name ∈ declaredNames members, Text.fold name ∉ seen := by
  induction members generalizing seen with
  | nil => simp [checkUniqueFrom, declaredNames, Apart]
  | cons member rest ih =>
    rw [checkUniqueFrom]
    by_cases forward : member.isForward
    · have dropped : declaredNames (member :: rest) = declaredNames rest := by
        simp [declaredNames, forward]
      rw [if_pos forward, ih, dropped]
    · have kept : declaredNames (member :: rest) = member.name :: declaredNames rest := by
        simp [declaredNames, forward]
      rw [if_neg forward, kept]
      by_cases known : Text.fold member.name ∈ seen
      · rw [if_pos (List.contains_iff_mem.mpr known)]
        simp [known]
      · rw [if_neg fun contained => known (List.contains_iff_mem.mp contained), ih,
          List.forall_mem_cons]
        simp only [Apart, List.map_cons, List.nodup_cons, List.mem_map, List.mem_cons,
          not_or, not_exists, not_and]
        constructor
        · rintro ⟨apart, separate⟩
          exact ⟨⟨fun name inside => (separate name inside).1, apart⟩, known,
            fun name inside => (separate name inside).2⟩
        · rintro ⟨⟨different, apart⟩, -, separate⟩
          exact ⟨apart, fun name inside => ⟨different name inside, separate name inside⟩⟩

/-- A class has parts whose declared names are apart, and it is made of them. -/
theorem generateMessage_eq_ok {context : Context} {place : Place} {message : MessageType}
    {generated : MessageClass} :
    (generateMessage context place message).result = .ok generated ↔
      ∃ parts, classParts context place message = .ok parts ∧
        Apart (declaredNames parts.members) ∧
        generated = parts.assemble (place.shownName message) := by
  rw [generateMessage_result, bind_eq_ok]
  refine exists_congr fun parts => and_congr_right fun _ => ?_
  rw [bind_eq_ok]
  constructor
  · rintro ⟨⟨⟩, unique, made⟩
    exact ⟨(checkUniqueFrom_eq_ok.mp unique).1, (pure_eq_ok.mp made).symm⟩
  · rintro ⟨apart, rfl⟩
    exact ⟨(), checkUniqueFrom_eq_ok.mpr ⟨apart, fun _ _ => List.not_mem_nil⟩, rfl⟩

theorem generateMessages_result (context : Context) (place : Place) (messages : List MessageType) :
    (generateMessages context place messages).result =
      messages.mapM fun message => (generateMessage context place message).result := by
  induction messages with
  | nil =>
    rw [generateMessages, List.mapM_nil]
    rfl
  | cons message rest ih =>
    rw [generateMessages, List.mapM_cons, Traced.result_bind]
    refine bind_congr fun first => ?_
    rw [Traced.result_bind, ih]
    rfl

/-- What holds of a message whenever it holds of the messages nested in it holds of all messages. -/
theorem nested_induction {motive : MessageType → Prop}
    (step : ∀ message, (∀ inner ∈ message.nestedMessages, motive inner) → motive message)
    (message : MessageType) : motive message :=
  step message fun inner _ => nested_induction step inner
termination_by message
decreasing_by
  have smaller := List.sizeOf_lt_of_mem ‹inner ∈ message.nestedMessages›
  cases message
  dsimp only at smaller
  simp only [MessageType.mk.sizeOf_spec]
  omega

/-! ### What is known of the parts -/

/-- What the parts of the class of a message are. -/
structure ClassParts.PartsOf (parts : ClassParts) (context : Context) (place : Place)
    (message : MessageType) : Prop where
  identifier : typeIdentifier message.name = .ok parts.identifier
  className_eq : parts.className = nestedIn place.parentClass parts.identifier
  enums : message.nestedEnums.mapM enumDeclaration = .ok parts.enums
  nested : List.Forall₂ (fun inner generated => (generateMessage context
    (place.inside message parts.identifier) inner).result = .ok generated)
    message.nestedMessages parts.nested
  planned : ClassPlan.make context parts.className (place.fullName message)
    (memberNamesScope parts.enums parts.nested) message = .ok parts.plan

/-- Parts of a class are parts of the class of a message. -/
theorem classParts_eq_ok {context : Context} {place : Place} {message : MessageType}
    {parts : ClassParts} :
    classParts context place message = .ok parts ↔ parts.PartsOf context place message := by
  constructor
  · intro found
    obtain ⟨identifier, named, found⟩ := bind_eq_ok.mp found
    obtain ⟨enums, declared, found⟩ := bind_eq_ok.mp found
    obtain ⟨nested, generated, found⟩ := bind_eq_ok.mp found
    rw [generateMessages_result, mapM_eq_ok] at generated
    obtain ⟨plan, planned, found⟩ := bind_eq_ok.mp found
    rw [pure_eq_ok] at found
    subst found
    exact ⟨named, rfl, declared, generated, planned⟩
  · rintro ⟨named, className_eq, declared, generated, planned⟩
    rw [className_eq] at planned
    rw [← mapM_eq_ok, ← generateMessages_result] at generated
    refine bind_eq_ok.mpr ⟨_, named, bind_eq_ok.mpr ⟨_, declared, bind_eq_ok.mpr ⟨_, generated,
      bind_eq_ok.mpr ⟨_, planned, ?_⟩⟩⟩⟩
    rw [pure_eq_ok, ← className_eq]

/-- **The plan among the parts covers the fields and the oneofs of the message.** -/
theorem ClassParts.PartsOf.covers {parts : ClassParts} {context : Context} {place : Place}
    {message : MessageType} (of : parts.PartsOf context place message) :
    parts.plan.Covers parts.className (memberNamesScope parts.enums parts.nested) message :=
  make_covers of.planned

end ProtoPascal.Message
