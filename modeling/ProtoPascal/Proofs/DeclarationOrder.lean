import ProtoPascal.Proofs.TypeReferences

/-!
The order of declarations in generated units. A unit announces its classes before it declares them,
and so does each class with the classes in it. A path into a class needs more: what is inside a class
is not known before the declaration of the class has begun.

* `available_iff_not_later`: when a type can be mentioned in a class by its path;
* `path_into_announced_class`: a class that mentions a type inside a class that is only announced.
-/

namespace ProtoPascal

open Message Naming Pascal
open Schema (EnumType MessageType)

/-! ### Reading a unit -/

/-- What a unit tells its reader, one after the other. -/
inductive Event where
  /-- A class is announced. -/
  | announces (path : List String)
  /-- An enumerated type is declared. -/
  | declares (path : List String)
  /-- The declaration of a class begins. -/
  | opens (path : List String)
  /-- A member of the class at a site mentions a type. -/
  | mentions (site : Site) (type : String)
deriving DecidableEq

/-- The types that an item mentions. -/
def Pascal.Item.types : Item → List String
  | .constant _ _ => []
  | .field _ typeName => [typeName]
  | .property _ typeName _ _ => [typeName]
  | .method declared => declared.parameters.map Parameter.typeName ++ declared.returnType.toList

mutual

/-- What a type at a site tells, inside classes with names. -/
def typeEvents (outer : List String) (site : Site) : TypeDeclaration → List Event
  | .forwardClass name => [.announces (outer ++ [name])]
  | .enumType declaration => [.declares (outer ++ [declaration.name])]
  | .classType name _ _ members =>
    .opens (outer ++ [name]) :: memberEvents (outer ++ [name]) site 0 members

/-- What the members of a class tell. Those that are only announced have no position. -/
def memberEvents (path : List String) (site : Site) (position : Nat) : List Member → List Event
  | [] => []
  | .item _ _ declared :: rest =>
    declared.types.map (.mentions site) ++ memberEvents path site (position + 1) rest
  | .nestedType _ _ declared :: rest =>
    typeEvents path (site ++ [position]) declared ++
      memberEvents path site (if declared.isForward then position else position + 1) rest

end

/-- What types tell that follow each other. -/
def typeListEvents (outer : List String) (site : Site) (position : Nat) :
    List TypeDeclaration → List Event
  | [] => []
  | type :: rest =>
    typeEvents outer (site ++ [position]) type ++
      typeListEvents outer site (if type.isForward then position else position + 1) rest

/-- What a unit tells. -/
def unitEvents (unit : CodeUnit) : List Event :=
  typeListEvents [] [] 0 unit.types

/-- A type is announced or declared. -/
def Known (before : List Event) (path : List String) : Prop :=
  .announces path ∈ before ∨ .declares path ∈ before ∨ .opens path ∈ before

instance (before : List Event) (path : List String) : Decidable (Known before path) :=
  inferInstanceAs (Decidable (_ ∨ _ ∨ _))

/-- A path can be mentioned: its first segment is known, and if there are more, then the declaration
of the class with this name has begun, and the rest of the path can be mentioned in it. -/
def Available (before : List Event) (outer : List String) : List String → Prop
  | [] => True
  | segment :: rest => Known before (outer ++ [segment]) ∧
      (rest = [] ∨ .opens (outer ++ [segment]) ∈ before ∧ Available before (outer ++ [segment]) rest)

/-- The way to a type parts from the way to a site at a class that comes later, and goes into this
class. -/
def Later : Site → Site → Prop
  | position :: rest, position' :: rest' =>
    position < position' ∧ rest' ≠ [] ∨ position = position' ∧ Later rest rest'
  | _, _ => False

instance decidableAvailable (before : List Event) :
    ∀ outer path, Decidable (Available before outer path)
  | _, [] => isTrue trivial
  | outer, segment :: rest =>
    have := decidableAvailable before (outer ++ [segment]) rest
    inferInstanceAs (Decidable (_ ∧ (_ ∨ _ ∧ _)))

instance decidableLater : ∀ site target, Decidable (Later site target)
  | _ :: rest, _ :: rest' =>
    have := decidableLater rest rest'
    inferInstanceAs (Decidable (_ ∧ _ ∨ _ ∧ _))
  | [], _ => isFalse id
  | _ :: _, [] => isFalse id

/-! ### Events in their order -/

/-- What was read before a member mentions a type meets a condition, for all members. -/
def Throughout (condition : List Event → Site → Prop) (before events : List Event) : Prop :=
  ∀ front site type back, events = front ++ .mentions site type :: back →
    condition (before ++ front) site

section

variable {condition condition' : List Event → Site → Prop} {before events events' : List Event}

theorem throughout_of_not_mem (silent : ∀ site type, .mentions site type ∉ events) :
    Throughout condition before events := by
  rintro front site type back rfl
  exact absurd (List.mem_append_right _ (List.mem_cons_self ..)) (silent site type)

theorem Throughout.append (first : Throughout condition before events)
    (second : Throughout condition (before ++ events) events') :
    Throughout condition before (events ++ events') := by
  intro front site type back split
  rcases List.append_eq_append_iff.mp split with ⟨middle, rfl, later⟩ | ⟨middle, rfl, earlier⟩
  · rw [← List.append_assoc]
    exact second middle site type back later
  · cases middle with
    | nil =>
      have later : events' = [] ++ .mentions site type :: back := earlier.symm
      have found := second [] site type back later
      rwa [List.append_nil, List.append_nil] at found
    | cons event middle =>
      cases earlier
      exact first front site type middle rfl

/-- A condition that holds before each mention may use all that was read from the start on. -/
theorem Throughout.imp (throughout : Throughout condition before events)
    (weaker : ∀ front site, front <+: events → condition (before ++ front) site →
      condition' (before ++ front) site) : Throughout condition' before events := by
  intro front site type back split
  exact weaker front site ⟨_, split.symm⟩ (throughout front site type back split)

end

theorem Known.mono {before later : List Event} (more : before ⊆ later) {path : List String}
    (known : Known before path) : Known later path :=
  known.imp (@more _) (Or.imp (@more _) (@more _))

/-! ### Blocks of types -/

/-- What classes tell that follow each other. -/
def classEvents (outer : List String) (site : Site) (position : Nat) :
    List MessageClass → List Event
  | [] => []
  | generated :: rest => typeEvents outer (site ++ [position]) generated.declaration ++
      classEvents outer site (position + 1) rest

/-- What makes the names of types known: enumerations and announcements of classes. -/
def announcements (outer : List String) (declarations : List EnumDeclaration)
    (classes : List MessageClass) : List Event :=
  declarations.map (fun declaration => .declares (outer ++ [declaration.name]))
    ++ classes.map fun generated => .announces (outer ++ [generated.name])

/-- What enumerations and classes tell: first they make their names known, and then the classes
follow. -/
def blockEvents (outer : List String) (site : Site) (declarations : List EnumDeclaration)
    (classes : List MessageClass) : List Event :=
  announcements outer declarations classes ++ classEvents outer site declarations.length classes

section

variable (outer : List String) (site : Site)

theorem typeListEvents_append (position : Nat) (left right : List TypeDeclaration) :
    typeListEvents outer site position (left ++ right) = typeListEvents outer site position left ++
      typeListEvents outer site
        (position + (left.filter fun type => !type.isForward).length) right := by
  induction left generalizing position with
  | nil => rfl
  | cons type rest ih =>
    rw [List.cons_append, typeListEvents, typeListEvents, ih, List.append_assoc, List.filter_cons]
    cases type.isForward with
    | true => rfl
    | false =>
      rw [if_neg Bool.false_ne_true, Bool.not_false, if_pos rfl, List.length_cons, Nat.add_assoc,
        Nat.add_comm 1]

theorem typeListEvents_enums (position : Nat) (declarations : List EnumDeclaration) :
    typeListEvents outer site position (declarations.map .enumType) =
      declarations.map fun declaration => .declares (outer ++ [declaration.name]) := by
  induction declarations generalizing position with
  | nil => rfl
  | cons declaration rest ih =>
    rw [List.map_cons, typeListEvents, ih, typeEvents]
    rfl

theorem typeListEvents_forward (position : Nat) (classes : List MessageClass) :
    typeListEvents outer site position
        (classes.map fun generated => .forwardClass generated.name) =
      classes.map fun generated => .announces (outer ++ [generated.name]) := by
  induction classes generalizing position with
  | nil => rfl
  | cons generated rest ih =>
    rw [List.map_cons, typeListEvents, ih, typeEvents]
    rfl

theorem typeListEvents_classes (position : Nat) (classes : List MessageClass) :
    typeListEvents outer site position (classes.map MessageClass.declaration) =
      classEvents outer site position classes := by
  induction classes generalizing position with
  | nil => rfl
  | cons generated rest ih =>
    rw [List.map_cons, typeListEvents, classEvents, ih]
    rfl

/-- The types of a unit, and those in a class, tell what enumerations and classes tell. -/
theorem typeListEvents_unitTypes (declarations : List EnumDeclaration)
    (classes : List MessageClass) :
    typeListEvents outer site 0 (unitTypes declarations classes) =
      blockEvents outer site declarations classes := by
  have counted : ((declarations.map TypeDeclaration.enumType ++
      classes.map fun generated => TypeDeclaration.forwardClass generated.name).filter
        fun type => !type.isForward).length = declarations.length := by
    simp [List.filter_append, List.filter_map, Function.comp_def, TypeDeclaration.isForward]
  rw [unitTypes, typeListEvents_append, typeListEvents_append, typeListEvents_enums,
    typeListEvents_forward, typeListEvents_classes, counted, Nat.zero_add]
  rfl

theorem memberEvents_nested (position : Nat) (types : List TypeDeclaration) (rest : List Member) :
    ∃ position', memberEvents outer site position
      (types.map (.nestedType .publicSection []) ++ rest) =
        typeListEvents outer site position types ++ memberEvents outer site position' rest := by
  induction types generalizing position with
  | nil => exact ⟨position, rfl⟩
  | cons type types ih =>
    obtain ⟨position', same⟩ := ih (if type.isForward then position else position + 1)
    refine ⟨position', ?_⟩
    rw [List.map_cons, List.cons_append, memberEvents, same, typeListEvents, List.append_assoc]

end

/-- A class tells what the types in it tell, and then what its other members do. -/
theorem memberEvents_members (path : List String) (site : Site) (parts : ClassParts) :
    ∃ position, memberEvents path site 0 parts.members =
      blockEvents path site parts.enums parts.nested ++
        memberEvents path site position (parts.derivedMembers ++ parts.lifecycleMembers) := by
  have types : parts.typeMembers =
      (unitTypes parts.enums parts.nested).map (.nestedType .publicSection []) := by
    simp only [ClassParts.typeMembers, nestedMembers, unitTypes, List.map_append, List.map_map,
      Function.comp_def]
  obtain ⟨position, same⟩ := memberEvents_nested path site 0 (unitTypes parts.enums parts.nested)
    (parts.derivedMembers ++ parts.lifecycleMembers)
  rw [← typeListEvents_unitTypes, ClassParts.members, List.append_assoc, types]
  exact ⟨position, same⟩

mutual

/-- A type opens no other classes than itself and those in it. -/
theorem opens_of_typeEvents {path : List String} : ∀ (declaration : TypeDeclaration)
    {outer : List String} {site : Site}, .opens path ∈ typeEvents outer site declaration →
      ∃ rest, path = outer ++ declaration.name :: rest
  | .forwardClass _, _, _, inside => by simp [typeEvents] at inside
  | .enumType _, _, _, inside => by simp [typeEvents] at inside
  | .classType name _ _ members, outer, site, inside => by
    rw [typeEvents, List.mem_cons] at inside
    rcases inside with same | deeper
    · cases same
      exact ⟨[], rfl⟩
    · obtain ⟨segment, rest, rfl⟩ := opens_of_memberEvents members deeper
      exact ⟨segment :: rest, by rw [List.append_assoc]; rfl⟩

/-- The members of a class open no other classes than those in it. -/
theorem opens_of_memberEvents {path : List String} : ∀ (members : List Member)
    {outer : List String} {site : Site} {position : Nat},
    .opens path ∈ memberEvents outer site position members →
      ∃ segment rest, path = outer ++ segment :: rest
  | [], _, _, _, inside => by simp [memberEvents] at inside
  | .item _ _ _ :: members, _, _, _, inside => by
    rw [memberEvents, List.mem_append] at inside
    rcases inside with mentioned | later
    · simp at mentioned
    · exact opens_of_memberEvents members later
  | .nestedType _ _ declared :: members, _, _, _, inside => by
    rw [memberEvents, List.mem_append] at inside
    rcases inside with here | later
    · exact ⟨_, opens_of_typeEvents declared here⟩
    · exact opens_of_memberEvents members later

end

theorem classEvents_append (outer : List String) (site : Site) (position : Nat)
    (left right : List MessageClass) :
    classEvents outer site position (left ++ right) = classEvents outer site position left ++
      classEvents outer site (position + left.length) right := by
  induction left generalizing position with
  | nil => rfl
  | cons generated rest ih =>
    rw [List.cons_append, classEvents, classEvents, ih, List.append_assoc, List.length_cons,
      Nat.add_assoc, Nat.add_comm 1]

theorem subset_classEvents {outer : List String} {site : Site} {classes : List MessageClass}
    {position index : Nat} {generated : MessageClass} (found : classes[index]? = some generated) :
    typeEvents outer (site ++ [position + index]) generated.declaration ⊆
      classEvents outer site position classes := by
  induction classes generalizing position index with
  | nil => cases found
  | cons first rest ih =>
    rw [classEvents]
    cases index with
    | zero =>
      cases found
      exact fun event inside => List.mem_append_left _ inside
    | succ index =>
      have later : typeEvents outer (site ++ [position + 1 + index]) generated.declaration ⊆
        classEvents outer site (position + 1) rest := ih found
      rw [Nat.add_right_comm] at later
      exact fun event inside => List.mem_append_right _ (later inside)

theorem opens_of_classEvents {path outer : List String} {site : Site} {classes : List MessageClass}
    {position : Nat} (inside : .opens path ∈ classEvents outer site position classes) :
    ∃ generated ∈ classes, ∃ rest, path = outer ++ generated.name :: rest := by
  induction classes generalizing position with
  | nil => cases inside
  | cons generated rest ih =>
    rw [classEvents, List.mem_append] at inside
    rcases inside with here | later
    · exact ⟨generated, List.mem_cons_self .., opens_of_typeEvents generated.declaration here⟩
    · obtain ⟨other, other_inside, known⟩ := ih later
      exact ⟨other, List.mem_cons_of_mem _ other_inside, known⟩

theorem typeEvents_assemble (outer : List String) (site : Site) (parts : ClassParts)
    (shownName : String) :
    typeEvents outer site (parts.assemble shownName).declaration =
      .opens (outer ++ [parts.identifier]) ::
        memberEvents (outer ++ [parts.identifier]) site 0 parts.members := by
  rw [MessageClass.declaration, typeEvents]
  rfl

/-! ### Types that can be mentioned -/

theorem not_later_singleton (site : Site) (position : Nat) : ¬ Later site [position] := by
  intro later
  cases site with
  | nil => exact later
  | cons first rest =>
    rcases later with ⟨-, deeper⟩ | ⟨-, later⟩
    · exact deeper rfl
    · cases rest <;> exact later

theorem not_later_of_lt {position position' : Nat} (less : position' < position) (rest rest' : Site) :
    ¬ Later (position :: rest) (position' :: rest') := by
  rintro (⟨more, -⟩ | ⟨same, -⟩) <;> omega

theorem later_cons_iff {position : Nat} {rest rest' : Site} :
    Later (position :: rest) (position :: rest') ↔ Later rest rest' := by
  refine ⟨fun later => ?_, fun later => .inr ⟨rfl, later⟩⟩
  rcases later with ⟨less, -⟩ | ⟨-, later⟩
  · exact absurd less (Nat.lt_irrefl position)
  · exact later

section

variable {context : Context} {place : Place} {enums : List EnumType} {messages : List MessageType}
  {declarations : List EnumDeclaration} {classes : List MessageClass}
  (declared : EnumsDeclared enums declarations)
  (generated : ClassesMade context place messages classes) (outer : List String)

include declared in
/-- Enumerations are declared before all classes. -/
theorem known_enumeration {position : Nat} {enumType : EnumType} {identifier : String}
    (found : enums[position]? = some enumType)
    (named : typeIdentifier enumType.name = .ok identifier) :
    Known (announcements outer declarations classes) (outer ++ [identifier]) := by
  obtain ⟨declaration, declaration_found, success⟩ := exists_left_getElem? declared.flip found
  cases Except.ok.inj ((enumDeclaration_name success).symm.trans named)
  exact .inr (.inl (List.mem_append_left _
    (List.mem_map.mpr ⟨declaration, List.mem_of_getElem? declaration_found, rfl⟩)))

include generated in
/-- Classes are announced before all of them are declared. -/
theorem known_message {position : Nat} {message : MessageType} {identifier : String}
    (found : messages[position]? = some message)
    (named : typeIdentifier message.name = .ok identifier) :
    Known (announcements outer declarations classes) (outer ++ [identifier]) := by
  obtain ⟨result, result_found, success⟩ := exists_left_getElem? generated.flip found
  cases Except.ok.inj ((generateMessage_name success).symm.trans named)
  exact .inl (List.mem_append_right _
    (List.mem_map.mpr ⟨result, List.mem_of_getElem? result_found, rfl⟩))

/-- A class that was read was opened, and what a class tells is what the types in it tell first. -/
theorem told_of_class {result : MessageClass} {message : MessageType} {parts : ClassParts}
    (made : result = parts.assemble (place.shownName message)) {site : Site} {events : List Event}
    (told : typeEvents outer site result.declaration ⊆ events) :
    .opens (outer ++ [parts.identifier]) ∈ events ∧
      blockEvents (outer ++ [parts.identifier]) site parts.enums parts.nested ⊆ events := by
  obtain ⟨_, members⟩ := memberEvents_members (outer ++ [parts.identifier]) site parts
  rw [made, typeEvents_assemble, members] at told
  exact ⟨told (List.mem_cons_self ..), fun event within =>
    told (List.mem_cons_of_mem _ (List.mem_append_left _ within))⟩

include declared generated in
/-- **After a block all its types can be mentioned**, at any depth. -/
theorem available_of_declares {scope fullName : String} {target : Site} {path : List String}
    (declares : Declares scope enums messages target path fullName) {site : Site}
    {events : List Event} (told : blockEvents outer site declarations classes ⊆ events) :
    Available events outer path := by
  induction declares generalizing place declarations classes outer site with
  | enumeration found named =>
    exact ⟨(known_enumeration declared outer found named).mono
      fun event inside => told (List.mem_append_left _ inside), .inl rfl⟩
  | message found named =>
    exact ⟨(known_message generated outer found named).mono
      fun event inside => told (List.mem_append_left _ inside), .inl rfl⟩
  | nested found named deeper ih =>
    obtain ⟨result, result_found, success⟩ := exists_left_getElem? generated.flip found
    obtain ⟨parts, made, -, assembled⟩ := generateMessage_eq_ok.mp success
    have of := classParts_eq_ok.mp made
    cases Except.ok.inj (of.identifier.symm.trans named)
    obtain ⟨opened, block⟩ := told_of_class outer assembled fun event inside =>
      told (List.mem_append_right _ (subset_classEvents result_found inside))
    exact ⟨(known_message generated outer found named).mono
      fun event inside => told (List.mem_append_left _ inside),
      .inr ⟨opened, ih (mapM_eq_ok.mp of.enums) of.nested _ block⟩⟩

end

/-! ### Classes at their places -/

/-- No class inside other classes was opened yet. -/
def Fresh (before : List Event) (outer : List String) : Prop :=
  ∀ segment rest, .opens (outer ++ segment :: rest) ∉ before

/-- What was read before the class at a position of a block. -/
def beforeClass (declarations : List EnumDeclaration) (classes : List MessageClass)
    (outer : List String) (site : Site) (before : List Event) (left : List MessageClass) :
    List Event :=
  before ++ announcements outer declarations classes ++
    classEvents outer site declarations.length left

/-- What was read when a class has told a part of what it tells. -/
def withinClass (declarations : List EnumDeclaration) (classes : List MessageClass)
    (outer : List String) (site : Site) (before : List Event) (left : List MessageClass)
    (result : MessageClass) (front : List Event) : List Event :=
  beforeClass declarations classes outer site before left ++ [.opens (outer ++ [result.name])] ++
    front

section

variable {context : Context} {place : Place} {messages : List MessageType}
  {declarations : List EnumDeclaration} {classes left right : List MessageClass}
  {result : MessageClass} {front : List Event}
  (generated : ClassesMade context place messages classes)
  (split : classes = left ++ result :: right) (outer : List String) (site : Site)
  (before : List Event) (fresh : Fresh before outer)
  (nodup : (classes.map MessageClass.name).Nodup)

include fresh in
/-- The classes that were opened before the class at a position of a block are those before it, and
the classes in them. -/
theorem exists_opened {segment : String} {rest : List String}
    (opened : .opens (outer ++ segment :: rest) ∈
      beforeClass declarations classes outer site before left) :
    ∃ earlier ∈ left, earlier.name = segment := by
  rw [beforeClass, List.mem_append, List.mem_append] at opened
  rcases opened with (start | announced) | earlier
  · exact absurd start (fresh segment rest)
  · simp [announcements] at announced
  · obtain ⟨generated, inside, _, same⟩ := opens_of_classEvents earlier
    exact ⟨generated, inside, (List.cons.inj (List.append_cancel_left same)).1.symm⟩

include split nodup in
theorem name_ne_of_split :
    (∀ earlier ∈ left, earlier.name ≠ result.name) ∧
      ∀ later ∈ right, later.name ≠ result.name ∧ ∀ earlier ∈ left, earlier.name ≠ later.name := by
  rw [split, List.map_append, List.map_cons, List.nodup_append, List.nodup_cons] at nodup
  obtain ⟨-, ⟨other, -⟩, differ⟩ := nodup
  refine ⟨fun earlier inside => differ _ (List.mem_map_of_mem inside) _ (List.mem_cons_self ..),
    fun later inside => ⟨fun same => other (same ▸ List.mem_map_of_mem inside), ?_⟩⟩
  exact fun earlier before => differ _ (List.mem_map_of_mem before) _
    (List.mem_cons_of_mem _ (List.mem_map_of_mem inside))

include split fresh nodup in
/-- When the declaration of a class begins, the classes in it were not opened. -/
theorem fresh_inside : Fresh (beforeClass declarations classes outer site before left ++
    [.opens (outer ++ [result.name])]) (outer ++ [result.name]) := by
  intro segment rest opened
  rw [List.append_assoc, List.singleton_append] at opened
  rcases List.mem_append.mp opened with earlier | here
  · obtain ⟨other, inside, same⟩ := exists_opened outer site before fresh earlier
    exact (name_ne_of_split split nodup).1 other inside same
  · simp at here

theorem announcements_subset : announcements outer declarations classes ⊆
    withinClass declarations classes outer site before left result front := by
  intro event inside
  simp only [withinClass, beforeClass, List.mem_append]
  exact .inl (.inl (.inl (.inr inside)))

include generated split in
/-- While a class is read, the types inside the classes before it can be mentioned. -/
theorem available_earlier {index : Nat} {message : MessageType}
    (found : messages[index]? = some message) (earlier : index < left.length)
    {scope fullName identifier : String} {target : Site} {path : List String}
    (named : typeIdentifier message.name = .ok identifier)
    (deeper : Declares scope message.nestedEnums message.nestedMessages target path fullName) :
    .opens (outer ++ [identifier]) ∈
        withinClass declarations classes outer site before left result front ∧
      Available (withinClass declarations classes outer site before left result front)
        (outer ++ [identifier]) path := by
  obtain ⟨other, other_found, success⟩ := exists_left_getElem? generated.flip found
  rw [split, List.getElem?_append_left earlier] at other_found
  obtain ⟨parts, made, -, assembled⟩ := generateMessage_eq_ok.mp success
  have of := classParts_eq_ok.mp made
  cases Except.ok.inj (of.identifier.symm.trans named)
  obtain ⟨opened, block⟩ := told_of_class outer assembled fun event told =>
    List.mem_append_left front (List.mem_append_left _ (List.mem_append_right _
      (subset_classEvents other_found told)))
  exact ⟨opened, available_of_declares (mapM_eq_ok.mp of.enums) of.nested _ deeper block⟩

include generated split fresh nodup in
/-- While a class is read, the classes after it were not opened. -/
theorem not_opened_later {index : Nat} {message : MessageType}
    (found : messages[index]? = some message) (after : left.length < index) {identifier : String}
    (named : typeIdentifier message.name = .ok identifier)
    (within : ∀ path, .opens path ∈ front →
      ∃ segment rest, path = outer ++ [result.name] ++ segment :: rest) :
    .opens (outer ++ [identifier]) ∉
      withinClass declarations classes outer site before left result front := by
  obtain ⟨later, later_found, success⟩ := exists_left_getElem? generated.flip found
  cases Except.ok.inj ((generateMessage_name success).symm.trans named)
  have inside : later ∈ right := by
    rw [split, List.getElem?_append_right (Nat.le_of_lt after), List.getElem?_cons,
      if_neg (Nat.sub_ne_zero_of_lt after)] at later_found
    exact List.mem_of_getElem? later_found
  obtain ⟨other, others⟩ := (name_ne_of_split split nodup).2 later inside
  intro opened
  rw [withinClass, List.mem_append, List.mem_append] at opened
  rcases opened with (earlier | here) | deeper
  · obtain ⟨earlier, before_it, same⟩ := exists_opened outer site before fresh earlier
    exact others earlier before_it same
  · exact other (by simpa using here)
  · obtain ⟨segment, rest, same⟩ := within _ deeper
    rw [List.append_assoc] at same
    exact other (List.cons.inj (List.append_cancel_left same)).1

end

/-! ### Types that can be mentioned in their order -/

/-- At a site inside a block the types of the block can be mentioned exactly if they are not in a
class that comes later. That they cannot be mentioned otherwise needs that names are distinct. -/
def Ordered (enums : List EnumType) (messages : List MessageType) (outer : List String) (site : Site)
    (distinct : Prop) (now : List Event) (here : Site) : Prop :=
  ∃ relative, here = site ++ relative ∧ ∀ scope target path fullName,
    Declares scope enums messages target path fullName →
      (¬ Later relative target → Available now outer path) ∧
        (distinct → Available now outer path → ¬ Later relative target)

/-- The members of the class of a message mention types in this order. -/
def ClassOrdered (context : Context) (message : MessageType) : Prop :=
  ∀ {place : Place} {parts : ClassParts}, classParts context place message = .ok parts →
    Apart (declaredNames parts.members) → ∀ outer site before,
      Throughout (Ordered message.nestedEnums message.nestedMessages (outer ++ [parts.identifier])
        site (Fresh before (outer ++ [parts.identifier]))) before
        (memberEvents (outer ++ [parts.identifier]) site 0 parts.members)

section

variable {context : Context} {place : Place} {enums : List EnumType} {messages : List MessageType}
  {declarations : List EnumDeclaration} {classes : List MessageClass}
  (declared : EnumsDeclared enums declarations)
  (generated : ClassesMade context place messages classes)
  (outer : List String) (site : Site) (before : List Event)

include declared generated in
/-- **One class of a block**, if its members are in order. -/
theorem class_ordered {left right : List MessageClass} {result : MessageClass}
    (split : classes = left ++ result :: right)
    (each : ∀ message ∈ messages, ClassOrdered context message) :
    Throughout (Ordered enums messages outer site
        (Fresh before outer ∧ (classes.map MessageClass.name).Nodup))
      (beforeClass declarations classes outer site before left)
      (typeEvents outer (site ++ [declarations.length + left.length]) result.declaration) := by
  have at_left : classes[left.length]? = some result := by
    rw [split, List.getElem?_append_right (Nat.le_refl _), Nat.sub_self, List.getElem?_cons_zero]
  obtain ⟨message, found, success⟩ := exists_left_getElem? generated at_left
  obtain ⟨parts, made, apart, rfl⟩ := generateMessage_eq_ok.mp success
  have identified := (classParts_eq_ok.mp made).identifier
  rw [typeEvents_assemble, ← List.singleton_append]
  refine Throughout.append (throughout_of_not_mem (by simp)) ?_
  refine (each message (List.mem_of_getElem? found) made apart outer
    (site ++ [declarations.length + left.length]) _).imp ?_
  rintro front here part ⟨relative, rfl, inner⟩
  refine ⟨(declarations.length + left.length) :: relative, by rw [List.append_assoc]; rfl, ?_⟩
  intro scope target path fullName declares
  have announced : announcements outer declarations classes ⊆ withinClass declarations classes outer
      site before left (parts.assemble (place.shownName message)) front :=
    announcements_subset outer site before
  cases declares with
  | enumeration other_found named =>
    exact ⟨fun _ => ⟨(known_enumeration declared outer other_found named).mono announced, .inl rfl⟩,
      fun _ _ => not_later_singleton _ _⟩
  | message other_found named =>
    exact ⟨fun _ => ⟨(known_message generated outer other_found named).mono announced, .inl rfl⟩,
      fun _ _ => not_later_singleton _ _⟩
  | @nested _ _ _ _ index other identifier inside_site inside_path other_found named deeper =>
    have known := (known_message generated outer other_found named).mono announced
    rw [declared.length_eq]
    -- the class around the type was read as a whole, or is being read, or is only announced
    rcases Nat.lt_trichotomy index left.length with earlier | same | later
    · exact ⟨fun _ => ⟨known, .inr (available_earlier generated split outer site before other_found
        earlier named deeper)⟩, fun _ _ => not_later_of_lt (by omega) _ _⟩
    · subst same
      cases Option.some.inj (other_found.symm.trans found)
      cases Except.ok.inj (identified.symm.trans named)
      obtain ⟨sufficient, necessary⟩ := inner _ _ _ _ deeper
      rw [later_cons_iff]
      refine ⟨fun not_later => ⟨known, .inr ⟨by simp, sufficient not_later⟩⟩, ?_⟩
      rintro ⟨fresh, nodup⟩ ⟨-, ending | ⟨-, available⟩⟩
      · exact absurd ending deeper.path_ne_nil
      · exact necessary (fresh_inside split outer site before fresh nodup) available
    · have deep : inside_site ≠ [] := by
        cases deeper <;> exact List.cons_ne_nil _ _
      refine ⟨fun not_later => absurd (.inl ⟨by omega, deep⟩) not_later, ?_⟩
      rintro ⟨fresh, nodup⟩ ⟨-, ending | ⟨opened, -⟩⟩
      · exact absurd ending deeper.path_ne_nil
      · exact absurd opened (not_opened_later generated split outer site before fresh nodup
          other_found later named fun path inside =>
            opens_of_memberEvents _ (part.subset inside))

include declared generated in
/-- **The classes of a block in their order**: what was read before a class is what was read before
the one in front of it, and this one. -/
theorem classes_ordered (each : ∀ message ∈ messages, ClassOrdered context message)
    (left right : List MessageClass) (split : classes = left ++ right) :
    Throughout (Ordered enums messages outer site
        (Fresh before outer ∧ (classes.map MessageClass.name).Nodup))
      (beforeClass declarations classes outer site before left)
      (classEvents outer site (declarations.length + left.length) right) := by
  induction right generalizing left with
  | nil => exact throughout_of_not_mem fun _ _ => List.not_mem_nil
  | cons result right ih =>
    have rest := ih (left ++ [result]) (by rw [split, List.append_assoc]; rfl)
    have next : beforeClass declarations classes outer site before (left ++ [result]) =
        beforeClass declarations classes outer site before left ++
          typeEvents outer (site ++ [declarations.length + left.length]) result.declaration := by
      rw [beforeClass, classEvents_append, beforeClass, classEvents, classEvents, List.append_nil,
        List.append_assoc _ (classEvents ..)]
    rw [next, List.length_append, List.length_singleton, ← Nat.add_assoc] at rest
    exact (class_ordered declared generated outer site before split each).append rest

include declared generated in
/-- **A block of types**, if the members of its classes are in order. -/
theorem block_ordered (each : ∀ message ∈ messages, ClassOrdered context message) :
    Throughout (Ordered enums messages outer site
        (Fresh before outer ∧ (classes.map MessageClass.name).Nodup)) before
      (blockEvents outer site declarations classes) := by
  refine Throughout.append (throughout_of_not_mem fun _ _ => by simp [announcements]) ?_
  have all := classes_ordered declared generated outer site before each [] classes rfl
  rwa [beforeClass, classEvents, List.append_nil] at all

end

/-- Members without classes mention types at the site of their class. -/
theorem site_of_classless {path : List String} {site here : Site} {type : String} {position : Nat}
    {members : List Member} (classless : ∀ member ∈ members, isClass member = false)
    (inside : .mentions here type ∈ memberEvents path site position members) : here = site := by
  induction members generalizing position with
  | nil => simp [memberEvents] at inside
  | cons member rest ih =>
    obtain ⟨first, others⟩ := List.forall_mem_cons.mp classless
    rcases member with ⟨_, _, declared⟩ | ⟨_, _, _ | declaration | _⟩
    · rw [memberEvents, List.mem_append] at inside
      rcases inside with mentioned | later
      · obtain ⟨_, -, same⟩ := List.mem_map.mp mentioned
        cases same
        rfl
      · exact ih others later
    · cases first
    · rw [memberEvents, typeEvents, List.mem_append] at inside
      exact ih others (inside.resolve_left (by simp))
    · cases first

theorem nested_names_nodup {context : Context} {place : Place} {message : MessageType}
    {parts : ClassParts} (of : parts.PartsOf context place message)
    (apart : Apart (declaredNames parts.members)) :
    (parts.nested.map MessageClass.name).Nodup := by
  have names : parts.typeNames.Nodup :=
    List.Nodup.of_map _ ((declaredNames_apart_iff of).mp apart)
  exact (List.nodup_append.mp names).2.1

/-- **The members of every class**: first the types in it, and then its other members, for which all
of them were read. The induction is on the messages nested in each other. -/
theorem classOrdered (context : Context) (message : MessageType) :
    ClassOrdered context message := by
  induction message using nested_induction
  next message ih =>
  intro place parts made apart outer site before
  have of := classParts_eq_ok.mp made
  obtain ⟨position, members⟩ := memberEvents_members (outer ++ [parts.identifier]) site parts
  rw [members]
  refine Throughout.append ?_ ?_
  · refine (block_ordered (mapM_eq_ok.mp of.enums) of.nested _ site before ih).imp ?_
    rintro front here - ⟨relative, same, ordered⟩
    refine ⟨relative, same, fun scope target path fullName declares => ?_⟩
    obtain ⟨sufficient, necessary⟩ := ordered scope target path fullName declares
    exact ⟨sufficient, fun fresh => necessary ⟨fresh, nested_names_nodup of apart⟩⟩
  · intro front here type back split
    have inside : .mentions here type ∈ memberEvents (outer ++ [parts.identifier]) site position
        (parts.derivedMembers ++ parts.lifecycleMembers) := by
      rw [split]
      exact List.mem_append_right _ (List.mem_cons_self ..)
    have same := site_of_classless (List.forall_mem_append.mpr
      ⟨derivedMembers_classless parts, lifecycleMembers_classless parts⟩) inside
    refine ⟨[], by rw [same, List.append_nil], fun scope target path fullName declares => ?_⟩
    exact ⟨fun _ => available_of_declares (mapM_eq_ok.mp of.enums) of.nested _ declares
      fun event told => List.mem_append_left _ (List.mem_append_right _ told), fun _ _ => id⟩

/-! ### Units -/

/-- The first segment of the path of a type is made known before all classes. -/
theorem known_head {index : TypeIndex} {runtime : Runtime} {file : Schema.File} {unit : CodeUnit}
    {identifier : UnitIdentifier} {declarations : List EnumDeclaration} {classes : List MessageClass}
    (parts : UnitParts index runtime file unit identifier declarations classes)
    {scope fullName : String} {target : Site} {path : List String}
    (declares : Declares scope file.enums file.messages target path fullName) :
    ∀ first ∈ path.head?, Known (announcements [] declarations classes) [first] := by
  cases declares with
  | enumeration found named =>
    rintro first ⟨⟩
    exact known_enumeration parts.declared [] found named
  | message found named =>
    rintro first ⟨⟩
    exact known_message parts.made [] found named
  | nested found named =>
    rintro first ⟨⟩
    exact known_message parts.made [] found named

/-- **When types can be mentioned by their paths.** Wherever a member of a class mentions a type, the
first segment of the path of every type of the file is known. If the way to the type does not go into
a class that comes later, then the whole path can be mentioned. Otherwise it cannot, if no two types
at the level of the unit have one name. -/
theorem available_iff_not_later {index : TypeIndex} {runtime : Runtime} {file : Schema.File}
    {unit : CodeUnit} (generated : (generateUnit index runtime file).result = .ok unit)
    {before after : List Event} {site : Site} {type : String}
    (mention : unitEvents unit = before ++ .mentions site type :: after) {target : Site}
    {path : List String} {fullName : String}
    (declares : Declares file.scope file.enums file.messages target path fullName) :
    (∀ first ∈ path.head?, Known before [first]) ∧
      (¬ Later site target → Available before [] path) ∧
      (((typeNames unit.types).map Prod.fst).Nodup →
        (Available before [] path ↔ ¬ Later site target)) := by
  obtain ⟨identifier, declarations, classes, parts⟩ := generateUnit_parts generated
  have events : unitEvents unit = blockEvents [] [] declarations classes := by
    rw [unitEvents, parts.types, typeListEvents_unitTypes]
  rw [events] at mention
  have announced : Throughout (fun now _ => announcements [] declarations classes ⊆ now) []
      (blockEvents [] [] declarations classes) :=
    Throughout.append (throughout_of_not_mem fun _ _ => by simp [announcements])
      fun front _ _ _ _ => List.subset_append_left _ front
  obtain ⟨relative, rfl, ordered⟩ := block_ordered parts.declared parts.made [] [] []
    (fun message _ => classOrdered _ message) before _ type after mention
  obtain ⟨sufficient, necessary⟩ := ordered _ _ _ _ declares
  refine ⟨fun first head => (known_head parts declares first head).mono
    (announced before _ type after mention), sufficient, fun nodup => ⟨?_, sufficient⟩⟩
  refine necessary ⟨fun _ _ => List.not_mem_nil, ?_⟩
  rw [parts.types, typeNames_unitTypes, typeEntries, List.map_append, List.map_map,
    List.map_map] at nodup
  exact (List.nodup_append.mp nodup).2.1

/-! ### A class that is only announced -/

/-- A message with a field of a type that is nested in it. -/
def announcedMessage : MessageType :=
  { name := "Bar"
    fields := [{ name := "y", number := 1, type := .reference .message ".Bar.Baz" }]
    nestedMessages := [{ name := "Baz" }] }

/-- The message after another one with a field of the same type. -/
def announcedFile : Schema.File :=
  { name := "sample.proto"
    messages :=
      [{ name := "Foo"
         fields := [{ name := "x", number := 1, type := .reference .message ".Bar.Baz" }] },
       announcedMessage] }

/-- The index of the file. -/
def announcedIndex : TypeIndex :=
  { units := [("sample.proto", ⟨[], "uSample"⟩)]
    types :=
      [(".Foo", ⟨.message, "uSample", "TFoo"⟩), (".Bar.Baz", ⟨.message, "uSample", "TBar.TBaz"⟩),
       (".Bar", ⟨.message, "uSample", "TBar"⟩)] }

/-- What is read before the first class of the unit mentions the nested type. -/
def announcedEvents : List Event :=
  [.announces ["TFoo"], .announces ["TBar"], .opens ["TFoo"]]

theorem announcedFile_declares : Declares announcedFile.scope announcedFile.enums
    announcedFile.messages [1, 0] ["TBar", "TBaz"] ".Bar.Baz" := by
  have outer : announcedFile.messages[1]? = some announcedMessage := rfl
  have inner : announcedMessage.nestedMessages[0]? = some { name := "Baz" } := rfl
  have named : typeIdentifier "Baz" = .ok "TBaz" := by decide +kernel
  exact .nested outer typeIdentifier_bar (.message inner named)

/-- Both classes of the unit mention the nested type. -/
theorem announcedFile_generated :
    ∃ unit after before' after',
      (generateUnit announcedIndex .reference announcedFile).result = .ok unit ∧
      ((typeNames unit.types).map Prod.fst).Nodup ∧
      unitEvents unit = announcedEvents ++ .mentions [0] "TBar.TBaz" :: after ∧
      unitEvents unit = before' ++ .mentions [1] "TBar.TBaz" :: after' := by
  have evaluated : (do
      let unit ← (generateUnit announcedIndex .reference announcedFile).result
      return (decide ((typeNames unit.types).map Prod.fst).Nodup, (unitEvents unit).take 4,
        decide (Event.mentions [1] "TBar.TBaz" ∈ unitEvents unit))) =
          .ok (true, announcedEvents ++ [Event.mentions [0] "TBar.TBaz"], true) := by
    decide +kernel
  obtain ⟨unit, generated, facts⟩ := bind_eq_ok.mp evaluated
  rw [pure_eq_ok, Prod.mk.injEq, Prod.mk.injEq, decide_eq_true_iff, decide_eq_true_iff] at facts
  obtain ⟨nodup, start, inside⟩ := facts
  obtain ⟨before', after', split⟩ := List.append_of_mem inside
  refine ⟨unit, (unitEvents unit).drop 4, before', after', generated, nodup, ?_, split⟩
  rw [← List.singleton_append, ← List.append_assoc, ← start, List.take_append_drop]

/-- The second class can mention the nested type, and the first one cannot. -/
theorem announced_available_iff :
    ∃ unit after before' after',
      (generateUnit announcedIndex .reference announcedFile).result = .ok unit ∧
      unitEvents unit = announcedEvents ++ .mentions [0] "TBar.TBaz" :: after ∧
      ¬ Available announcedEvents [] ["TBar", "TBaz"] ∧
      unitEvents unit = before' ++ .mentions [1] "TBar.TBaz" :: after' ∧
      Available before' [] ["TBar", "TBaz"] := by
  obtain ⟨unit, after, before', after', generated, nodup, first, second⟩ := announcedFile_generated
  obtain ⟨-, -, exactly⟩ := available_iff_not_later generated first announcedFile_declares
  obtain ⟨-, sufficient, -⟩ := available_iff_not_later generated second announcedFile_declares
  have later : Later [0] [1, 0] := by decide
  have not_later : ¬ Later [1] [1, 0] := by decide
  exact ⟨unit, after, before', after', generated, first,
    fun available => (exactly nodup).mp available later, second, sufficient not_later⟩

/-- **A class mentions a type inside a class that is only announced.** The declaration of the class
around the type has not begun. -/
theorem path_into_announced_class :
    TypeIndex.build [announcedFile] = .ok announcedIndex ∧
    announcedIndex.resolve ".Bar.Baz" "Foo.x" = .ok ⟨.message, "uSample", "TBar.TBaz"⟩ ∧
    (∃ unit after, (generateUnit announcedIndex .reference announcedFile).result = .ok unit ∧
      unitEvents unit = announcedEvents ++ .mentions [0] "TBar.TBaz" :: after) ∧
    Known announcedEvents ["TBar"] ∧ .opens ["TBar"] ∉ announcedEvents ∧
    ¬ Available announcedEvents [] ["TBar", "TBaz"] := by
  obtain ⟨unit, after, -, -, generated, -, first, -⟩ := announcedFile_generated
  exact ⟨by decide +kernel, by decide +kernel, ⟨unit, after, generated, first⟩, by decide,
    by decide, by decide⟩

end ProtoPascal
