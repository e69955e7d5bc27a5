import ProtoPascal.Proofs.Execution.ClassCode
import ProtoPascal.Proofs.TypeReferences

/-!
The index and the generated units. Both follow the nesting of the messages on their own. Each type of
a file is generated at its site, and the index knows the path that leads there. Each type of the unit
comes from one type of the file, those apart that list the cases of oneofs.

* `index_agrees_with_unit`: both agree on all types of a file, and a path is that of one type only
  exactly if no two types at the level of the unit have one identifier;
* `homonymous_messages_share_path`: two messages whose classes have one path.
-/

namespace ProtoPascal

open Message Naming Pascal
open Schema (EnumType MessageType)

/-! ### Declarations and their paths -/

/-- The declaration at a site of a scope, with the names of the classes around it and its own. -/
def Pascal.Names.declarationAt (names : Names) : Site → Option (List String × TypeDeclaration)
  | [] => none
  | position :: rest =>
    match names[position]? with
    | some (name, some type) =>
      match rest with
      | [] => some ([name], type)
      | _ => (declarationAt type.names rest).map fun found => (name :: found.1, found.2)
    | _ => none

section

variable {names : Names} {position : Nat} {rest site : Site} {path : List String}
  {declaration : TypeDeclaration}

theorem declarationAt_eq_some : names.declarationAt (position :: rest) = some (path, declaration) ↔
    ∃ name type, names[position]? = some (name, some type) ∧
      (rest = [] ∧ path = [name] ∧ declaration = type ∨
        ∃ tail, path = name :: tail ∧ type.names.declarationAt rest = some (tail, declaration)) := by
  rw [Names.declarationAt]
  constructor
  · intro found
    split at found
    · next name type at_position =>
      refine ⟨name, type, at_position, ?_⟩
      split at found
      · cases found
        exact .inl ⟨rfl, rfl, rfl⟩
      · obtain ⟨⟨tail, inner⟩, deeper, same⟩ := Option.map_eq_some_iff.mp found
        cases same
        exact .inr ⟨tail, rfl, deeper⟩
    · cases found
  · rintro ⟨name, type, at_position, ⟨rfl, rfl, rfl⟩ | ⟨tail, rfl, deeper⟩⟩
    · rw [at_position]
    · rw [at_position]
      cases rest with
      | nil => cases deeper
      | cons => simp only [deeper, Option.map_some]

theorem declarationAt_singleton {name : String}
    (found : names[position]? = some (name, some declaration)) :
    names.declarationAt [position] = some ([name], declaration) :=
  declarationAt_eq_some.mpr ⟨name, declaration, found, .inl ⟨rfl, rfl, rfl⟩⟩

theorem declarationAt_cons {name : String} {type : TypeDeclaration}
    (found : names[position]? = some (name, some type))
    (deeper : type.names.declarationAt rest = some (path, declaration)) :
    names.declarationAt (position :: rest) = some (name :: path, declaration) :=
  declarationAt_eq_some.mpr ⟨name, type, found, .inr ⟨path, rfl, deeper⟩⟩

theorem declarationAt_path_ne_nil (found : names.declarationAt site = some (path, declaration)) :
    path ≠ [] := by
  cases site with
  | nil => cases found
  | cons =>
    obtain ⟨_, _, -, ⟨-, rfl, -⟩ | ⟨_, rfl, -⟩⟩ := declarationAt_eq_some.mp found <;>
      exact List.cons_ne_nil _ _

/-- A path that leads to a site has the names on the way. -/
theorem Pascal.Leads.path_eq {path' : List String} (leads : Leads names path site)
    (found : names.declarationAt site = some (path', declaration)) : path' = path := by
  induction leads generalizing path' with
  | here => cases found
  | inside here _ deeper ih =>
    obtain ⟨name, type, there, ⟨rfl, rfl, -⟩ | ⟨tail, rfl, deeper_found⟩⟩ :=
      declarationAt_eq_some.mp found
    · cases here.symm.trans there
      cases deeper
      rfl
    · cases here.symm.trans there
      rw [ih deeper_found]

end

/-- No scope on the way to a declaration has two names that are the same. -/
inductive Orderly : Names → Prop
  | intro {names : Names} (distinct : (names.map Prod.fst).Nodup)
      (deeper : ∀ name type, (name, some type) ∈ names → Orderly type.names) : Orderly names

/-- In an orderly scope a path is that of one declaration only. -/
theorem Orderly.site_eq {names : Names} (orderly : Orderly names) {site site' : Site}
    {path : List String} {declaration declaration' : TypeDeclaration}
    (found : names.declarationAt site = some (path, declaration))
    (found' : names.declarationAt site' = some (path, declaration')) : site = site' := by
  induction orderly generalizing site site' path with
  | @intro names distinct _ ih =>
    cases site with
    | nil => cases found
    | cons position rest =>
      cases site' with
      | nil => cases found'
      | cons position' rest' =>
        obtain ⟨name, type, here, way⟩ := declarationAt_eq_some.mp found
        obtain ⟨name', type', here', way'⟩ := declarationAt_eq_some.mp found'
        obtain rfl : name = name' := by
          rcases way with ⟨-, rfl, -⟩ | ⟨tail, rfl, -⟩ <;>
            rcases way' with ⟨-, same, -⟩ | ⟨tail', same, -⟩ <;> exact (List.cons.inj same).1
        -- One name stands at one position, so the ways part no earlier than inside the type.
        have named {position : Nat} {type : TypeDeclaration}
            (found : names[position]? = some (name, some type)) :
            (names.map Prod.fst)[position]? = some name := by
          rw [List.getElem?_map, found, Option.map_some]
        have below := (List.getElem?_eq_some_iff.mp (named here)).1
        obtain rfl : position = position' :=
          (List.getElem?_inj below distinct).mp ((named here).trans (named here').symm)
        cases here.symm.trans here'
        rcases way with ⟨rfl, rfl, -⟩ | ⟨tail, rfl, deeper⟩ <;>
          rcases way' with ⟨rfl, same, -⟩ | ⟨tail', same, deeper'⟩
        · rfl
        · cases same
          exact absurd rfl (declarationAt_path_ne_nil deeper')
        · cases same
          exact absurd rfl (declarationAt_path_ne_nil deeper)
        · cases same
          rw [ih name type (List.mem_of_getElem? here) deeper deeper']

/-! ### Generated declarations -/

/-- The declaration that is generated for a type at a place, with the methods that are implemented
for it. -/
inductive DeclaredAs (context : Context) (place : Place) :
    SchemaType → TypeDeclaration → List (Implementation Action Expr) → Prop
  | enumeration {enumType : EnumType} {declaration : EnumDeclaration}
      (declared : enumDeclaration enumType = .ok declaration) :
      DeclaredAs context place (.enumeration enumType) (.enumType declaration) []
  | message {message : MessageType} {parts : ClassParts}
      (made : classParts context place message = .ok parts) :
      DeclaredAs context place (.message message)
        (parts.assemble (place.shownName message)).declaration parts.ownImplementation

section

variable {context : Context} {place : Place} {type : SchemaType} {declaration : TypeDeclaration}
  {methods : List (Implementation Action Expr)}

theorem DeclaredAs.named (declared : DeclaredAs context place type declaration methods) :
    typeIdentifier type.name = .ok declaration.name := by
  cases declared with
  | enumeration declared => exact enumDeclaration_name declared
  | message made => exact (classParts_eq_ok.mp made).identifier

/-- The methods of a message are implemented under the path of its class. -/
theorem DeclaredAs.className (declared : DeclaredAs context place type declaration methods) :
    ∀ implementation ∈ methods,
      implementation.className = nestedIn place.parentClass declaration.name := by
  cases declared with
  | enumeration => exact fun _ inside => absurd inside List.not_mem_nil
  | message made =>
    have of := classParts_eq_ok.mp made
    intro implementation inside
    rw [Execution.ownImplementation_className of implementation inside, of.className_eq]
    rfl

end

section

variable {context : Context} {place : Place} {enums : List EnumType} {messages : List MessageType}
  {declarations : List EnumDeclaration} {classes : List MessageClass}

/-- The unit has the methods of each of its classes. -/
theorem implementation_sublist (generated : ClassesMade context place messages classes)
    {position : Nat} {message : MessageType} (found : messages[position]? = some message)
    {parts : ClassParts} (made : classParts context place message = .ok parts) :
    (parts.nested.flatMap MessageClass.implementation ++ parts.ownImplementation).Sublist
      (classes.flatMap MessageClass.implementation) := by
  obtain ⟨result, result_found, success⟩ := exists_left_getElem? generated.flip found
  obtain ⟨parts', made', -, rfl⟩ := generateMessage_eq_ok.mp success
  cases Except.ok.inj (made.symm.trans made')
  exact List.sublist_flatten_of_mem (List.mem_map_of_mem (List.mem_of_getElem? result_found))

/-- **Each type is generated at its site.** -/
theorem declaration_of_holds {place' : Place} {site : Site} {type : SchemaType}
    (holds : HoldsType place enums messages site place' type)
    (declared : EnumsDeclared enums declarations)
    (generated : ClassesMade context place messages classes) (rest : Names) :
    ∃ path declaration methods,
      (typeEntries declarations classes ++ rest).declarationAt site = some (path, declaration) ∧
        DeclaredAs context place' type declaration methods ∧
        methods.Sublist (classes.flatMap MessageClass.implementation) := by
  induction holds generalizing declarations classes rest with
  | enumeration found =>
    obtain ⟨declaration, success, inside⟩ := typeEntries_enumeration declared found rest
    exact ⟨_, _, _, declarationAt_singleton inside, .enumeration success, List.nil_sublist _⟩
  | message found =>
    obtain ⟨parts, made, -, inside⟩ := typeEntries_class declared generated found rest
    exact ⟨_, _, _, declarationAt_singleton inside, .message made,
      (List.sublist_append_right _ _).trans (implementation_sublist generated found made)⟩
  | nested found named deeper ih =>
    obtain ⟨parts, made, -, inside⟩ := typeEntries_class declared generated found rest
    have of := classParts_eq_ok.mp made
    cases Except.ok.inj (of.identifier.symm.trans named)
    obtain ⟨path, declaration, methods, inner, declaredAs, part⟩ := ih (mapM_eq_ok.mp of.enums)
      of.nested (memberNames (parts.derivedMembers ++ parts.lifecycleMembers))
    rw [← memberNames_parts] at inner
    exact ⟨_, declaration, methods, declarationAt_cons inside inner, declaredAs,
      (part.trans (List.sublist_append_left _ _)).trans (implementation_sublist generated found made)⟩

/-- What the name of a type at the level of a scope stands for: an enumeration, the class of a
message, or something that follows them. -/
theorem typeEntries_cases (declared : EnumsDeclared enums declarations)
    (generated : ClassesMade context place messages classes)
    {rest : Names} {position : Nat} {name : String} {type : TypeDeclaration}
    (found : (typeEntries declarations classes ++ rest)[position]? = some (name, some type)) :
    (∃ enumType declaration, enums[position]? = some enumType ∧
      enumDeclaration enumType = .ok declaration ∧ type = .enumType declaration) ∨
    (∃ index message parts, position = enums.length + index ∧ messages[index]? = some message ∧
      classParts context place message = .ok parts ∧ Apart (declaredNames parts.members) ∧
      type = (parts.assemble (place.shownName message)).declaration) ∨
    (name, some type) ∈ rest := by
  have length := declared.length_eq
  rw [typeEntries, List.append_assoc] at found
  by_cases enumeration : position < enums.length
  · rw [List.getElem?_append_left (by rwa [List.length_map, ← length]), List.getElem?_map] at found
    obtain ⟨declaration, at_position, same⟩ := Option.map_eq_some_iff.mp found
    cases same
    obtain ⟨enumType, enum_found, success⟩ := exists_left_getElem? declared at_position
    exact .inl ⟨enumType, declaration, enum_found, success, rfl⟩
  · obtain ⟨index, rfl⟩ := Nat.exists_eq_add_of_le (Nat.not_lt.mp enumeration)
    rw [List.getElem?_append_right (by rw [List.length_map, ← length]; omega), List.length_map,
      ← length, Nat.add_sub_cancel_left] at found
    by_cases message : index < classes.length
    · rw [List.getElem?_append_left (by rwa [List.length_map]), List.getElem?_map] at found
      obtain ⟨result, at_index, same⟩ := Option.map_eq_some_iff.mp found
      cases same
      obtain ⟨message, message_found, success⟩ := exists_left_getElem? generated at_index
      obtain ⟨parts, made, apart, rfl⟩ := generateMessage_eq_ok.mp success
      exact .inr (.inl ⟨index, message, parts, rfl, message_found, made, apart, rfl⟩)
    · rw [List.getElem?_append_right (by rw [List.length_map]; omega)] at found
      exact .inr (.inr (List.mem_of_getElem? found))

theorem fieldDeclarations_typeless (plan : FieldPlan) :
    ∀ member ∈ plan.declarations, member.type? = none := by
  intro member declared
  have all : (plan.declarations.all fun member => member.type?.isNone) = true := by
    dsimp only [FieldPlan.declarations]
    cases plan.names.presence <;> rfl
  exact Option.isNone_iff_eq_none.mp (List.all_eq_true.mp all member declared)

/-- The types among the members of a class that come from its fields and oneofs list the cases of
oneofs. -/
theorem caseEnum_of_memberNames {parts : ClassParts} {name : String} {type : TypeDeclaration}
    (inside : (name, some type) ∈
      memberNames (parts.derivedMembers ++ parts.lifecycleMembers)) :
    ∃ oneof ∈ parts.plan.oneofs, type = .enumType oneof.names.caseEnum := by
  obtain ⟨member, kept, same⟩ := List.mem_map.mp inside
  have typed : member.type? = some type := congrArg Prod.snd same
  rcases List.mem_append.mp (List.mem_filter.mp kept).1 with derived | lifecycle
  · rcases exists_of_mem_flatMapSlots derived with ⟨field, -, declared⟩ | ⟨oneof, inside, declared⟩
    · rw [fieldDeclarations_typeless field member declared] at typed
      cases typed
    · refine ⟨oneof, inside, ?_⟩
      simp only [OneofPlan.declarations, List.mem_cons, List.not_mem_nil, or_false] at declared
      rcases declared with rfl | rfl | rfl | rfl | rfl <;> cases typed
      rfl
  · obtain ⟨method, -, rfl⟩ := List.mem_map.mp lifecycle
    cases typed

/-- A type lists the cases of a oneof of the message around it. -/
def IsCaseType (context : Context) (place : Place) (enums : List EnumType)
    (messages : List MessageType) (site : Site) (declaration : TypeDeclaration) : Prop :=
  ∃ outer position place' message parts oneof, site = outer ++ [position] ∧
    HoldsType place enums messages outer place' (.message message) ∧
    classParts context place' message = .ok parts ∧ oneof ∈ parts.plan.oneofs ∧
    declaration = .enumType oneof.names.caseEnum

/-- **Each type of a scope is generated for one that the scope holds**, or lists the cases of a
oneof. -/
theorem holds_of_declaration {site : Site} {path : List String} {declaration : TypeDeclaration}
    {rest : Names} (declared : EnumsDeclared enums declarations)
    (generated : ClassesMade context place messages classes)
    (plain : ∀ name type, (name, some type) ∈ rest → type.names = [])
    (found : (typeEntries declarations classes ++ rest).declarationAt site =
      some (path, declaration)) :
    (∃ place' type methods, HoldsType place enums messages site place' type ∧
      DeclaredAs context place' type declaration methods) ∨
    IsCaseType context place enums messages site declaration ∨
    ∃ position name, site = [position] ∧ (name, some declaration) ∈ rest := by
  induction site generalizing place enums messages declarations classes rest path with
  | nil => cases found
  | cons position inner ih =>
    obtain ⟨name, type, here, way⟩ := declarationAt_eq_some.mp found
    rcases typeEntries_cases declared generated here with
      ⟨enumType, declaration', at_position, success, rfl⟩ |
      ⟨index, message, parts, rfl, at_index, made, -, rfl⟩ | inside
    · rcases way with ⟨rfl, -, rfl⟩ | ⟨tail, -, deeper⟩
      · exact .inl ⟨_, _, _, .enumeration at_position, .enumeration success⟩
      · cases inner <;> cases deeper
    · have of := classParts_eq_ok.mp made
      rcases way with ⟨rfl, -, rfl⟩ | ⟨tail, -, deeper⟩
      · exact .inl ⟨_, _, _, .message at_index, .message made⟩
      · rw [names_assemble, memberNames_parts] at deeper
        have caseOnly : ∀ name type, (name, some type) ∈
            memberNames (parts.derivedMembers ++ parts.lifecycleMembers) → type.names = [] := by
          intro name type inside
          obtain ⟨oneof, -, rfl⟩ := caseEnum_of_memberNames inside
          rfl
        rcases ih (mapM_eq_ok.mp of.enums) of.nested caseOnly deeper with
          ⟨place', type, methods, holds, declaredAs⟩ |
          ⟨outer, last, place', message', parts', oneof, rfl, holds, made', oneof_inside, rfl⟩ |
          ⟨last, name, rfl, inside⟩
        · exact .inl ⟨_, _, _, .nested at_index of.identifier holds, declaredAs⟩
        · exact .inr (.inl ⟨_ :: outer, last, place', message', parts', oneof, rfl,
            .nested at_index of.identifier holds, made', oneof_inside, rfl⟩)
        · obtain ⟨oneof, oneof_inside, rfl⟩ := caseEnum_of_memberNames inside
          exact .inr (.inl ⟨[_], last, _, _, parts, oneof, rfl, .message at_index, made,
            oneof_inside, rfl⟩)
    · rcases way with ⟨rfl, -, rfl⟩ | ⟨tail, -, deeper⟩
      · exact .inr (.inr ⟨position, name, rfl, inside⟩)
      · rw [plain name type inside] at deeper
        cases inner <;> cases deeper

/-- The methods of a class are those of its message and of the messages in it. -/
theorem holds_of_method {implementation : Implementation Action Expr} (message : MessageType) :
    ∀ {place : Place} {enums : List EnumType} {messages : List MessageType} {position : Nat}
      {generated : MessageClass}, messages[position]? = some message →
      (generateMessage context place message).result = .ok generated →
      implementation ∈ generated.implementation →
      ∃ site place' type declaration methods, HoldsType place enums messages site place' type ∧
        DeclaredAs context place' type declaration methods ∧ implementation ∈ methods := by
  induction message using nested_induction
  next message ih =>
  intro place enums messages position generated found success inside
  obtain ⟨parts, made, -, rfl⟩ := generateMessage_eq_ok.mp success
  have of := classParts_eq_ok.mp made
  rcases List.mem_append.mp inside with ofNested | own
  · obtain ⟨result, result_inside, inside⟩ := List.mem_flatMap.mp ofNested
    obtain ⟨index, at_index⟩ := List.mem_iff_getElem?.mp result_inside
    obtain ⟨inner, inner_found, inner_success⟩ := exists_left_getElem? of.nested at_index
    obtain ⟨site, place', type, declaration, methods, holds, declaredAs, listed⟩ :=
      ih inner (List.mem_of_getElem? inner_found) inner_found inner_success inside
    exact ⟨_, place', type, declaration, methods, .nested found of.identifier holds, declaredAs,
      listed⟩
  · exact ⟨_, _, _, _, _, .message found, .message made, own⟩

/-- No class has two members of one name, at any depth. -/
theorem orderly_of_generated (message : MessageType) : ∀ {place : Place} {generated : MessageClass},
    (generateMessage context place message).result = .ok generated →
      Orderly generated.declaration.names := by
  induction message using nested_induction
  next message ih =>
  intro place generated success
  obtain ⟨parts, made, apart, rfl⟩ := generateMessage_eq_ok.mp success
  have of := classParts_eq_ok.mp made
  rw [names_assemble]
  refine .intro ?_ fun name type inside => ?_
  · rw [map_fst_memberNames]
    exact List.Nodup.of_map _ apart
  · rw [memberNames_parts] at inside
    obtain ⟨position, at_position⟩ := List.mem_iff_getElem?.mp inside
    have leaf : Orderly [] := .intro List.nodup_nil fun _ _ impossible =>
      absurd impossible List.not_mem_nil
    rcases typeEntries_cases (mapM_eq_ok.mp of.enums) of.nested at_position with
      ⟨_, _, -, -, rfl⟩ | ⟨_, inner, parts', -, found, made', apart', rfl⟩ | inside
    · exact leaf
    · exact ih inner (List.mem_of_getElem? found)
        (generateMessage_eq_ok.mpr ⟨parts', made', apart', rfl⟩)
    · obtain ⟨oneof, -, rfl⟩ := caseEnum_of_memberNames inside
      exact leaf

/-- All names of enumerations and classes stand for types. -/
theorem exists_typeEntry (declarations : List EnumDeclaration) (classes : List MessageClass)
    {position : Nat} (below : position < (typeEntries declarations classes).length) :
    ∃ name type, (typeEntries declarations classes)[position]? = some (name, some type) := by
  have found := List.getElem?_eq_getElem below
  have inside := List.mem_of_getElem? found
  rw [found]
  generalize (typeEntries declarations classes)[position] = entry at inside
  rcases List.mem_append.mp inside with ofEnum | ofClass
  · obtain ⟨declaration, -, rfl⟩ := List.mem_map.mp ofEnum
    exact ⟨_, _, rfl⟩
  · obtain ⟨result, -, rfl⟩ := List.mem_map.mp ofClass
    exact ⟨_, _, rfl⟩

/-- **A path is that of one declaration only exactly if no two types of a scope have one name.** -/
theorem paths_unique_iff (declared : EnumsDeclared enums declarations)
    (generated : ClassesMade context place messages classes) :
    (∀ site site' path declaration declaration',
      (typeEntries declarations classes).declarationAt site = some (path, declaration) →
      (typeEntries declarations classes).declarationAt site' = some (path, declaration') →
        site = site') ↔
      ((typeEntries declarations classes).map Prod.fst).Nodup := by
  constructor
  · intro unique
    refine List.nodup_iff_getElem?_ne_getElem?.mpr fun first second before below same => ?_
    rw [List.length_map] at below
    obtain ⟨name, type, found⟩ :=
      exists_typeEntry declarations classes (Nat.lt_trans before below)
    obtain ⟨name', type', found'⟩ := exists_typeEntry declarations classes below
    rw [List.getElem?_map, List.getElem?_map, found, found', Option.map_some, Option.map_some,
      Option.some.injEq] at same
    obtain rfl : name = name' := same
    have equal := unique [first] [second] [name] type type' (declarationAt_singleton found)
      (declarationAt_singleton found')
    rw [List.singleton_inj] at equal
    exact absurd equal (Nat.ne_of_lt before)
  · intro distinct site site' path declaration declaration' found found'
    refine Orderly.site_eq (.intro distinct fun name type inside => ?_) found found'
    obtain ⟨position, at_position⟩ := List.mem_iff_getElem?.mp inside
    rw [← List.append_nil (typeEntries declarations classes)] at at_position
    rcases typeEntries_cases declared generated at_position with
      ⟨_, _, -, -, rfl⟩ | ⟨_, message, parts, -, found, made, apart, rfl⟩ | impossible
    · exact .intro List.nodup_nil fun _ _ impossible => absurd impossible List.not_mem_nil
    · exact orderly_of_generated message (generateMessage_eq_ok.mpr ⟨parts, made, apart, rfl⟩)
    · cases impossible

end

/-! ### The index -/

/-- **The index knows each type of a file**, if no two files and no two types have one name. -/
theorem resolve_of_holds {files : List Schema.File} {index : TypeIndex}
    (built : TypeIndex.build files = .ok index) (distinctTypes : DistinctTypes files)
    {own : Nat} {file : Schema.File} (here : files[own]? = some file) {identifier : UnitIdentifier}
    (named : UnitIdentifier.ofFile file = .ok identifier) {site : Site} {place : Place}
    {type : SchemaType}
    (holds : HoldsType ⟨file.scope, none⟩ file.enums file.messages site place type)
    {typeName : String} (type_named : typeIdentifier type.name = .ok typeName)
    (referencedBy : String) :
    index.resolve (type.fullName place) referencedBy =
      .ok ⟨type.kind, identifier.fullName, nestedIn place.parentClass typeName⟩ := by
  have entries := (build_entries built).2
  have entry := (entries _).mpr ⟨file, List.mem_of_getElem? here, identifier, named, site, place,
    type, holds, entryOf_eq_ok.mpr ⟨typeName, type_named, rfl⟩⟩
  -- The last entry under the name is that of the type, since no other type has the name.
  obtain ⟨last, found⟩ := exists_lastUnder entry
  obtain ⟨file', file_inside, identifier', named', site', place', type', holds', made⟩ :=
    (entries _).mp (mem_of_lastUnder found)
  obtain ⟨typeName', type_named', same⟩ := entryOf_eq_ok.mp made
  rw [Prod.mk.injEq] at same
  obtain ⟨own', here'⟩ := List.mem_iff_getElem?.mp file_inside
  have top (scope : String) : (Place.mk scope none).parentClass = outerName [] := rfl
  obtain ⟨path, declares, -⟩ := holds.declares (top _) type_named
  obtain ⟨path', declares', -⟩ := holds'.declares (top _) type_named'
  rw [← same.1] at declares'
  obtain ⟨rfl, rfl⟩ := distinctTypes _ _ _ _ _ _ _ ⟨file, here, declares⟩ ⟨file', here', declares'⟩
  cases here.symm.trans here'
  obtain ⟨rfl, rfl⟩ := holds.unique holds'
  cases Except.ok.inj (named.symm.trans named')
  cases Except.ok.inj (type_named.symm.trans type_named')
  rw [TypeIndex.resolve, found]
  exact congrArg Except.ok same.2

/-- **The index agrees with the units.** Each type of a file has an entry with its kind, the name of
the unit and the path of the declaration that is generated for it, and its methods are implemented
under this path. Each declaration of the unit is generated for one type of the file or lists the
cases of a oneof, and each method is that of a message of the file. A path belongs to one declaration
only, for all declarations of the unit, exactly if no two types at the level of the unit have one
name. -/
theorem index_agrees_with_unit {files : List Schema.File} {index : TypeIndex} {runtime : Runtime}
    (built : TypeIndex.build files = .ok index) (distinctFiles : (files.map Schema.File.name).Nodup)
    (distinctTypes : DistinctTypes files) {own : Nat} {file : Schema.File}
    (here : files[own]? = some file) {unit : CodeUnit}
    (generated : (generateUnit index runtime file).result = .ok unit) :
    (∀ site place type, HoldsType ⟨file.scope, none⟩ file.enums file.messages site place type →
      ∃ path declaration methods,
        (∀ referencedBy, index.resolve (type.fullName place) referencedBy =
          .ok ⟨type.kind, unit.name, Text.join "." path⟩) ∧
        (typeNames unit.types).declarationAt site = some (path, declaration) ∧
        DeclaredAs ⟨index, runtime, unit.name⟩ place type declaration methods ∧
        methods.Sublist unit.implementation ∧
        ∀ implementation ∈ methods, implementation.className = Text.join "." path) ∧
    (∀ site path declaration,
      (typeNames unit.types).declarationAt site = some (path, declaration) →
      (∃ place type methods,
        HoldsType ⟨file.scope, none⟩ file.enums file.messages site place type ∧
          DeclaredAs ⟨index, runtime, unit.name⟩ place type declaration methods ∧
          ∀ place' type', HoldsType ⟨file.scope, none⟩ file.enums file.messages site place' type' →
            place' = place ∧ type' = type) ∨
      IsCaseType ⟨index, runtime, unit.name⟩ ⟨file.scope, none⟩ file.enums file.messages site
        declaration) ∧
    (∀ implementation ∈ unit.implementation, ∃ site place type declaration methods,
      HoldsType ⟨file.scope, none⟩ file.enums file.messages site place type ∧
        DeclaredAs ⟨index, runtime, unit.name⟩ place type declaration methods ∧
        implementation ∈ methods) ∧
    ((∀ site site' path declaration declaration',
      (typeNames unit.types).declarationAt site = some (path, declaration) →
      (typeNames unit.types).declarationAt site' = some (path, declaration') → site = site') ↔
        ((typeNames unit.types).map Prod.fst).Nodup) := by
  obtain ⟨identifier, declarations, classes, parts⟩ := generateUnit_parts generated
  have named := ofFile_of_unit built distinctFiles (List.mem_of_getElem? here) parts.known
  have names : typeNames unit.types = typeEntries declarations classes := by
    rw [parts.types, typeNames_unitTypes]
  have top : (Place.mk file.scope none).parentClass = outerName [] := rfl
  rw [names, parts.name, parts.implementation]
  refine ⟨fun site place type holds => ?_, fun site path declaration found => ?_,
    fun implementation inside => ?_, paths_unique_iff parts.declared parts.made⟩
  · obtain ⟨path, declaration, methods, found, declaredAs, part⟩ :=
      declaration_of_holds holds parts.declared parts.made []
    obtain ⟨path', declares, localName⟩ := holds.declares top declaredAs.named
    obtain rfl : path = path' :=
      (leads_of_declares declares parts.declared parts.made []).path_eq found
    rw [List.append_nil] at found
    rw [List.nil_append] at localName
    refine ⟨path, declaration, methods, fun referencedBy => ?_, found, declaredAs, part,
      fun implementation inside => ?_⟩
    · rw [← localName]
      exact resolve_of_holds built distinctTypes here named holds declaredAs.named referencedBy
    · rw [← localName]
      exact declaredAs.className implementation inside
  · rw [← List.append_nil (typeEntries declarations classes)] at found
    rcases holds_of_declaration parts.declared parts.made
      (fun _ _ impossible => absurd impossible List.not_mem_nil) found with
      ⟨place, type, methods, holds, declaredAs⟩ | caseType | ⟨_, _, -, impossible⟩
    · exact .inl ⟨place, type, methods, holds, declaredAs, fun _ _ other => holds.unique other⟩
    · exact .inr caseType
    · cases impossible
  · obtain ⟨result, result_inside, inside⟩ := List.mem_flatMap.mp inside
    obtain ⟨position, at_position⟩ := List.mem_iff_getElem?.mp result_inside
    obtain ⟨message, found, success⟩ := exists_left_getElem? parts.made at_position
    exact holds_of_method message found success inside

/-- A message in a message, which has the name of one outside, and its class in the unit. -/
theorem capturing_index_agrees :
    ∃ unit declaration methods,
      (generateUnit capturingIndex .reference capturingFile).result = .ok unit ∧
        capturingIndex.resolve ".Bar.Foo" "sample.proto" = .ok ⟨.message, unit.name, "TBar.TFoo"⟩ ∧
        (typeNames unit.types).declarationAt [1, 0] = some (["TBar", "TFoo"], declaration) ∧
        DeclaredAs ⟨capturingIndex, .reference, unit.name⟩ ⟨".Bar", some "TBar"⟩
          (.message { name := "Foo" }) declaration methods ∧
        methods.Sublist unit.implementation ∧
        (∀ implementation ∈ methods, implementation.className = "TBar.TFoo") ∧
        ∀ site site' path declaration declaration',
          (typeNames unit.types).declarationAt site = some (path, declaration) →
          (typeNames unit.types).declarationAt site' = some (path, declaration') → site = site' := by
  have evaluated : (do
      let unit ← (generateUnit capturingIndex .reference capturingFile).result
      return (((typeNames unit.types).declarationAt [1, 0]).map Prod.fst,
        (typeNames unit.types).map Prod.fst)) = .ok (some ["TBar", "TFoo"], ["TFoo", "TBar"]) := by
    decide +kernel
  obtain ⟨unit, generated, facts⟩ := bind_eq_ok.mp evaluated
  rw [pure_eq_ok, Prod.mk.injEq] at facts
  have here : [capturingFile][0]? = some capturingFile := rfl
  have outer : capturingFile.messages[1]? = some capturingMessage := rfl
  have inner : capturingMessage.nestedMessages[0]? = some { name := "Foo" } := rfl
  obtain ⟨agrees, -, -, unique⟩ := index_agrees_with_unit capturingFile_built
    (List.nodup_singleton _) capturingFile_distinctTypes here generated
  obtain ⟨path, declaration, methods, resolved, found, declaredAs, part, className⟩ :=
    agrees _ _ _ (.nested outer typeIdentifier_bar (.message inner))
  have way : (typeNames unit.types).declarationAt [1, 0] = some (path, declaration) := found
  obtain rfl : path = ["TBar", "TFoo"] := by
    rw [way, Option.map_some] at facts
    exact Option.some.inj facts.1
  refine ⟨unit, declaration, methods, generated, resolved "sample.proto", way, declaredAs, part,
    className, unique.mpr ?_⟩
  rw [facts.2]
  decide

/-! ### Two messages with one path -/

/-- The names of the messages differ only in the way in which their words are joined. -/
def homonymFile : Schema.File :=
  { name := "sample.proto", messages := [{ name := "foo_bar" }, { name := "FooBar" }] }

/-- The index of the file. -/
def homonymIndex : TypeIndex :=
  { units := [("sample.proto", ⟨[], "uSample"⟩)]
    types :=
      [(".foo_bar", ⟨.message, "uSample", "TFooBar"⟩), (".FooBar", ⟨.message, "uSample", "TFooBar"⟩)] }

theorem homonymFile_distinctTypes : DistinctTypes [homonymFile] := by
  have sites {position : Nat} {site : Site} {path : List String} {fullName : String}
      (declared : DeclaredAt [homonymFile] position site path fullName) :
      (position, site, fullName) ∈ [(0, [0], ".foo_bar"), (0, [1], ".FooBar")] := by
    obtain ⟨rfl, declares⟩ := declared.of_singleton
    cases declares with
    | enumeration found => cases found
    | @message _ _ _ position message _ found named =>
      rcases position with _ | _ | position <;> cases found <;> decide
    | @nested _ _ _ _ position message _ _ _ found named deeper =>
      rcases position with _ | _ | position <;> cases found <;> exact absurd deeper not_declares_nil
  have unique : ∀ entry ∈ [(0, [0], ".foo_bar"), (0, [1], ".FooBar")],
      ∀ entry' ∈ [(0, [0], ".foo_bar"), (0, [1], ".FooBar")],
        entry.2.2 = entry'.2.2 → entry = entry' := by
    decide
  intro fullName position site path position' site' path' declared declared'
  have same := unique _ (sites declared) _ (sites declared') rfl
  rw [Prod.mk.injEq, Prod.mk.injEq] at same
  exact ⟨same.1, same.2.1⟩

/-- **Two messages share a path.** Their full names differ, and the unit of their file is generated,
with two classes of one name. -/
theorem homonymous_messages_share_path :
    DistinctTypes [homonymFile] ∧ TypeIndex.build [homonymFile] = .ok homonymIndex ∧
    homonymIndex.resolve ".foo_bar" "sample.proto" = .ok ⟨.message, "uSample", "TFooBar"⟩ ∧
    homonymIndex.resolve ".FooBar" "sample.proto" = .ok ⟨.message, "uSample", "TFooBar"⟩ ∧
    ∃ unit, (generateUnit homonymIndex .reference homonymFile).result = .ok unit ∧
      ((typeNames unit.types).declarationAt [0]).map Prod.fst = some ["TFooBar"] ∧
      ((typeNames unit.types).declarationAt [1]).map Prod.fst = some ["TFooBar"] := by
  have evaluated : (do
      let unit ← (generateUnit homonymIndex .reference homonymFile).result
      return (((typeNames unit.types).declarationAt [0]).map Prod.fst,
        ((typeNames unit.types).declarationAt [1]).map Prod.fst)) =
          .ok (some ["TFooBar"], some ["TFooBar"]) := by
    decide +kernel
  obtain ⟨unit, generated, facts⟩ := bind_eq_ok.mp evaluated
  rw [pure_eq_ok, Prod.mk.injEq] at facts
  exact ⟨homonymFile_distinctTypes, by decide +kernel, by decide +kernel, by decide +kernel, unit,
    generated, facts⟩

end ProtoPascal
