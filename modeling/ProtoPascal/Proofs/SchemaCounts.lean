import Mathlib.Algebra.BigOperators.Group.List.Basic
import Mathlib.Algebra.Group.Prod
import ProtoPascal.Proofs.LegalNames
import ProtoPascal.Proofs.UnitCollisions

/-!
The numbers of a request. Statistics are counted in the generated units, where a class is announced
before it is declared and holds its nested types among its other members. They agree with what is
counted in the schema: a class stands for each message, an enumeration for each enumeration and for
each oneof.

Both numbers are carried together, as a pair, so that each step of the assembly of a class is followed
once.

* `membersOf_counts`: what the members of one class count, its nested classes apart;
* `class_counts`: a class counts the messages of a tree;
* `statistics_count_schema`: the statistics of a request.
-/

namespace ProtoPascal.Request

open Message
open Pascal
open Schema (EnumDescriptor FieldDescriptor FileDescriptor MessageDescriptor MessageType
  OneofDescriptor)

/-! ### Counts of declarations -/

/-- The numbers of classes and of enumerations that a type declaration declares, at any depth. -/
def typeCounts (declared : TypeDeclaration) : Nat × Nat :=
  (classCount declared, enumCount declared)

/-- The numbers of classes and of enumerations that a member declares, at any depth. -/
def memberCounts : Member → Nat × Nat
  | .item _ _ _ => 0
  | .nestedType _ _ declared => typeCounts declared

theorem sum_memberCounts (members : List Member) :
    (members.map memberCounts).sum = (memberClassCount members, memberEnumCount members) := by
  induction members with
  | nil => rfl
  | cons member rest ih =>
    rw [List.map_cons, List.sum_cons, ih]
    cases member with
    | item visibility comment declared =>
      rw [memberCounts, memberClassCount, memberEnumCount, zero_add]
    | nestedType visibility comment declared =>
      rw [memberCounts, memberClassCount, memberEnumCount, typeCounts, Prod.mk_add_mk]

/-- A class counts itself and what its members count. -/
theorem typeCounts_declaration (generated : MessageClass) :
    typeCounts generated.declaration = (1, 0) + (generated.members.map memberCounts).sum := by
  rw [MessageClass.declaration, typeCounts, classCount, enumCount, sum_memberCounts,
    Prod.mk_add_mk, Nat.zero_add]

theorem sum_map_single {α : Type} (items : List α) :
    (items.map fun _ => ((0, 1) : Nat × Nat)).sum = (0, items.length) := by
  induction items with
  | nil => rfl
  | cons _ rest ih =>
    rw [List.map_cons, List.sum_cons, ih, Prod.mk_add_mk, List.length_cons, Nat.add_comm 1]

theorem sum_map_flatMap {α β : Type} (counts : β → Nat × Nat) (items : List α) (parts : α → List β) :
    ((items.flatMap parts).map counts).sum =
      (items.map fun item => ((parts item).map counts).sum).sum := by
  rw [List.map_flatMap, List.flatMap_def, List.sum_flatten, List.map_map]
  rfl

/-- Announced classes count nothing. -/
theorem unitTypes_counts (enums : List EnumDeclaration) (classes : List MessageClass) :
    ((unitTypes enums classes).map typeCounts).sum =
      (0, enums.length) + (classes.map fun made => typeCounts made.declaration).sum := by
  have single : (enums.map fun declaration => typeCounts (.enumType declaration)).sum =
      (0, enums.length) := by
    simp only [typeCounts, classCount, enumCount]
    exact sum_map_single enums
  have announced : (classes.map fun made => typeCounts (.forwardClass made.name)).sum = 0 := by
    simp only [typeCounts, classCount, enumCount]
    exact List.sum_map_zero
  simp only [unitTypes, List.map_append, List.sum_append, List.map_map, Function.comp_def, single,
    announced, add_zero]

/-! ### Counts of a class -/

/-- Nested types are the types that a unit with them would have. -/
theorem nestedMembers_counts (enums : List EnumDeclaration) (nested : List MessageClass) :
    ((nestedMembers enums nested).map memberCounts).sum =
      (0, enums.length) + (nested.map fun inner => typeCounts inner.declaration).sum := by
  rw [← unitTypes_counts, nestedMembers, unitTypes]
  simp only [List.map_append, List.map_map, Function.comp_def, memberCounts]

theorem fieldDeclarations_counts (field : FieldPlan) :
    (field.declarations.map memberCounts).sum = 0 := by
  cases presence : field.names.presence <;>
    simp [FieldPlan.declarations, presence, plainMember, memberCounts, PresenceNames.methodMembers,
      PresenceNames.propertyMember]

theorem oneofDeclarations_counts (oneof : OneofPlan) :
    (oneof.declarations.map memberCounts).sum = (0, 1) := by
  simp [OneofPlan.declarations, plainMember, memberCounts, typeCounts, classCount, enumCount]

/-- **What the members of one class count**, its nested classes apart: an enumeration for each nested
enumeration and for each oneof of the message, with or without members. -/
theorem membersOf_counts {parts : ClassParts} {context : Context} {place : Place}
    {message : MessageType} (of : parts.PartsOf context place message) :
    (parts.members.map memberCounts).sum =
      (0, message.nestedEnums.length + message.oneofs.length)
        + (parts.nested.map fun inner => typeCounts inner.declaration).sum := by
  have types : (parts.typeMembers.map memberCounts).sum = (0, message.nestedEnums.length)
      + (parts.nested.map fun inner => typeCounts inner.declaration).sum := by
    rw [ClassParts.typeMembers, nestedMembers_counts, (mapM_eq_ok.mp of.enums).length_eq]
  -- The slots mix fields and oneofs, so their contributions are summed in another order.
  have derived : (parts.derivedMembers.map memberCounts).sum = (0, message.oneofs.length) := by
    rw [ClassParts.derivedMembers,
      ((flatMapSlots_perm of.covers.slots_perm _ _).map memberCounts).sum_eq, List.map_append,
      List.sum_append, sum_map_flatMap, sum_map_flatMap]
    simp only [fieldDeclarations_counts, oneofDeclarations_counts, sum_map_single, List.sum_map_zero,
      zero_add, of.covers.oneofs_length]
  have lifecycle : (parts.lifecycleMembers.map memberCounts).sum = 0 := by
    rw [ClassParts.lifecycleMembers, List.map_map]
    exact List.sum_map_zero
  rw [ClassParts.members, List.map_append, List.map_append, List.sum_append, List.sum_append, types,
    derived, lifecycle, add_zero, add_right_comm, Prod.mk_add_mk 0 0, Nat.zero_add]

/-- The numbers of types that a message brings, those of nested messages apart: its class, and the
enumerations for its nested enumerations and its oneofs. -/
def messageCounts (message : MessageType) : Nat × Nat :=
  (1, message.nestedEnums.length + message.oneofs.length)

/-- **A class counts the messages of a tree**: that of its message. -/
theorem class_counts {context : Context} {place : Place} {message : MessageType}
    {generated : MessageClass}
    (made : (generateMessage context place message).result = .ok generated) :
    typeCounts generated.declaration = (message.tree.map messageCounts).sum := by
  induction message using nested_induction generalizing place generated with
  | step message ih =>
    obtain ⟨parts, found, -, rfl⟩ := generateMessage_eq_ok.mp made
    have of := classParts_eq_ok.mp found
    have nested : parts.nested.map (fun inner => typeCounts inner.declaration) =
        message.nestedMessages.map fun inner => (inner.tree.map messageCounts).sum :=
      map_eq_of_forall₂ _ _ (((List.forall₂_and_left _ _).mpr ⟨fun inner inside => @ih inner inside,
        of.nested⟩).imp fun _ _ counted => counted.1 counted.2)
    rw [typeCounts_declaration, ClassParts.assemble, membersOf_counts of, nested,
      MessageType.tree_eq, List.map_cons, List.sum_cons, sum_map_flatMap, ← add_assoc,
      Prod.mk_add_mk 1 0, Nat.zero_add, messageCounts]

/-- The types of a unit count the enumerations of its file and the messages of all trees. -/
theorem unit_counts {index : TypeIndex} {runtime : Runtime} {file : Schema.File} {unit : CodeUnit}
    (generated : (generateUnit index runtime file).result = .ok unit) :
    (unit.types.map typeCounts).sum =
      (0, file.enums.length) + ((MessageType.trees file.messages).map messageCounts).sum := by
  obtain ⟨identifier, declarations, classes, parts⟩ := generateUnit_parts generated
  have counted : classes.map (fun made => typeCounts made.declaration) =
      file.messages.map fun message => (message.tree.map messageCounts).sum :=
    map_eq_of_forall₂ _ _ (parts.made.imp fun _ _ => class_counts)
  rw [parts.types, unitTypes_counts, counted, ← parts.declared.length_eq, MessageType.trees_eq,
    sum_map_flatMap]

/-! ### Counts of descriptors -/

/-- The messages of files, nested ones at any depth included. -/
def allMessages (sources : List FileDescriptor) : List MessageDescriptor :=
  sources.flatMap fun source => MessageDescriptor.trees source.messages

/-- The enumerations of files, nested ones at any depth included. -/
def allEnums (sources : List FileDescriptor) : List EnumDescriptor :=
  sources.flatMap FileDescriptor.enums
    ++ (allMessages sources).flatMap MessageDescriptor.nestedEnums

/-- The oneofs of the messages of files, synthetic ones and those without members included. -/
def allOneofs (sources : List FileDescriptor) : List OneofDescriptor :=
  (allMessages sources).flatMap MessageDescriptor.oneofs

/-- Trees of messages are described one after the other. -/
theorem trees_described {descriptors : List MessageDescriptor} {messages : List MessageType}
    (described : List.Forall₂ (fun descriptor message =>
      List.Forall₂ MessageDescriptor.DescribesOwn descriptor.tree message.tree)
      descriptors messages) :
    List.Forall₂ MessageDescriptor.DescribesOwn (MessageDescriptor.trees descriptors)
      (MessageType.trees messages) := by
  induction described with
  | nil => exact .nil
  | cons first _ ih =>
    rw [MessageDescriptor.trees, MessageType.trees]
    exact List.rel_append first ih

/-- **The messages of a tree are what those of the tree of the descriptor describe**, in order. -/
theorem tree_described {descriptor : MessageDescriptor} {message : MessageType}
    (described : descriptor.Describes message) :
    List.Forall₂ MessageDescriptor.DescribesOwn descriptor.tree message.tree := by
  induction descriptor using MessageDescriptor.nested_induction generalizing message with
  | step descriptor ih =>
    obtain ⟨own, nested⟩ := described
    have deeper := trees_described (((List.forall₂_and_left _ _).mpr
      ⟨fun inner inside => @ih inner inside, nested⟩).imp fun _ _ both => both.1 both.2)
    cases descriptor
    cases message
    rw [MessageDescriptor.tree, MessageType.tree]
    exact .cons own deeper

/-- The numbers of types that the descriptor of a message asks for, those of nested messages apart. -/
def descriptorCounts (descriptor : MessageDescriptor) : Nat × Nat :=
  (1, descriptor.nestedEnums.length + descriptor.oneofs.length)

/-- The numbers of types that the descriptor of a file asks for. -/
def fileCounts (source : FileDescriptor) : Nat × Nat :=
  (0, source.enums.length) + ((MessageDescriptor.trees source.messages).map descriptorCounts).sum

/-- A unit counts what the descriptor of its file asks for. -/
theorem unit_counts_described {source : FileDescriptor} {file : Schema.File}
    (described : source.Describes file) {index : TypeIndex} {runtime : Runtime} {unit : CodeUnit}
    (generated : (generateUnit index runtime file).result = .ok unit) :
    (unit.types.map typeCounts).sum = fileCounts source := by
  have messages : (MessageType.trees file.messages).map messageCounts =
      (MessageDescriptor.trees source.messages).map descriptorCounts := by
    refine map_eq_of_forall₂ _ _ ((trees_described (described.messages.imp fun _ _ =>
      tree_described)).imp fun descriptor message own => ?_)
    rw [messageCounts, descriptorCounts, own.enums.length_eq, own.oneofs.length_eq]
  rw [unit_counts generated, messages, fileCounts, described.enums.length_eq]

theorem sum_descriptorCounts (messages : List MessageDescriptor) :
    (messages.map descriptorCounts).sum = (messages.length,
      (messages.flatMap MessageDescriptor.nestedEnums).length
        + (messages.flatMap MessageDescriptor.oneofs).length) := by
  induction messages with
  | nil => rfl
  | cons message rest ih =>
    rw [List.map_cons, List.sum_cons, ih, descriptorCounts, Prod.mk_add_mk, List.length_cons,
      List.flatMap_cons, List.flatMap_cons, List.length_append, List.length_append, Nat.add_comm 1,
      Nat.add_add_add_comm]

/-- Files count all their messages, enumerations and oneofs. -/
theorem sum_fileCounts (sources : List FileDescriptor) :
    (sources.map fileCounts).sum =
      ((allMessages sources).length, (allEnums sources).length + (allOneofs sources).length) := by
  have enums : (sources.map fun source => ((0, source.enums.length) : Nat × Nat)).sum =
      (0, (sources.flatMap FileDescriptor.enums).length) := by
    induction sources with
    | nil => rfl
    | cons source rest ih =>
      rw [List.map_cons, List.sum_cons, ih, Prod.mk_add_mk, List.flatMap_cons, List.length_append]
  unfold fileCounts
  rw [List.sum_map_add, enums, ← sum_map_flatMap, sum_descriptorCounts, Prod.mk_add_mk,
    Nat.zero_add, allEnums, List.length_append, allOneofs, Nat.add_assoc]
  rfl

/-! ### Statistics of a request -/

/-- The numbers of classes and of enumerations in a generated unit. -/
def unitCounts (entry : GeneratedUnit) : Nat × Nat :=
  (entry.unit.types.map typeCounts).sum

theorem collect_eq (units : List GeneratedUnit) :
    Statistics.collect units =
      { units := units.length
        classes := (units.map unitCounts).sum.1
        enums := (units.map unitCounts).sum.2 } := by
  have pairs (types : List TypeDeclaration) :
      (types.map typeCounts).sum = ((types.map classCount).sum, (types.map enumCount).sum) := by
    induction types with
    | nil => rfl
    | cons declared rest ih =>
      rw [List.map_cons, List.sum_cons, ih, typeCounts, Prod.mk_add_mk, List.map_cons, List.map_cons,
        List.sum_cons, List.sum_cons]
  unfold unitCounts
  rw [← sum_map_flatMap, pairs, List.sum_eq_foldl, List.sum_eq_foldl]
  rfl

/-- The first file with a name is that of the first descriptor with the name. -/
theorem find?_described {descriptors : List FileDescriptor} {files : List Schema.File}
    (described : List.Forall₂ (fun descriptor file => Schema.File.ofDescriptor descriptor = .ok file)
      descriptors files) {name : String} {file : Schema.File}
    (found : findFile files name = .ok file) :
    ∃ source, descriptors.find? (fun descriptor => descriptor.name == some name) = some source ∧
      Schema.File.ofDescriptor source = .ok file := by
  induction described with
  | nil => cases found
  | @cons descriptor first descriptors files head _ ih =>
    rw [List.find?_cons, name_of_ofDescriptor head]
    rw [findFile, List.find?_cons] at found
    by_cases named : first.name = name
    · rw [beq_iff_eq.mpr named] at found
      cases found
      refine ⟨descriptor, ?_, head⟩
      rw [beq_iff_eq.mpr (congrArg some named)]
    · rw [beq_eq_false_iff_ne.mpr named] at found
      rw [beq_eq_false_iff_ne.mpr fun same => named (Option.some.inj same)]
      exact ih found

/-- **Statistics count the schema.** A request that succeeds takes for each requested name the first
descriptor with this name. Its statistics show one unit for each requested name, one class for each
message of these files at any depth, and one enumeration for each enumeration at any depth and each
oneof, where a file that is requested several times counts as often. -/
theorem statistics_count_schema {descriptors : List FileDescriptor} {requested : List String}
    {options : Options} {units : List GeneratedUnit}
    (generated : (generate descriptors requested options).result = .ok units) :
    ∃ sources,
      List.Forall₂ (fun name source =>
        descriptors.find? (fun descriptor => descriptor.name == some name) = some source)
        requested sources ∧
      Statistics.collect units =
        { units := requested.length
          classes := (allMessages sources).length
          enums := (allEnums sources).length + (allOneofs sources).length } := by
  obtain ⟨files, index, described, -, made⟩ := generate_eq_ok.mp generated
  have related : List.Forall₂ (fun name entry => ∃ source,
      descriptors.find? (fun descriptor => descriptor.name == some name) = some source ∧
        unitCounts entry = fileCounts source) requested units := by
    refine (mapM_eq_ok.mp made).imp fun name entry entry_made => ?_
    obtain ⟨file, found, unit_made, -⟩ := generateRequested_eq_ok entry_made
    obtain ⟨source, first, source_described⟩ := find?_described described found
    have describes := (Schema.File.ofDescriptor_eq_ok.mp source_described).2
    exact ⟨source, first, unit_counts_described describes unit_made⟩
  obtain ⟨sources, asked, counted⟩ := exists_between_of_forall₂ related
  refine ⟨sources, asked, ?_⟩
  rw [collect_eq, map_eq_of_forall₂ _ _ counted, sum_fileCounts, ← counted.length_eq,
    asked.length_eq]

/-- A field that is explicitly optional. -/
def pagesField : FieldDescriptor :=
  { name := some "pages", number := some 1, label := some 1, type := some 5,
    oneofIndex := some 1, proto3Optional := some true }

/-- A file with a message in a message, enumerations at both levels, a synthetic oneof, and a oneof
without members. -/
def shelfFile : FileDescriptor :=
  { name := some "shelf.proto"
    enums := [{ name := some "Genre", values := [{ name := some "NOVEL" }] }]
    messages := [{
      name := some "Book"
      fields := [pagesField]
      oneofs := [{ name := some "owner" }, { name := some "_pages" }]
      nestedEnums := [{ name := some "Cover", values := [{ name := some "HARD" }] }]
      nestedMessages := [{ name := some "Chapter" }] }] }

/-- A request that names the file twice counts two classes and four enumerations twice. -/
theorem shelf_statistics :
    ∃ units sources,
      (generate [shelfFile] ["shelf.proto", "shelf.proto"] {}).result = .ok units ∧
      Statistics.collect units = ⟨2, 4, 8⟩ ∧
      List.Forall₂ (fun name source =>
        [shelfFile].find? (fun descriptor => descriptor.name == some name) = some source)
        ["shelf.proto", "shelf.proto"] sources ∧
      (allMessages sources).length = 4 ∧
      (allEnums sources).length + (allOneofs sources).length = 8 := by
  have evaluated : (do
      let units ← (generate [shelfFile] ["shelf.proto", "shelf.proto"] {}).result
      return Statistics.collect units) = .ok ⟨2, 4, 8⟩ := by
    decide +kernel
  obtain ⟨units, generated, shown⟩ := bind_eq_ok.mp evaluated
  rw [pure_eq_ok] at shown
  obtain ⟨sources, asked, counted⟩ := statistics_count_schema generated
  rw [shown, Statistics.mk.injEq] at counted
  exact ⟨units, sources, generated, shown, asked, counted.2.1.symm, counted.2.2.symm⟩

end ProtoPascal.Request
