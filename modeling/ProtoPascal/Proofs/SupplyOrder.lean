import Mathlib.Data.List.Perm.Basic
import ProtoPascal.Proofs.PairedRuns

/-!
The order in which descriptors are supplied. Where two files or two types have one name, the later entry
of the index counts and the first file is found; where all names are different, neither depends on the
order, so a request gives the same units for the same descriptors in any order.

* `lastUnder_perm`, `findFile_perm`: lookups among entries and files with different names;
* `index_keys`: the names under which the index holds units and types;
* `units_independent_of_order`: a request gives the same units in any order of the descriptors.
-/

namespace ProtoPascal

open Message
open Schema (EnumDescriptor FileDescriptor MessageDescriptor MessageType)

/-! ### The names of the types of a file -/

namespace Schema

/-- The full name of an enumeration in a scope. -/
def EnumDescriptor.fullName (scope : String) (descriptor : EnumDescriptor) : String :=
  qualifiedName scope (descriptor.name.getD "")

mutual

/-- The full names of the types that a message declares: those of its enumerations, those of the
messages in it, and its own. -/
def MessageDescriptor.typeNames (scope : String) : MessageDescriptor → List String
  | ⟨name, _, nestedMessages, nestedEnums, _⟩ =>
    let fullName := qualifiedName scope (name.getD "")
    nestedEnums.map (EnumDescriptor.fullName fullName)
      ++ MessageDescriptor.allTypeNames fullName nestedMessages ++ [fullName]

/-- The full names of the types that messages declare. -/
def MessageDescriptor.allTypeNames (scope : String) : List MessageDescriptor → List String
  | [] => []
  | descriptor :: rest =>
    descriptor.typeNames scope ++ MessageDescriptor.allTypeNames scope rest

end

/-- The full names of the types that a file declares, at any depth. -/
def FileDescriptor.typeNames (descriptor : FileDescriptor) : List String :=
  let scope := packageScope (declaredPackage descriptor)
  descriptor.enums.map (EnumDescriptor.fullName scope)
    ++ MessageDescriptor.allTypeNames scope descriptor.messages

end Schema

/-! ### Lookups -/

section

variable {α : Type} {entries others : List (String × α)}

theorem lastUnder_eq_some_iff (distinct : (entries.map Prod.fst).Nodup) {key : String} {value : α} :
    lastUnder key entries = some value ↔ (key, value) ∈ entries := by
  refine ⟨mem_of_lastUnder, fun inside => ?_⟩
  obtain ⟨last, found⟩ := exists_lastUnder inside
  have same := List.inj_on_of_nodup_map distinct (mem_of_lastUnder found) inside rfl
  rw [found, (Prod.mk.inj same).2]

/-- **Entries with different keys are found in any order.** -/
theorem lastUnder_perm (permuted : entries.Perm others) (distinct : (entries.map Prod.fst).Nodup)
    (key : String) : lastUnder key entries = lastUnder key others := by
  have others_distinct := (permuted.map Prod.fst).nodup_iff.mp distinct
  refine Option.ext fun value => ?_
  rw [lastUnder_eq_some_iff distinct, lastUnder_eq_some_iff others_distinct, permuted.mem_iff]

end

/-- **Files with different names are found in any order.** -/
theorem Request.findFile_perm {files others : List Schema.File} (permuted : files.Perm others)
    (distinct : (files.map Schema.File.name).Nodup) (name : String) :
    findFile files name = findFile others name := by
  have found_iff {files : List Schema.File} (distinct : (files.map Schema.File.name).Nodup)
      (file : Schema.File) : files.find? (fun file => file.name == name) = some file ↔
        file ∈ files ∧ file.name = name := by
    constructor
    · intro found
      exact ⟨List.mem_of_find?_eq_some found, by simpa using List.find?_some found⟩
    · rintro ⟨inside, rfl⟩
      refine find?_eq_some_of_unique inside (beq_self_eq_true _) fun other other_inside same => ?_
      exact List.inj_on_of_nodup_map distinct other_inside inside (beq_iff_eq.mp same)
  have same : files.find? (fun file => file.name == name) =
      others.find? fun file => file.name == name := by
    refine Option.ext fun file => ?_
    rw [found_iff distinct, found_iff ((permuted.map _).nodup_iff.mp distinct), permuted.mem_iff]
  rw [findFile, findFile, same]

/-! ### Keys of the index -/

theorem enumEntries_keys {unit scope : String} {parent : Option String}
    {descriptors : List EnumDescriptor} {enums : List Schema.EnumType}
    {entries : List (String × ResolvedType)}
    (described : List.Forall₂ EnumDescriptor.Describes descriptors enums)
    (listed : enums.mapM (enumEntry unit scope parent) = .ok entries) :
    entries.map Prod.fst = descriptors.map (EnumDescriptor.fullName scope) := by
  rw [mapM_eq_ok] at listed
  induction described generalizing entries with
  | nil =>
    cases listed
    rfl
  | cons first _ ih =>
    cases listed with
    | cons made others =>
      obtain ⟨identifier, -, made⟩ := bind_eq_ok.mp made
      rw [List.map_cons, List.map_cons, ih others, ← pure_eq_ok.mp made, EnumDescriptor.fullName,
        first.name, Option.getD_some]

/-- The entries of a message stand under the names of its types, in any scope and unit. -/
def KeysOf (descriptor : MessageDescriptor) (message : MessageType) : Prop :=
  ∀ unit scope parent entries, messageEntries unit scope parent message = .ok entries →
    entries.map Prod.fst = descriptor.typeNames scope

theorem messageListEntries_keys {unit scope : String} {parent : Option String}
    {descriptors : List MessageDescriptor} {messages : List MessageType}
    {entries : List (String × ResolvedType)} (each : List.Forall₂ KeysOf descriptors messages)
    (listed : messageListEntries unit scope parent messages = .ok entries) :
    entries.map Prod.fst = MessageDescriptor.allTypeNames scope descriptors := by
  induction each generalizing entries with
  | nil =>
    cases listed
    rfl
  | cons first _ ih =>
    obtain ⟨own, own_listed, listed⟩ := bind_eq_ok.mp listed
    obtain ⟨others, others_listed, listed⟩ := bind_eq_ok.mp listed
    rw [← pure_eq_ok.mp listed, List.map_append, first _ _ _ _ own_listed, ih others_listed,
      MessageDescriptor.allTypeNames]

/-- **The entries of a message stand under the names of its types**, by induction on the nesting. -/
theorem keysOf_describes (message : MessageType) :
    ∀ descriptor : MessageDescriptor, descriptor.Describes message → KeysOf descriptor message := by
  induction message using nested_induction with
  | step message ih =>
    intro descriptor described unit scope parent entries listed
    obtain ⟨own, nested⟩ := described
    obtain ⟨name, fields, oneofs, nestedMessages, nestedEnums⟩ := message
    obtain ⟨givenName, fieldDescriptors, messageDescriptors, enumDescriptors, _⟩ := descriptor
    rw [messageEntries] at listed
    obtain ⟨identifier, -, listed⟩ := bind_eq_ok.mp listed
    obtain ⟨enums, enums_listed, listed⟩ := bind_eq_ok.mp listed
    obtain ⟨messages, messages_listed, listed⟩ := bind_eq_ok.mp listed
    have named : givenName = some name := own.name
    have inner := ((List.forall₂_and_left _ _).mpr ⟨ih, nested.flip⟩).imp
      fun _ _ known => known.1 _ known.2
    rw [← pure_eq_ok.mp listed, List.map_append, List.map_append,
      enumEntries_keys own.enums enums_listed, messageListEntries_keys inner.flip messages_listed,
      MessageDescriptor.typeNames, named]
    rfl

/-- A file adds its unit under its name, and its types under their full names. -/
theorem ofFile_keys {descriptor : FileDescriptor} {file : Schema.File} {own : TypeIndex}
    (described : descriptor.Describes file) (added : TypeIndex.ofFile file = .ok own) :
    own.units.map Prod.fst = [file.name] ∧ own.types.map Prod.fst = descriptor.typeNames := by
  obtain ⟨identifier, enums, messages, -, enums_listed, messages_listed, rfl⟩ :=
    TypeIndex.ofFile_eq_ok.mp added
  have scope_eq : file.scope = Schema.packageScope (Schema.declaredPackage descriptor) := by
    rw [Schema.File.scope, described.package, Schema.declaredPackage_eq]
  have inner := described.messages.imp fun _ message known => keysOf_describes message _ known
  refine ⟨rfl, ?_⟩
  rw [List.map_append, enumEntries_keys described.enums enums_listed,
    messageListEntries_keys inner messages_listed, FileDescriptor.typeNames, scope_eq]

section

variable {descriptors : List FileDescriptor} {files : List Schema.File} {index : TypeIndex}
  (loaded : List.Forall₂ (fun descriptor file => Schema.File.ofDescriptor descriptor = .ok file)
    descriptors files)

include loaded

/-- **The index holds units under the names of the files and types under their full names.** -/
theorem index_keys (built : TypeIndex.build files = .ok index) :
    index.units.map Prod.fst = files.map Schema.File.name ∧
      index.types.map Prod.fst = descriptors.flatMap FileDescriptor.typeNames := by
  obtain ⟨owns, added, rfl⟩ := build_eq_ok.mp built
  clear built
  dsimp only
  induction loaded generalizing owns with
  | nil =>
    cases added
    exact ⟨rfl, rfl⟩
  | cons first _ ih =>
    cases added with
    | cons own others =>
      obtain ⟨units, types⟩ := ofFile_keys (Schema.File.ofDescriptor_eq_ok.mp first).2 own
      obtain ⟨restUnits, restTypes⟩ := ih _ others
      refine ⟨?_, ?_⟩
      · rw [List.flatMap_cons, List.map_append, units, restUnits, List.map_cons,
          List.singleton_append]
      · rw [List.flatMap_cons, List.map_append, types, restTypes, List.flatMap_cons]

end

/-! ### Requests -/

namespace Request

/-- Units of one requested file are the same, if the file is and the indexes find the same. -/
theorem generateRequested_same {index other : TypeIndex} (alike : index.Alike other)
    (runtime : Runtime) {files files' : List Schema.File} {name : String}
    (found : findFile files name = findFile files' name) :
    Agree Eq (generateRequested runtime index files name).result
      (generateRequested runtime other files' name).result := by
  refine (generateRequested_agree alike runtime runtime found).imp
    fun generated generated' made made' same => ?_
  obtain ⟨file, identifier, isFile, listed, uses_eq⟩ := generateRequested_uses made
  obtain ⟨file', identifier', isFile', listed', uses_eq'⟩ := generateRequested_uses made'
  cases isFile.symm.trans (found.trans isFile')
  cases listed.symm.trans ((alike.units _).trans listed')
  rw [alike.fileUnits, ← uses_eq'] at uses_eq
  exact same.eq_of_uses uses_eq

/-- A request that succeeds gives the same units for the descriptors in another order. -/
theorem generate_of_perm {descriptors reordered : List FileDescriptor} {requested : List String}
    {options : Options} {units : List GeneratedUnit} (permuted : descriptors.Perm reordered)
    (distinctFiles : (descriptors.map FileDescriptor.name).Nodup)
    (distinctTypes : (descriptors.flatMap FileDescriptor.typeNames).Nodup)
    (generated : (generate descriptors requested options).result = .ok units) :
    (generate reordered requested options).result = .ok units := by
  obtain ⟨files, index, loaded, built, made⟩ := generate_eq_ok.mp generated
  have distinct := nodup_names loaded distinctFiles
  obtain ⟨unitKeys, typeKeys⟩ := index_keys loaded built
  -- The files and their entries in the other order.
  obtain ⟨files', loaded', files_permuted⟩ := List.perm_comp_forall₂ permuted.symm loaded
  obtain ⟨owns, added, rfl⟩ := build_eq_ok.mp built
  obtain ⟨owns', added', owns_permuted⟩ := List.perm_comp_forall₂ files_permuted added
  have built' := build_eq_ok.mpr ⟨owns', added', rfl⟩
  have alike : TypeIndex.Alike ⟨owns.flatMap TypeIndex.units, owns.flatMap TypeIndex.types⟩
      ⟨owns'.flatMap TypeIndex.units, owns'.flatMap TypeIndex.types⟩ :=
    ⟨lastUnder_perm (owns_permuted.symm.flatMap_right _) (unitKeys ▸ distinct),
      lastUnder_perm (owns_permuted.symm.flatMap_right _) (typeKeys ▸ distinctTypes)⟩
  have same := Agree.mapM fun name (_ : name ∈ requested) => generateRequested_same alike
    options.runtime (findFile_perm files_permuted.symm distinct name)
  obtain ⟨units', made', units_same⟩ := same.exists_ok made
  rw [List.forall₂_eq_eq_eq] at units_same
  cases units_same
  exact generate_eq_ok.mpr ⟨files', _, loaded', built', made'⟩

/-- **The order of the descriptors does not matter.** If all supplied files have different names, and
all types in them have different full names, then a request succeeds for the descriptors in one order
exactly if it does in another, and it gives the same units, with the same paths and texts. -/
theorem units_independent_of_order {descriptors reordered : List FileDescriptor}
    (permuted : descriptors.Perm reordered)
    (distinctFiles : (descriptors.map FileDescriptor.name).Nodup)
    (distinctTypes : (descriptors.flatMap FileDescriptor.typeNames).Nodup)
    (requested : List String) (options : Options) (units : List GeneratedUnit) :
    (generate descriptors requested options).result = .ok units ↔
      (generate reordered requested options).result = .ok units := by
  constructor
  · exact generate_of_perm permuted distinctFiles distinctTypes
  · exact generate_of_perm permuted.symm ((permuted.map _).nodup_iff.mp distinctFiles)
      ((permuted.flatMap_right _).nodup_iff.mp distinctTypes)

/-- Two files that refer to types of each other, one of them nested. -/
def mutualFiles : List FileDescriptor :=
  [{ name := some "a.proto", dependencies := ["b.proto"]
     messages :=
       [{ name := some "A"
          fields :=
            [{ name := some "x", number := some 1, label := some 3, type := some 11,
               typeName := some ".p.B" }]
          nestedEnums :=
            [{ name := some "E", values := [{ name := some "ZERO", number := some 0 }] }] }] },
   { name := some "b.proto", package := some "p", dependencies := ["a.proto"]
     messages :=
       [{ name := some "B"
          fields :=
            [{ name := some "y", number := some 1, label := some 1, type := some 14,
               typeName := some ".A.E" }] }] }]

/-- The units of the files are the same, whichever of the files comes first. -/
theorem mutual_units_reversed :
    mutualFiles.flatMap FileDescriptor.typeNames = [".A.E", ".A", ".p.B"] ∧
    ∃ units, (generate mutualFiles ["a.proto", "b.proto"] {}).result = .ok units ∧
      (generate mutualFiles.reverse ["a.proto", "b.proto"] {}).result = .ok units ∧
      units.map GeneratedUnit.path = ["uA.pas", "P/P.uB.pas"] := by
  have types : mutualFiles.flatMap FileDescriptor.typeNames = [".A.E", ".A", ".p.B"] := by
    decide +kernel
  have distinctTypes : (mutualFiles.flatMap FileDescriptor.typeNames).Nodup := by
    rw [types]
    decide
  have evaluated : (do
      let units ← (generate mutualFiles ["a.proto", "b.proto"] {}).result
      return units.map GeneratedUnit.path) = .ok ["uA.pas", "P/P.uB.pas"] := by
    decide +kernel
  obtain ⟨units, generated, paths⟩ := bind_eq_ok.mp evaluated
  have reversed := units_independent_of_order (List.reverse_perm mutualFiles).symm (by decide)
    distinctTypes ["a.proto", "b.proto"] {} units
  exact ⟨types, units, generated, reversed.mp generated, pure_eq_ok.mp paths⟩

end Request

end ProtoPascal
