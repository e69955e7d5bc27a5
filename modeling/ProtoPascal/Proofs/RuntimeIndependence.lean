import ProtoPascal.Proofs.PairedRuns

/-!
Requests with different runtime libraries. The namespace of the library stands in front of its units
and nowhere else, so two requests that differ in it give the same code. The lists of used units
correspond entry by entry, as long as no file has a unit that is named like one of the library: such a
unit would be listed once for both.

* `fileUnits_parallel`: the units that a file needs with two libraries;
* `runtime_changes_only_uses`: what two requests with different libraries give.
-/

namespace ProtoPascal

open Schema (Field FieldType FileDescriptor ScalarType)

/-! ### Units of runtime libraries -/

/-- The types with a codec of their own. -/
def scalarTypes : List ScalarType :=
  [.double, .float, .int32, .int64, .uint32, .uint64, .sint32, .sint64, .fixed32, .fixed64,
   .sfixed32, .sfixed64, .bool, .string, .bytes]

/-- The names of the units of a runtime library, without its namespace. -/
def libraryParts : List String :=
  ["uProtobuf", "uProtobufMessage", "uProtobufRepeatedField", "uProtobufEnum"]
    ++ scalarTypes.map fun type => "uProtobuf" ++ codecName type

/-- The units of a runtime library. -/
def Runtime.libraryUnits (runtime : Runtime) : List String :=
  libraryParts.map runtime.unit

/-- Used units of two libraries are parallel: they are one unit, which belongs to neither library, or
they are units of the libraries whose names differ only in the namespace. -/
inductive Parallel (first second : Runtime) : String → String → Prop
  | shared {unit : String} (notFirst : unit ∉ first.libraryUnits)
    (notSecond : unit ∉ second.libraryUnits) : Parallel first second unit unit
  | library {part : String} (inside : part ∈ libraryParts) :
    Parallel first second (first.unit part) (second.unit part)

section

variable {first second : Runtime}

theorem Runtime.unit_inj (runtime : Runtime) {part other : String} :
    runtime.unit part = runtime.unit other ↔ part = other :=
  String.append_right_inj _

/-- The names of the units of a library have dots. -/
theorem notMem_libraryUnits {unit : String} (undotted : '.' ∉ unit.toList) (runtime : Runtime) :
    unit ∉ runtime.libraryUnits := by
  intro listed
  obtain ⟨part, -, rfl⟩ := List.mem_map.mp listed
  refine undotted ?_
  rw [Runtime.unit, String.toList_append, String.toList_append]
  exact List.mem_append_left _ (List.mem_append_right _ (by decide))

theorem Parallel.undotted {unit : String} (undotted : '.' ∉ unit.toList) :
    Parallel first second unit unit :=
  .shared (notMem_libraryUnits undotted first) (notMem_libraryUnits undotted second)

/-- **Parallel units are told apart alike**: two of them are equal exactly if their partners are. -/
theorem Parallel.eq_iff {unit unit' partner partner' : String}
    (parallel : Parallel first second unit partner)
    (parallel' : Parallel first second unit' partner') : unit = unit' ↔ partner = partner' := by
  cases parallel with
  | shared notFirst notSecond =>
    cases parallel' with
    | shared _ _ => exact Iff.rfl
    | library inside =>
      refine iff_of_false ?_ ?_
      · rintro rfl
        exact notFirst (List.mem_map_of_mem inside)
      · rintro rfl
        exact notSecond (List.mem_map_of_mem inside)
  | library inside =>
    cases parallel' with
    | shared notFirst notSecond =>
      refine iff_of_false ?_ ?_
      · rintro rfl
        exact notFirst (List.mem_map_of_mem inside)
      · rintro rfl
        exact notSecond (List.mem_map_of_mem inside)
    | library inside' => rw [first.unit_inj, second.unit_inj]

end

/-! ### The units that a file needs -/

/-- The units of other files that a file needs: those of its dependencies, and those of the types to
which its fields refer. -/
def importedUnits (index : TypeIndex) (unit : String) (file : Schema.File) : List String :=
  dependencyUnits index file
    ++ (allFields file.messages).flatMap fun field => declaringUnits index unit field.type

section

variable {first second : Runtime}

theorem typeUnits_parallel (type : FieldType) :
    List.Forall₂ (Parallel first second) (typeUnits first type) (typeUnits second type) := by
  match type with
  | .scalar .bytes => exact .cons (.undotted (by decide)) (.cons (.library (by decide)) .nil)
  | .reference .enumeration _ => exact .cons (.library (by decide)) .nil
  | .reference .message _ => exact .cons (.library (by decide)) .nil
  | .scalar .double | .scalar .float | .scalar .int32 | .scalar .int64 | .scalar .uint32
  | .scalar .uint64 | .scalar .sint32 | .scalar .sint64 | .scalar .fixed32 | .scalar .fixed64
  | .scalar .sfixed32 | .scalar .sfixed64 | .scalar .bool | .scalar .string =>
    exact .cons (.library (by decide)) .nil

theorem labelUnits_parallel (field : Field) :
    List.Forall₂ (Parallel first second) (labelUnits first field) (labelUnits second field) := by
  unfold labelUnits
  split
  · exact .cons (.library (by decide)) .nil
  · exact .nil

/-- **The units that a file needs with two libraries are parallel**, if those of other files belong to
neither library. -/
theorem fileUnits_parallel {index : TypeIndex} {unit : String} {file : Schema.File}
    (separate : ∀ imported ∈ importedUnits index unit file,
      imported ∉ first.libraryUnits ∧ imported ∉ second.libraryUnits) :
    List.Forall₂ (Parallel first second) (fileUnits index first unit file)
      (fileUnits index second unit file) := by
  have shared {units : List String} (inside : units ⊆ importedUnits index unit file) :
      List.Forall₂ (Parallel first second) units units :=
    List.forall₂_same.mpr fun imported listed =>
      .shared (separate imported (inside listed)).1 (separate imported (inside listed)).2
  have base : List.Forall₂ (Parallel first second) first.baseUnits second.baseUnits :=
    .cons (.undotted (by decide))
      (.cons (.library (by decide)) (.cons (.library (by decide)) .nil))
  refine List.rel_append (List.rel_append base (shared (List.subset_append_left _ _)))
    (forall₂_flatMap fun field declared => ?_)
  refine List.rel_append (List.rel_append (typeUnits_parallel _) (labelUnits_parallel field))
    (shared fun imported listed => ?_)
  exact List.mem_append_right _ (List.mem_flatMap.mpr ⟨field, declared, listed⟩)

end

namespace Request

/-! ### Requests -/

/-- The units of other files that a requested file needs. -/
def requestedImports (index : TypeIndex) (files : List Schema.File) (name : String) : List String :=
  match findFile files name with
  | .error _ => []
  | .ok file =>
    match lastUnder file.name index.units with
    | none => []
    | some identifier => importedUnits index identifier.fullName file

/-- The units of other files that the requested files need. -/
def allImports (descriptors : List FileDescriptor) (requested : List String) : List String :=
  match descriptors.mapM Schema.File.ofDescriptor with
  | .error _ => []
  | .ok files =>
    match TypeIndex.build files with
    | .error _ => []
    | .ok index => requested.flatMap (requestedImports index files)

/-- **Units of one requested file use parallel units** with two libraries, if the units of other files
belong to neither library. -/
theorem uses_parallel {index : TypeIndex} {files : List Schema.File} {name : String}
    {first second : Runtime} {generated other : GeneratedUnit}
    (made : (generateRequested first index files name).result = .ok generated)
    (other_made : (generateRequested second index files name).result = .ok other)
    (separate : ∀ imported ∈ requestedImports index files name,
      imported ∉ first.libraryUnits ∧ imported ∉ second.libraryUnits) :
    List.Forall₂ (Parallel first second) generated.unit.uses other.unit.uses := by
  obtain ⟨file, identifier, found, listed, uses_eq⟩ := generateRequested_uses made
  obtain ⟨file', identifier', found', listed', other_uses_eq⟩ := generateRequested_uses other_made
  cases found.symm.trans found'
  cases listed.symm.trans listed'
  simp only [requestedImports, found, listed] at separate
  rw [uses_eq, other_uses_eq]
  exact forall₂_eraseDups Parallel.eq_iff (fileUnits_parallel separate)

/-- Requests that differ in their options agree, if they do for each requested file. -/
theorem generate_agree {descriptors : List FileDescriptor} {requested : List String}
    {first second : Options} {relation : GeneratedUnit → GeneratedUnit → Prop}
    (each : ∀ files index, descriptors.mapM Schema.File.ofDescriptor = .ok files →
      TypeIndex.build files = .ok index → ∀ name ∈ requested,
      Agree relation (generateRequested first.runtime index files name).result
        (generateRequested second.runtime index files name).result) :
    Agree (List.Forall₂ relation) (generate descriptors requested first).result
      (generate descriptors requested second).result := by
  simp only [generate, Traced.result_bind, Traced.monadLift_eq, Traced.result_silent,
    Traced.result_note, Traced.result_mapM]
  refine .after fun files loaded => .after fun index built => .after fun _ _ => ?_
  refine (Agree.mapM fun name asked => each files index loaded built name asked).bind
    fun _ _ related => ?_
  exact .ok related

/-- **The runtime library changes nothing but the used units.** Two requests that differ in the
namespace of the library fail with the same error, or give as many units, which have the same paths,
names, headers, types and implementations. If the units of other files that the requested files need
belong to neither library, then the used units are parallel: an entry of one list stands in the other
too, or is the unit of the other library with the same name after the namespace. -/
theorem runtime_changes_only_uses (descriptors : List FileDescriptor) (requested : List String)
    (first second : Options) :
    Agree (List.Forall₂ GeneratedUnit.SameCode) (generate descriptors requested first).result
      (generate descriptors requested second).result ∧
    ((∀ imported ∈ allImports descriptors requested,
        imported ∉ first.runtime.libraryUnits ∧ imported ∉ second.runtime.libraryUnits) →
      Agree (List.Forall₂ fun generated other => List.Forall₂ (Parallel first.runtime second.runtime)
          generated.unit.uses other.unit.uses)
        (generate descriptors requested first).result
        (generate descriptors requested second).result) := by
  have same {index : TypeIndex} {files : List Schema.File} (name : String) :=
    generateRequested_agree (TypeIndex.Alike.refl index) first.runtime second.runtime
      (show findFile files name = findFile files name from rfl)
  refine ⟨generate_agree fun files index _ _ name _ => same name, fun separate => ?_⟩
  refine generate_agree fun files index loaded built name asked => ?_
  simp only [allImports, loaded, built] at separate
  refine (same name).imp fun generated other made other_made _ => ?_
  refine uses_parallel made other_made fun imported listed => ?_
  exact separate imported (List.mem_flatMap.mpr ⟨name, asked, listed⟩)

/-- A file that refers to a message of another file. -/
def linkedFiles : List FileDescriptor :=
  [{ name := some "b.proto", package := some "p", messages := [{ name := some "B" }] },
   { name := some "a.proto", dependencies := ["b.proto"]
     messages :=
       [{ name := some "A"
          fields :=
            [{ name := some "x", number := some 1, label := some 1, type := some 12 },
             { name := some "y", number := some 2, label := some 3, type := some 11,
               typeName := some ".p.B" }] }] }]

/-- With another namespace the unit of the file differs in the units of the library that it uses. -/
theorem linked_uses_parallel :
    allImports linkedFiles ["a.proto"] = ["P.uB", "P.uB"] ∧
    ∃ units others, (generate linkedFiles ["a.proto"] {}).result = .ok units ∧
      (generate linkedFiles ["a.proto"] ⟨some "Other"⟩).result = .ok others ∧
      units.map (fun generated => generated.unit.uses) =
        [["Classes", "Protobuf.Delphi.uProtobuf", "Protobuf.Delphi.uProtobufMessage", "P.uB",
          "SysUtils", "Protobuf.Delphi.uProtobufBytes", "Protobuf.Delphi.uProtobufRepeatedField"]] ∧
      List.Forall₂ GeneratedUnit.SameCode units others ∧
      List.Forall₂ (fun generated other => List.Forall₂ (Parallel .reference ⟨"Other"⟩)
        generated.unit.uses other.unit.uses) units others := by
  have imports : allImports linkedFiles ["a.proto"] = ["P.uB", "P.uB"] := by decide +kernel
  have evaluated : (do
      let units ← (generate linkedFiles ["a.proto"] {}).result
      return units.map fun generated : GeneratedUnit => generated.unit.uses) =
      .ok [["Classes", "Protobuf.Delphi.uProtobuf", "Protobuf.Delphi.uProtobufMessage", "P.uB",
        "SysUtils", "Protobuf.Delphi.uProtobufBytes", "Protobuf.Delphi.uProtobufRepeatedField"]] := by
    decide +kernel
  obtain ⟨units, generated, uses_eq⟩ := bind_eq_ok.mp evaluated
  obtain ⟨same, parallel⟩ := runtime_changes_only_uses linkedFiles ["a.proto"] {} ⟨some "Other"⟩
  have separate := parallel fun imported listed => by
    obtain rfl : imported = "P.uB" := by simpa [imports] using listed
    exact ⟨by decide +kernel, by decide +kernel⟩
  obtain ⟨others, other_generated, same⟩ := same.exists_ok generated
  obtain ⟨others', other_generated', separate⟩ := separate.exists_ok generated
  cases other_generated.symm.trans other_generated'
  exact ⟨imports, units, others, generated, other_generated, pure_eq_ok.mp uses_eq, same, separate⟩

end Request

end ProtoPascal
