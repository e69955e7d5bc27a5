import ProtoPascal.Proofs.DescriptorRules
import ProtoPascal.Proofs.OutputPaths
import ProtoPascal.Proofs.TypeReferences
import ProtoPascal.Request.Generation

/-!
Units of different files with one name. The name of a unit keeps of its file what the style of Pascal
keeps of the names in its namespace and of its stem: a package hides the directories, and the style
hides how words are joined. So files with different names can have units of one name, which are then
stored under one path.

* `keywordScope_generate_eq_iff`: identifiers are equal exactly if the styled names are;
* `outputPath_eq_iff`: two units are stored under one path exactly if they have one name;
* `outputs_differ_iff`: exactly when the units of a request have different paths and names;
* `files_of_one_package_collide`: files with different names whose units do not.
-/

namespace ProtoPascal

open Naming Text

/-! ### Names of units -/

/-- The names of which the name of a unit is made, in the style of Pascal: those of the namespace, and
the stem of the file. -/
def styledPath (file : Schema.File) : List String :=
  (namespaceCores file ++ [file.stem]).map CaseStyle.pascal.apply

/-- **Identifiers are equal exactly if the styled names are.** A mark is part of no styled name, so the
mark of a name that was taken does not make it equal to another one. -/
theorem keywordScope_generate_eq_iff {rule : Rule} (style : rule.style = .pascal)
    (mark : rule.retryMark = "_") (trail : rule.trail = "") {core other identifier result : String}
    (generated : keywordScope.generate rule [] core = .ok identifier)
    (other_generated : keywordScope.generate rule [] other = .ok result) :
    identifier = result ↔ CaseStyle.pascal.apply core = CaseStyle.pascal.apply other := by
  have unmarked (name text : String) :
      CaseStyle.pascal.apply name ≠ CaseStyle.pascal.apply text ++ "_" := by
    intro same
    refine notMem_apply_pascal isDivider_underscore name ?_
    rw [same, String.toList_append]
    exact List.mem_append_right _ (by decide)
  constructor
  · intro same
    have plain_or_marked := (generate_eq_ok generated).2
    have other_plain_or_marked := (generate_eq_ok other_generated).2
    simp only [Rule.plain, Rule.marked, style, mark, trail, String.append_empty]
      at plain_or_marked other_plain_or_marked
    rw [← same] at other_plain_or_marked
    rcases plain_or_marked with plain | marked <;>
      rcases other_plain_or_marked with other_plain | other_marked
    · exact String.append_right_inj _ |>.mp (plain.symm.trans other_plain)
    · rw [String.append_assoc] at other_marked
      exact absurd (String.append_right_inj _ |>.mp (plain.symm.trans other_marked)) (unmarked _ _)
    · rw [String.append_assoc] at marked
      exact absurd (String.append_right_inj _ |>.mp (other_plain.symm.trans marked)) (unmarked _ _)
    · exact String.append_right_inj _ |>.mp
        (String.append_left_inj _ |>.mp (marked.symm.trans other_marked))
  · intro same
    have plain_eq : rule.plain core = rule.plain other := by rw [Rule.plain, Rule.plain, style, same]
    have marked_eq : rule.marked core = rule.marked other := by
      rw [Rule.marked, Rule.marked, style, same]
    rw [Scope.generate, plain_eq, marked_eq] at generated
    rw [Scope.generate] at other_generated
    split at generated
    · next free =>
      rw [if_pos free] at other_generated
      exact Except.ok.inj (generated.symm.trans other_generated)
    · next taken =>
      rw [if_neg taken] at other_generated
      split at generated
      · next free =>
        rw [if_pos free] at other_generated
        exact Except.ok.inj (generated.symm.trans other_generated)
      · cases generated

section

variable {file other : Schema.File} {identifier result : UnitIdentifier}
  (named : UnitIdentifier.ofFile file = .ok identifier)
  (other_named : UnitIdentifier.ofFile other = .ok result)

include named other_named

/-- Two files have one unit exactly if their styled names agree. -/
theorem identifier_eq_iff : identifier = result ↔ styledPath file = styledPath other := by
  obtain ⟨generated, name_generated⟩ := ofFile_eq_ok.mp named
  obtain ⟨other_generated, other_name_generated⟩ := ofFile_eq_ok.mp other_named
  have names := keywordScope_generate_eq_iff rfl rfl rfl name_generated other_name_generated
  have segments := eq_iff_map_eq_of_forall₂ (fun _ _ _ _ made other_made =>
    keywordScope_generate_eq_iff rfl rfl rfl made other_made) generated other_generated
  rw [styledPath, styledPath, List.map_append, List.map_append, List.map_singleton,
    List.map_singleton, List.append_singleton_inj, ← names, ← segments]
  cases identifier
  cases result
  exact UnitIdentifier.mk.injEq ..▸ Iff.rfl

/-- Two units have one name exactly if they are the same. -/
theorem fullName_eq_iff_eq : identifier.fullName = result.fullName ↔ identifier = result := by
  refine ⟨fun same => ?_, fun same => congrArg UnitIdentifier.fullName same⟩
  have paths := (fullName_eq_iff named other_named).mp same
  obtain ⟨segments, name⟩ := List.append_singleton_inj.mp paths
  cases identifier
  cases result
  cases segments
  cases name
  rfl

/-- **Two units are stored under one path exactly if they are the same.** -/
theorem outputPath_eq_iff : identifier.outputPath = result.outputPath ↔ identifier = result := by
  refine ⟨fun same => ?_, fun same => congrArg UnitIdentifier.outputPath same⟩
  have components := congrArg (pieces '/') same
  rw [pieces_outputPath named, pieces_outputPath other_named, List.append_singleton_inj]
    at components
  exact (fullName_eq_iff_eq named other_named).mp ((String.append_left_inj _).mp components.2)

end

/-! ### Units of a request -/

end ProtoPascal

namespace ProtoPascal.Request

open Schema (FileDescriptor)

/-- A generated unit is that of a file: its path and its name are those of the unit of the file. -/
def IsUnitOf (file : Schema.File) (generated : GeneratedUnit) : Prop :=
  ∃ identifier, UnitIdentifier.ofFile file = .ok identifier ∧
    generated.path = identifier.outputPath ∧ generated.unit.name = identifier.fullName

theorem name_of_ofDescriptor {descriptor : FileDescriptor} {file : Schema.File}
    (described : Schema.File.ofDescriptor descriptor = .ok file) :
    descriptor.name = some file.name :=
  (Schema.File.ofDescriptor_eq_ok.mp described).2.name

section

variable {descriptors : List FileDescriptor} {requested : List String} {options : Options}
  {units : List GeneratedUnit}

/-- Files have different names, if their descriptors do. -/
theorem nodup_names {files : List Schema.File}
    (described : List.Forall₂ (fun descriptor file => Schema.File.ofDescriptor descriptor = .ok file)
      descriptors files) (distinct : (descriptors.map FileDescriptor.name).Nodup) :
    (files.map Schema.File.name).Nodup := by
  refine (nodup_map_iff_of_forall₂ ?_ described).mpr distinct
  intro descriptor descriptor' file file' first second
  rw [name_of_ofDescriptor first, name_of_ofDescriptor second, Option.some.injEq]

/-- A request succeeds if all descriptors describe files, these files have an index, and each requested
file has a unit. -/
theorem generate_eq_ok : (generate descriptors requested options).result = .ok units ↔
    ∃ files index,
      List.Forall₂ (fun descriptor file => Schema.File.ofDescriptor descriptor = .ok file)
        descriptors files ∧
      TypeIndex.build files = .ok index ∧
      (requested.mapM fun name => (generateRequested options.runtime index files name).result) =
        .ok units := by
  simp only [generate, Traced.result_bind, Traced.monadLift_eq, Traced.result_silent,
    Traced.result_note, Traced.result_mapM, ← mapM_eq_ok]
  constructor
  · intro generated
    obtain ⟨files, loaded, generated⟩ := bind_eq_ok.mp generated
    obtain ⟨index, built, generated⟩ := bind_eq_ok.mp generated
    obtain ⟨-, -, generated⟩ := bind_eq_ok.mp generated
    obtain ⟨results, made, generated⟩ := bind_eq_ok.mp generated
    obtain ⟨-, -, generated⟩ := bind_eq_ok.mp generated
    rw [Traced.result_pure, Except.ok.injEq] at generated
    exact ⟨files, index, loaded, built, generated ▸ made⟩
  · rintro ⟨files, index, loaded, built, made⟩
    exact bind_eq_ok.mpr ⟨files, loaded, bind_eq_ok.mpr ⟨index, built,
      bind_eq_ok.mpr ⟨(), rfl, bind_eq_ok.mpr ⟨units, made, rfl⟩⟩⟩⟩

theorem findFile_eq_ok {files : List Schema.File} {name : String} {file : Schema.File}
    (found : findFile files name = .ok file) : file ∈ files ∧ file.name = name := by
  unfold findFile at found
  split at found
  · next searched =>
    cases found
    have named : (file.name == name) = true :=
      List.find?_some (p := fun other : Schema.File => other.name == name) searched
    exact ⟨List.mem_of_find?_eq_some searched, beq_iff_eq.mp named⟩
  · cases found

/-- What the unit of one requested file is made of. -/
theorem generateRequested_eq_ok {runtime : Runtime} {index : TypeIndex} {files : List Schema.File}
    {name : String} {generated : GeneratedUnit}
    (made : (generateRequested runtime index files name).result = .ok generated) :
    ∃ file, findFile files name = .ok file ∧
      (generateUnit index runtime file).result = .ok generated.unit ∧
      ∃ identifier, index.unit file.name file.name = .ok identifier ∧
        generated.path = identifier.outputPath := by
  simp only [generateRequested, Traced.result_bind, Traced.monadLift_eq, Traced.result_silent,
    Traced.result_note] at made
  obtain ⟨file, found, made⟩ := bind_eq_ok.mp made
  obtain ⟨unit, unit_made, made⟩ := bind_eq_ok.mp made
  obtain ⟨identifier, known, made⟩ := bind_eq_ok.mp made
  obtain ⟨-, -, made⟩ := bind_eq_ok.mp made
  rw [Traced.result_pure, Except.ok.injEq] at made
  subst made
  exact ⟨file, found, unit_made, identifier, known, rfl⟩

/-- **A request gives the units of the files that it asks for**, in their order. -/
theorem generate_sources (distinct : (descriptors.map FileDescriptor.name).Nodup)
    (generated : (generate descriptors requested options).result = .ok units) :
    ∃ sources, List.Forall₂ (fun name source => source.name = name ∧ ∃ descriptor ∈ descriptors,
        Schema.File.ofDescriptor descriptor = .ok source) requested sources ∧
      List.Forall₂ IsUnitOf sources units := by
  obtain ⟨files, index, described, built, made⟩ := generate_eq_ok.mp generated
  refine exists_between_of_forall₂ ((mapM_eq_ok.mp made).imp fun name unit unit_made => ?_)
  obtain ⟨file, found, unit_generated, identifier, known, path⟩ := generateRequested_eq_ok unit_made
  obtain ⟨inside, named⟩ := findFile_eq_ok found
  have identified := ofFile_of_unit built (nodup_names described distinct) inside known
  obtain ⟨descriptor, descriptor_inside, file_described⟩ := exists_left_of_forall₂ described inside
  obtain ⟨identifier', _, _, parts⟩ := generateUnit_parts unit_generated
  cases Except.ok.inj (known.symm.trans parts.known)
  exact ⟨file, ⟨named, descriptor, descriptor_inside, file_described⟩, identifier, identified, path,
    parts.name⟩

/-- The units of two files have one path exactly if the styled names of the files agree, and so have
they one name. -/
theorem IsUnitOf.eq_iff {file file' : Schema.File} {generated generated' : GeneratedUnit}
    (first : IsUnitOf file generated) (second : IsUnitOf file' generated') :
    (generated.path = generated'.path ↔ styledPath file = styledPath file') ∧
      (generated.unit.name = generated'.unit.name ↔ styledPath file = styledPath file') := by
  obtain ⟨identifier, named, path, name⟩ := first
  obtain ⟨identifier', named', path', name'⟩ := second
  rw [path, path', name, name', ← identifier_eq_iff named named']
  exact ⟨outputPath_eq_iff named named', fullName_eq_iff_eq named named'⟩

/-- **When the units of a request differ.** A request for files with different names gives the units of
these files. Two of the units have one path, and one name, exactly if the names that make up their
namespaces and their stems agree in the style of Pascal. So no unit takes the place of another one
exactly if all styled names of the requested files are different. -/
theorem outputs_differ_iff (distinct : (descriptors.map FileDescriptor.name).Nodup)
    (generated : (generate descriptors requested options).result = .ok units) :
    ∃ sources, List.Forall₂ (fun name source => source.name = name ∧ ∃ descriptor ∈ descriptors,
        Schema.File.ofDescriptor descriptor = .ok source) requested sources ∧
      units.length = sources.length ∧
      (∀ (position position' : Nat) unit unit' source source',
        units[position]? = some unit → units[position']? = some unit' →
        sources[position]? = some source → sources[position']? = some source' →
        (unit.path = unit'.path ↔ styledPath source = styledPath source') ∧
          (unit.unit.name = unit'.unit.name ↔ styledPath source = styledPath source')) ∧
      ((units.map GeneratedUnit.path).Nodup ↔ (sources.map styledPath).Nodup) ∧
      ((units.map fun unit => unit.unit.name).Nodup ↔ (sources.map styledPath).Nodup) := by
  obtain ⟨sources, asked, made⟩ := generate_sources distinct generated
  refine ⟨sources, asked, made.length_eq.symm, ?_, ?_, ?_⟩
  · intro position position' unit unit' source source' found found' source_found source_found'
    obtain ⟨item, item_found, first⟩ := exists_left_getElem? made found
    obtain ⟨item', item_found', second⟩ := exists_left_getElem? made found'
    cases source_found.symm.trans item_found
    cases source_found'.symm.trans item_found'
    exact first.eq_iff second
  · exact nodup_map_iff_of_forall₂ (fun _ _ _ _ first second => (first.eq_iff second).1) made
  · exact nodup_map_iff_of_forall₂ (fun _ _ _ _ first second => (first.eq_iff second).2) made

end

/-- Files in different directories, whose names have the same words. -/
def separateFiles : List FileDescriptor :=
  [{ name := some "a/x_y.proto" }, { name := some "b/xY.proto" }]

/-- The units of the files have different paths, since the styled names of the files differ. -/
theorem separate_outputs_differ :
    (separateFiles.map FileDescriptor.name).Nodup ∧
    ∃ units, (generate separateFiles ["a/x_y.proto", "b/xY.proto"] {}).result = .ok units ∧
      units.map GeneratedUnit.path = ["A/A.uXY.pas", "B/B.uXY.pas"] ∧
      ∃ sources, List.Forall₂ (fun name source => source.name = name ∧
          ∃ descriptor ∈ separateFiles, Schema.File.ofDescriptor descriptor = .ok source)
        ["a/x_y.proto", "b/xY.proto"] sources ∧ (sources.map styledPath).Nodup := by
  have distinct : (separateFiles.map FileDescriptor.name).Nodup := by decide
  have evaluated : (do
      let units ← (generate separateFiles ["a/x_y.proto", "b/xY.proto"] {}).result
      return units.map GeneratedUnit.path) = .ok ["A/A.uXY.pas", "B/B.uXY.pas"] := by
    decide +kernel
  obtain ⟨units, generated, paths⟩ := bind_eq_ok.mp evaluated
  rw [pure_eq_ok] at paths
  obtain ⟨sources, asked, -, -, differ, -⟩ := outputs_differ_iff distinct generated
  refine ⟨distinct, units, generated, paths, sources, asked, differ.mp ?_⟩
  rw [paths]
  decide

/-- Files of one package in different directories. -/
def sharedPackage : List FileDescriptor :=
  [{ name := some "a/x.proto", package := some "p" },
   { name := some "b/x.proto", package := some "p" }]

/-- **Files of one package collide.** Their names are different, and the request for both gives two
units with one name and one path. -/
theorem files_of_one_package_collide :
    (sharedPackage.map FileDescriptor.name).Nodup ∧ ["a/x.proto", "b/x.proto"].Nodup ∧
    ∃ units, (generate sharedPackage ["a/x.proto", "b/x.proto"] {}).result = .ok units ∧
      units.map GeneratedUnit.path = ["P/P.uX.pas", "P/P.uX.pas"] ∧
      units.map (fun unit => unit.unit.name) = ["P.uX", "P.uX"] := by
  have evaluated : (do
      let units ← (generate sharedPackage ["a/x.proto", "b/x.proto"] {}).result
      return (units.map GeneratedUnit.path,
        units.map fun unit : GeneratedUnit => unit.unit.name)) =
        .ok (["P/P.uX.pas", "P/P.uX.pas"], ["P.uX", "P.uX"]) := by
    decide +kernel
  obtain ⟨units, generated, facts⟩ := bind_eq_ok.mp evaluated
  rw [pure_eq_ok, Prod.mk.injEq] at facts
  exact ⟨by decide, by decide, units, generated, facts⟩

end ProtoPascal.Request
