import ProtoPascal.CommandLine.Session
import ProtoPascal.Proofs.Results

/-!
What is left of output that fails. Units are written one after the other, and nothing is taken back.
When a unit cannot be written because of its path or a directory, the directories on the way to it may
have been created, but no file is touched on its account. The units before it stay, so output is undone
by a failure only where it gave files the contents that they had. A write that fails after it has created
or emptied its file is not among the failures of the file system.

* `createDirectories_addsDirectories`: creating directories leaves all files as they are;
* `run_writeUnit`: what one unit does to a file system;
* `failed_output_keeps_earlier_units`: which files there are after output that failed;
* `failed_output_leaves_unit`: a request whose first unit stays when the second one fails.
-/

namespace ProtoPascal

namespace Files

/-! ### Nodes and contents -/

/-- The content of the file at a place. -/
def FileSystem.content? (files : FileSystem) (place : List String) : Option (List UInt8) :=
  match files.node? place with
  | some (.file content) => some content
  | _ => none

theorem lookup_filter_ne {place other : List String} (different : other ≠ place)
    (nodes : List (List String × Node)) :
    (nodes.filter fun entry => entry.1 != place).lookup other = nodes.lookup other := by
  induction nodes with
  | nil => rfl
  | cons entry rest ih =>
    obtain ⟨key, node⟩ := entry
    rw [List.filter_cons, List.lookup_cons]
    by_cases same : key = place
    · have missed : (other == place) = false := beq_eq_false_iff_ne.mpr different
      simp [same, missed, ih]
    · simp [same, List.lookup_cons, ih]

/-- A node that is put at a place stands there, and all others stay. -/
theorem node?_put {files : FileSystem} {place : List String}
    (outside : files.node? place ≠ some .directory) (node : Node) (other : List String) :
    (files.put place node).node? other = if other = place then some node else files.node? other := by
  have below : ¬ place.isPrefixOf files.home = true := by
    intro above
    exact outside (if_pos above)
  by_cases same : other = place
  · subst same
    rw [FileSystem.node?, FileSystem.put, if_neg below, if_pos rfl]
    exact List.lookup_cons_self
  · have missed : (other == place) = false := beq_eq_false_iff_ne.mpr same
    rw [FileSystem.node?, FileSystem.node?, FileSystem.put, if_neg same]
    simp only [List.lookup_cons, missed, lookup_filter_ne same]

/-- A file system has more directories than another one and does not differ from it otherwise. -/
structure AddsDirectories (before after : FileSystem) : Prop where
  home : after.home = before.home
  nodes : ∀ place, after.node? place = before.node? place ∨
    before.node? place = none ∧ after.node? place = some .directory

/-- A file system has a content at a place and does not differ from another one otherwise. -/
structure WritesFile (before : FileSystem) (place : List String) (content : List UInt8)
    (after : FileSystem) : Prop where
  home : after.home = before.home
  outside : before.node? place ≠ some .directory
  written : after.node? place = some (.file content)
  others : ∀ other, other ≠ place → after.node? other = before.node? other

theorem AddsDirectories.refl (files : FileSystem) : AddsDirectories files files :=
  ⟨rfl, fun _ => .inl rfl⟩

theorem AddsDirectories.trans {first second third : FileSystem}
    (left : AddsDirectories first second) (right : AddsDirectories second third) :
    AddsDirectories first third := by
  refine ⟨right.home.trans left.home, fun place => ?_⟩
  rcases right.nodes place with same | ⟨missing, made⟩
  · rw [same]
    exact left.nodes place
  · rcases left.nodes place with same | ⟨-, present⟩
    · exact .inr ⟨same ▸ missing, made⟩
    · cases missing.symm.trans present

/-- **More directories change no file.** -/
theorem AddsDirectories.content {before after : FileSystem} (adds : AddsDirectories before after)
    (place : List String) : after.content? place = before.content? place := by
  unfold FileSystem.content?
  rcases adds.nodes place with same | ⟨missing, made⟩
  · rw [same]
  · rw [missing, made]

theorem WritesFile.content {before after : FileSystem} {place : List String}
    {content : List UInt8} (writes : WritesFile before place content after) (other : List String) :
    after.content? other = if other = place then some content else before.content? other := by
  unfold FileSystem.content?
  by_cases same : other = place
  · rw [same, writes.written, if_pos rfl]
  · rw [writes.others other same, if_neg same]

/-! ### What operations do -/

theorem addsDirectories_of_createDirectory {before after : FileSystem} {path : String}
    (created : before.createDirectory path = .ok after) : AddsDirectories before after := by
  unfold FileSystem.createDirectory at created
  split at created
  · cases created
  · next place _ =>
    split at created
    · cases created
    · next missing =>
      cases created
      have none_there : before.node? place = none := by simpa using missing
      refine ⟨rfl, fun other => ?_⟩
      rw [node?_put (by simp [none_there])]
      by_cases same : other = place
      · exact .inr ⟨same ▸ none_there, if_pos same⟩
      · exact .inl (if_neg same)

theorem writesFile_of_write {before after : FileSystem} {path : String} {content : List UInt8}
    (wrote : before.write path content = .ok after) :
    ∃ place, before.target path = .ok place ∧ WritesFile before place content after := by
  unfold FileSystem.write at wrote
  split at wrote
  · cases wrote
  · next place reached =>
    split at wrote
    · cases wrote
    · next writable =>
      cases wrote
      have outside : before.node? place ≠ some .directory := by simp_all
      refine ⟨place, reached, rfl, outside, ?_, fun other different => ?_⟩
      · rw [node?_put outside, if_pos rfl]
      · rw [node?_put outside, if_neg different]

section

variable (files : FileSystem) (path : String)

theorem run_bind {α β : Type} (first : StateM FileSystem α) (next : α → StateM FileSystem β) :
    (first >>= next).run files = (next (first.run files).1).run (first.run files).2 := rfl

theorem run_createDirectory :
    (Storage.createDirectory path : StateM FileSystem _).run files =
      match files.createDirectory path with
      | .ok after => (.ok (), after)
      | .error fault => (.error fault, files) := by
  cases created : files.createDirectory path <;>
    simp [Storage.createDirectory, commit, created] <;> rfl

theorem run_writeFile (text : String) :
    (Storage.writeFile path text : StateM FileSystem _).run files =
      match files.write path (Wire.textBytes text) with
      | .ok after => (.ok (), after)
      | .error fault => (.error fault, files) := by
  cases wrote : files.write path (Wire.textBytes text) <;>
    simp [Storage.writeFile, commit, wrote] <;> rfl

theorem run_isDirectory : ((isDirectory path : StateM FileSystem _).run files).2 = files := by
  rw [isDirectory, run_bind]
  have read : (Storage.readFile path : StateM FileSystem _).run files = (files.read path, files) := rfl
  rw [read]
  dsimp only
  split <;> rfl

/-- To settle an attempt changes nothing. -/
theorem run_settle (result : Except Fault Unit) :
    ((settle path result : StateM FileSystem _).run files).2 = files := by
  cases result with
  | ok _ => rfl
  | error fault =>
    rw [settle, run_bind]
    split <;> exact run_isDirectory files path

end

/-- **Creating directories leaves all files as they are**, also if it fails. -/
theorem createDirectories_addsDirectories (paths : List String) (files : FileSystem) :
    AddsDirectories files ((createDirectories paths : StateM FileSystem _).run files).2 := by
  have attempt (path : String) (files : FileSystem) :
      AddsDirectories files ((Storage.createDirectory path : StateM FileSystem _).run files).2 := by
    rw [run_createDirectory]
    cases created : files.createDirectory path with
    | ok after => exact addsDirectories_of_createDirectory created
    | error fault => exact .refl files
  induction paths generalizing files with
  | nil => exact .refl files
  | cons path above ih =>
    rw [createDirectories, run_bind]
    have first := attempt path files
    split
    · -- Something above is missing: the directories above come first, then one more attempt.
      rw [run_bind]
      have rest := ih ((Storage.createDirectory path : StateM FileSystem _).run files).2
      split
      · exact first.trans rest
      · rw [run_bind, run_settle]
        exact (first.trans rest).trans (attempt path _)
    · rw [run_settle]
      exact first

/-! ### Paths -/

/-- What there was in a file system is still there, and directories are still directories. -/
structure Grows (before after : FileSystem) : Prop where
  home : after.home = before.home
  directories : ∀ place, before.node? place = some .directory → after.node? place = some .directory
  present : ∀ place, (before.node? place).isSome → (after.node? place).isSome

theorem AddsDirectories.grows {before after : FileSystem} (adds : AddsDirectories before after) :
    Grows before after := by
  refine ⟨adds.home, fun place found => ?_, fun place found => ?_⟩
  · rcases adds.nodes place with same | ⟨-, made⟩
    · rw [same, found]
    · exact made
  · rcases adds.nodes place with same | ⟨-, made⟩
    · rwa [same]
    · rw [made]
      rfl

theorem WritesFile.grows {before after : FileSystem} {place : List String} {content : List UInt8}
    (writes : WritesFile before place content after) : Grows before after := by
  refine ⟨writes.home, fun other found => ?_, fun other found => ?_⟩
  · rw [writes.others other (fun same => writes.outside (same ▸ found)), found]
  · by_cases same : other = place
    · rw [same, writes.written]
      rfl
    · rwa [writes.others other same]

theorem Grows.trans {first second third : FileSystem} (left : Grows first second)
    (right : Grows second third) : Grows first third :=
  ⟨right.home.trans left.home, fun place found => right.directories place (left.directories place found),
    fun place found => right.present place (left.present place found)⟩

section

variable {before after : FileSystem} (grows : Grows before after)
include grows

theorem Grows.advance {place next : List String} {step : Step}
    (advanced : before.advance place step = .ok next) : after.advance place step = .ok next := by
  unfold FileSystem.advance at advanced ⊢
  split at advanced
  · cases advanced
  · next directory =>
    rw [if_neg (not_not.mpr (grows.directories place (not_not.mp directory)))]
    exact advanced

theorem Grows.follow {place final : List String} {path : List Step}
    (followed : before.follow place path = .ok final) : after.follow place path = .ok final := by
  induction path generalizing place with
  | nil => exact followed
  | cons step rest ih =>
    rw [FileSystem.follow] at followed ⊢
    split at followed
    · cases followed
    · next next_place advanced =>
      split at followed
      · next there =>
        rw [grows.advance advanced]
        dsimp only
        rw [if_pos (grows.present next_place there)]
        exact ih followed
      · cases followed

/-- **A path keeps its meaning.** -/
theorem Grows.target {path : String} {place : List String}
    (reached : before.target path = .ok place) : after.target path = .ok place := by
  unfold FileSystem.target at reached ⊢
  split at reached
  · cases reached
  · next filled =>
    split at reached
    · cases reached
    · next short =>
      split at reached
      · cases reached
      · next middle followed =>
        rw [if_neg filled, if_neg short, grows.home, grows.follow followed]
        dsimp only
        split at reached
        · exact reached
        · next step last => exact grows.advance reached

end

end Files

namespace CommandLine

open Files
open Request (GeneratedUnit generate)
open Schema (FileDescriptor)

/-! ### Written units -/

/-- A unit is written: directories are added, and then one file changes. -/
def WritesUnit (directory : String) (generated : GeneratedUnit) (files final : FileSystem) : Prop :=
  ∃ middle place, AddsDirectories files middle ∧
    middle.target (joinPath directory generated.path) = .ok place ∧
    WritesFile middle place (Wire.textBytes generated.content) final

/-- **A unit that is written changes one file, and a unit that cannot be written changes none.** -/
theorem run_writeUnit {directory : String} {generated : GeneratedUnit} {files final : FileSystem}
    {result : Except Error Unit}
    (run : (writeUnit directory generated : StateM FileSystem _).run files = (result, final)) :
    (∃ error, result = .error error ∧ AddsDirectories files final) ∨
      result = .ok () ∧ WritesUnit directory generated files final := by
  rw [writeUnit, run_bind] at run
  have adds := createDirectories_addsDirectories
    (ancestors (parentPath (joinPath directory generated.path))) files
  generalize (createDirectories (ancestors (parentPath (joinPath directory generated.path))) :
    StateM FileSystem _).run files = opened at run adds
  obtain ⟨created, middle⟩ := opened
  cases created with
  | error fault =>
    cases run
    exact .inl ⟨_, rfl, adds⟩
  | ok _ =>
    dsimp only at run adds
    rw [run_bind, run_writeFile] at run
    cases wrote : middle.write (joinPath directory generated.path)
      (Wire.textBytes generated.content) with
    | error fault =>
      rw [wrote] at run
      cases run
      exact .inl ⟨_, rfl, adds⟩
    | ok after =>
      rw [wrote] at run
      cases run
      obtain ⟨place, reached, writes⟩ := writesFile_of_write wrote
      exact .inr ⟨rfl, middle, place, adds, reached, writes⟩

/-- What written units leave behind. Each path leads to a place with the content of the last unit
that was written there, and the other files are as before. -/
structure Leaves (directory : String) (files : FileSystem) (units : List GeneratedUnit)
    (outputs : List (List String × List UInt8)) (final : FileSystem) : Prop where
  grows : Grows files final
  places : List.Forall₂ (fun generated output =>
    final.target (joinPath directory generated.path) = .ok output.1 ∧
      output.2 = Wire.textBytes generated.content) units outputs
  contents : ∀ place,
    final.content? place = (outputs.reverse.lookup place).or (files.content? place)

theorem Leaves.of_addsDirectories {directory : String} {files final : FileSystem}
    (adds : AddsDirectories files final) : Leaves directory files [] [] final :=
  ⟨adds.grows, .nil, fun place => adds.content place⟩

/-- One more unit before others. -/
theorem Leaves.cons {directory : String} {generated : GeneratedUnit}
    {files middle final : FileSystem} {units : List GeneratedUnit}
    {outputs : List (List String × List UInt8)}
    (writes : WritesUnit directory generated files middle)
    (leaves : Leaves directory middle units outputs final) :
    ∃ output, Leaves directory files (generated :: units) (output :: outputs) final := by
  obtain ⟨opened, place, adds, reached, wrote⟩ := writes
  refine ⟨(place, Wire.textBytes generated.content), ?_, ?_, fun other => ?_⟩
  · exact (adds.grows.trans wrote.grows).trans leaves.grows
  · exact .cons ⟨(wrote.grows.trans leaves.grows).target reached, rfl⟩ leaves.places
  · rw [leaves.contents, wrote.content, adds.content, List.reverse_cons, List.lookup_append,
      Option.or_assoc]
    congr 1
    by_cases same : other = place
    · subst same
      rw [if_pos rfl, List.lookup_cons_self]
      rfl
    · have missed : (other == place) = false := beq_eq_false_iff_ne.mpr same
      rw [if_neg same, List.lookup_cons, missed]
      rfl

/-- **Units are written up to the first that fails**, and the ones before it stay. -/
theorem run_writeUnits_error {directory : String} {units : List GeneratedUnit}
    {files final : FileSystem} {error : Error}
    (failed : (writeUnits directory units : StateM FileSystem _).run files = (.error error, final)) :
    ∃ written failing rest outputs middle, units = written ++ failing :: rest ∧
      (writeUnits directory written : StateM FileSystem _).run files = (.ok (), middle) ∧
      (writeUnit directory failing : StateM FileSystem _).run middle = (.error error, final) ∧
      Leaves directory files written outputs final := by
  induction units generalizing files with
  | nil => cases failed
  | cons generated rest ih =>
    rw [writeUnits, run_bind] at failed
    generalize first : (writeUnit directory generated : StateM FileSystem _).run files = outcome
      at failed
    obtain ⟨result, middle⟩ := outcome
    rcases run_writeUnit first with ⟨fault, rfl, adds⟩ | ⟨rfl, writes⟩
    · cases failed
      exact ⟨[], generated, rest, [], files, rfl, rfl, first, .of_addsDirectories adds⟩
    · obtain ⟨written, failing, others, outputs, before, rfl, succeeded, failed, leaves⟩ := ih failed
      obtain ⟨output, leaves⟩ := leaves.cons writes
      refine ⟨generated :: written, failing, others, output :: outputs, before, rfl, ?_, failed,
        leaves⟩
      rw [writeUnits, run_bind, first]
      exact succeeded

/-- **What there is after output that failed.** The units before the one that failed have been
written and stay, each at the place to which its path leads, where the last of them counts. The unit
that failed and those after it change no file: the failures are those of paths and directories, and a
write that fails after its file was created or emptied is not among them. So the files are the same as
before exactly if every place that was written to had the content that it has been given. -/
theorem failed_output_keeps_earlier_units {directory : String} {units : List GeneratedUnit}
    {files final : FileSystem} {error : Error}
    (failed : (writeUnits directory units : StateM FileSystem _).run files = (.error error, final)) :
    ∃ written failing rest outputs middle, units = written ++ failing :: rest ∧
      (writeUnits directory written : StateM FileSystem _).run files = (.ok (), middle) ∧
      (writeUnit directory failing : StateM FileSystem _).run middle = (.error error, final) ∧
      Leaves directory files written outputs final ∧
      ((∀ place, final.content? place = files.content? place) ↔
        ∀ place content, outputs.reverse.lookup place = some content →
          files.content? place = some content) := by
  obtain ⟨written, failing, rest, outputs, middle, split, succeeded, failed, leaves⟩ :=
    run_writeUnits_error failed
  refine ⟨written, failing, rest, outputs, middle, split, succeeded, failed, leaves, ?_⟩
  constructor
  · intro unchanged place content last
    rw [← unchanged place, leaves.contents, last]
    rfl
  · intro had place
    rw [leaves.contents]
    cases last : outputs.reverse.lookup place with
    | none => rfl
    | some content => exact (had place content last).symm

/-- Two files without any declarations. -/
def bareFiles : List FileDescriptor :=
  [{ name := some "a.proto" }, { name := some "b.proto" }]

/-- A file system with a directory where the second of the two units belongs. -/
def occupied : FileSystem :=
  { nodes := [(["uB.pas"], .directory)] }

theorem occupied_content (place : List String) : occupied.content? place = none := by
  unfold FileSystem.content? FileSystem.node?
  by_cases above : place.isPrefixOf occupied.home = true
  · rw [if_pos above]
  · rw [if_neg above, occupied, List.lookup_cons]
    cases place == ["uB.pas"] <;> rfl

/-- The first of the two units is written, and the second cannot be. -/
theorem occupied_run :
    ∃ units final, (generate bareFiles ["a.proto", "b.proto"] {}).result = .ok units ∧
      (writeUnits "." units : StateM FileSystem _).run occupied =
        (.error (.unwritable "./uB.pas" .isDirectory), final) ∧
      final.content? ["uA.pas"] ≠ none := by
  have evaluated : (do
      let units ← (generate bareFiles ["a.proto", "b.proto"] {}).result
      let outcome := (writeUnits "." units : StateM FileSystem _).run occupied
      return (outcome.1, decide (outcome.2.content? ["uA.pas"] ≠ none))) =
      .ok (.error (.unwritable "./uB.pas" .isDirectory), true) := by
    decide +kernel
  obtain ⟨units, generated, evaluated⟩ := bind_eq_ok.mp evaluated
  obtain ⟨failed, written⟩ := Prod.mk.inj (pure_eq_ok.mp evaluated)
  exact ⟨units, _, generated, Prod.ext failed rfl, of_decide_eq_true written⟩

/-- The first of the two units stays, and it has not been there before. -/
theorem occupied_output_keeps_first_unit :
    ∃ units final written failing rest outputs,
      (generate bareFiles ["a.proto", "b.proto"] {}).result = .ok units ∧
      (writeUnits "." units : StateM FileSystem _).run occupied =
        (.error (.unwritable "./uB.pas" .isDirectory), final) ∧
      units = written ++ failing :: rest ∧ Leaves "." occupied written outputs final ∧
      ¬ ∀ place content, outputs.reverse.lookup place = some content →
        occupied.content? place = some content := by
  obtain ⟨units, final, generated, failed, present⟩ := occupied_run
  obtain ⟨written, failing, rest, outputs, _, split, -, -, leaves, unchanged_iff⟩ :=
    failed_output_keeps_earlier_units failed
  refine ⟨units, final, written, failing, rest, outputs, generated, failed, split, leaves, ?_⟩
  intro had
  have same := unchanged_iff.mpr had ["uA.pas"]
  exact present (same.trans (occupied_content _))

/-- **Output that fails can leave a unit behind.** There was no file before, and the request has
failed, but the first of its units is there. -/
theorem failed_output_leaves_unit :
    ∃ units error final, (generate bareFiles ["a.proto", "b.proto"] {}).result = .ok units ∧
      (writeUnits "." units : StateM FileSystem _).run occupied = (.error error, final) ∧
      (∀ place, occupied.content? place = none) ∧ final.content? ["uA.pas"] ≠ none := by
  obtain ⟨units, final, generated, failed, present⟩ := occupied_run
  exact ⟨units, _, final, generated, failed, occupied_content, present⟩

end CommandLine

end ProtoPascal
