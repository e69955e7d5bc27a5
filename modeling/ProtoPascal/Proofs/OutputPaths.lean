import ProtoPascal.Files.FileSystem
import ProtoPascal.Proofs.DottedNames
import ProtoPascal.Schema.Validation

/-!
The paths of generated units. A unit has a directory for each segment of its namespace, and a segment
is a name of the schema in the style of Pascal. A name without any letter or digit has no words, so
its segment is empty, and a path that starts with an empty segment starts at the root.

* `applyChars_pascal_eq_nil_iff`: which names have an empty form;
* `steps_joinPath`: the steps of a path inside a directory;
* `ofFile_exists`: every file has a unit;
* `outputPath_staysBelow_iff`: exactly when the path of a unit stays below the directory to which it
  is joined;
* `blank_package_leaves_directory`: a package whose unit does not.
-/

namespace ProtoPascal.Text

/-! ### Names without words -/

/-- The words of a run of characters make up the run. -/
theorem flatten_caseWordsFrom {state : WordState} {current characters : List Char}
    (some_character : characters ≠ []) :
    (caseWordsFrom state current characters).flatten = current ++ characters := by
  fun_induction caseWordsFrom state current characters with
  | case1 => exact absurd rfl some_character
  | case2 state current character => simp
  | case3 state current character following rest _ ih => simp [ih (List.cons_ne_nil _ _)]
  | case4 state current character following rest _ _ ih => simp [ih (List.cons_ne_nil _ _)]
  | case5 state current character following rest _ _ ih => simp [ih (List.cons_ne_nil _ _)]

/-- A character that does not divide stands in a piece. -/
theorem exists_piece_of_mem (divides : Char → Bool) {characters : List Char} {character : Char}
    (whole : divides character = false) (inside : character ∈ characters) :
    ∃ piece ∈ piecesBy divides characters, character ∈ piece := by
  induction characters with
  | nil => cases inside
  | cons first rest ih =>
    rw [piecesBy]
    rcases List.mem_cons.mp inside with rfl | later
    · rw [whole, if_neg Bool.false_ne_true]
      split
      · exact ⟨_, List.mem_cons_self .., List.mem_cons_self ..⟩
      · exact ⟨_, List.mem_cons_self .., List.mem_cons_self ..⟩
    · obtain ⟨piece, found, here⟩ := ih later
      split
      · exact ⟨piece, List.mem_cons_of_mem _ found, here⟩
      · split
        · next none_left => exact absurd none_left (piecesBy_ne_nil divides rest)
        · next head tail split =>
          rw [split] at found
          rcases List.mem_cons.mp found with rfl | farther
          · exact ⟨_, List.mem_cons_self .., List.mem_cons_of_mem _ here⟩
          · exact ⟨piece, List.mem_cons_of_mem _ farther, here⟩

/-- No character disappears when its case changes. -/
theorem upperCase_ne_nil (character : Char) : upperCase character ≠ [] := by
  have expanded : ∀ entry ∈ upperExpansions, entry.2 ≠ [] := by decide
  unfold upperCase mapCase
  split
  · next codes found =>
    obtain ⟨before, after, split, -⟩ := List.lookup_eq_some_iff.mp found
    have inside : (character.toNat, codes) ∈ upperExpansions :=
      split ▸ List.mem_append_right _ (List.mem_cons_self ..)
    rw [ne_eq, List.map_eq_nil_iff]
    exact expanded _ inside
  · exact List.cons_ne_nil _ _

theorem capitalize_eq_nil_iff {word : List Char} : capitalize word = [] ↔ word = [] := by
  cases word with
  | nil => exact iff_of_true rfl rfl
  | cons first rest =>
    refine iff_of_false ?_ (List.cons_ne_nil _ _)
    exact List.append_ne_nil_of_left_ne_nil (upperCase_ne_nil first) _

/-- A name without letters and digits. -/
def Wordless (name : String) : Prop :=
  ∀ character ∈ name.toList, isAlphanumeric character = false

instance (name : String) : Decidable (Wordless name) :=
  inferInstanceAs (Decidable (∀ character ∈ name.toList, isAlphanumeric character = false))

/-- **A name has an empty form exactly if nothing in it belongs to a word.** -/
theorem applyChars_pascal_eq_nil_iff {characters : List Char} :
    CaseStyle.pascal.applyChars characters = [] ↔
      ∀ character ∈ characters, isAlphanumeric character = false := by
  rw [CaseStyle.applyChars, List.flatMap_eq_nil_iff]
  constructor
  · intro empty character inside
    by_contra alphanumeric
    rw [Bool.not_eq_false] at alphanumeric
    have whole : (!isAlphanumeric character) = false := by rw [alphanumeric, Bool.not_true]
    obtain ⟨piece, found, here⟩ :=
      exists_piece_of_mem (fun other => !isAlphanumeric other) whole inside
    have no_words : (caseWords piece).flatten = [] := by
      refine List.flatten_eq_nil_iff.mpr fun word part => ?_
      exact capitalize_eq_nil_iff.mp (empty word (List.mem_flatMap.mpr ⟨piece, found, part⟩))
    rw [caseWords, flatten_caseWordsFrom (List.ne_nil_of_mem here), List.nil_append] at no_words
    rw [no_words] at here
    cases here
  · intro divided word inside
    rw [capitalize_eq_nil_iff, List.eq_nil_iff_forall_not_mem]
    intro character here
    obtain ⟨piece, found, part⟩ := List.mem_flatMap.mp inside
    rcases mem_of_mem_caseWordsFrom part character here with impossible | there
    · cases impossible
    · obtain ⟨outside, whole⟩ := of_mem_piecesBy found character there
      rw [divided character outside] at whole
      cases whole

theorem apply_pascal_eq_empty_iff {name : String} :
    CaseStyle.pascal.apply name = "" ↔ Wordless name := by
  rw [CaseStyle.apply, Wordless, ← applyChars_pascal_eq_nil_iff, ← String.toList_inj,
    String.toList_ofList]
  rfl

end ProtoPascal.Text

namespace ProtoPascal.Files

open Text

/-! ### Paths below a directory -/

/-- A path that leads down only: it does not start at the root, and each of its components is the name
of something in the directory before it. -/
def StaysBelow (path : String) : Prop :=
  isAbsolute path = false ∧
    ∀ component ∈ pieces '/' path, component ≠ "" ∧ component ≠ "." ∧ component ≠ ".."

instance (path : String) : Decidable (StaysBelow path) :=
  inferInstanceAs (Decidable (_ ∧ _))

/-- What stands before a divider and what stands behind it are divided each on its own. -/
theorem piecesBy_append_divider (divides : Char → Bool) {divider : Char}
    (divided : divides divider = true) (before after : List Char) :
    piecesBy divides (before ++ divider :: after) =
      piecesBy divides before ++ piecesBy divides after := by
  induction before with
  | nil => simp [piecesBy, divided]
  | cons character rest ih =>
    rw [List.cons_append, piecesBy, piecesBy, ih]
    split
    · rfl
    · obtain ⟨head, tail, found⟩ := List.exists_cons_of_ne_nil (piecesBy_ne_nil divides rest)
      rw [found]
      rfl

/-- The pieces before and behind a slash. -/
theorem pieces_append_slash (before after : List Char) :
    pieces '/' (String.ofList (before ++ '/' :: after)) =
      pieces '/' (String.ofList before) ++ pieces '/' (String.ofList after) := by
  simp only [pieces, String.toList_ofList]
  rw [piecesBy_append_divider (· == '/') (beq_self_eq_true '/'), List.map_append]

/-- A path starts at the root exactly if nothing stands before its first slash. -/
theorem isAbsolute_iff {path : String} :
    isAbsolute path = true ↔ ∃ next rest, pieces '/' path = "" :: next :: rest := by
  unfold isAbsolute pieces
  cases path.toList with
  | nil =>
    refine iff_of_false (by decide) ?_
    rintro ⟨next, rest, same⟩
    cases same
  | cons first characters =>
    obtain ⟨head, tail, found⟩ :=
      List.exists_cons_of_ne_nil (piecesBy_ne_nil (· == '/') characters)
    rw [List.head?_cons, beq_iff_eq, Option.some.injEq, piecesBy]
    by_cases slash : first = '/'
    · refine iff_of_true slash ?_
      rw [if_pos (beq_iff_eq.mpr slash), found]
      exact ⟨_, _, rfl⟩
    · refine iff_of_false slash ?_
      rw [if_neg (fun same => slash (beq_iff_eq.mp same)), found]
      rintro ⟨next, rest, same⟩
      have empty := congrArg String.toList (List.cons.inj same).1
      rw [String.toList_ofList] at empty
      cases empty

/-- The steps of a path behind a slash follow those of the path before it. -/
theorem steps_append_slash (before after : List Char) :
    steps (String.ofList (before ++ '/' :: after)) =
      steps (String.ofList before) ++ steps (String.ofList after) := by
  rw [steps, pieces_append_slash, List.filterMap_append]
  rfl

/-- **Inside a directory a relative path goes on where the path of the directory ends.** -/
theorem steps_joinPath (directory : String) {path : String} (relative : isAbsolute path = false) :
    steps (joinPath directory path) = steps directory ++ steps path := by
  unfold joinPath
  by_cases empty : directory.isEmpty = true
  · rw [if_pos (by rw [relative, empty]; rfl), String.isEmpty_iff.mp empty]
    rfl
  · rw [if_neg (by rw [relative, Bool.false_or]; exact empty)]
    split
    · next slash =>
      obtain ⟨before, spelled⟩ : ∃ before, directory.toList = before ++ ['/'] := by
        unfold endsInSlash at slash
        exact ⟨_, (List.dropLast_append_getLast? _ (beq_iff_eq.mp slash)).symm⟩
      have joined : directory ++ path = String.ofList (before ++ '/' :: path.toList) := by
        rw [← String.toList_inj, String.toList_ofList, String.toList_append, spelled,
          List.append_assoc]
        rfl
      have alone : steps directory = steps (String.ofList before) := by
        rw [← String.ofList_toList (s := directory), spelled, steps_append_slash]
        exact List.append_nil _
      rw [joined, steps_append_slash, alone, String.ofList_toList]
    · have joined : directory ++ "/" ++ path =
          String.ofList (directory.toList ++ '/' :: path.toList) := by
        rw [← String.toList_inj, String.toList_ofList, String.toList_append, String.toList_append,
          List.append_assoc]
        rfl
      rw [joined, steps_append_slash, String.ofList_toList, String.ofList_toList]

theorem isAbsolute_joinPath (directory : String) {path : String}
    (relative : isAbsolute path = false) :
    isAbsolute (joinPath directory path) = isAbsolute directory := by
  unfold joinPath
  by_cases empty : directory.isEmpty = true
  · rw [if_pos (by rw [relative, empty]; rfl), relative, String.isEmpty_iff.mp empty]
    rfl
  · have some_character : directory.toList ≠ [] := by
      intro none_left
      exact empty (String.isEmpty_iff.mpr (String.toList_inj.mp none_left))
    rw [if_neg (by rw [relative, Bool.false_or]; exact empty)]
    split
    · simp only [isAbsolute, String.toList_append, List.head?_append_of_ne_nil _ some_character]
    · simp only [isAbsolute, String.toList_append, List.append_assoc,
        List.head?_append_of_ne_nil _ some_character]

/-- A path that starts at the root does not depend on the directory. -/
theorem joinPath_of_isAbsolute (directory : String) {path : String}
    (absolute : isAbsolute path = true) : joinPath directory path = path := by
  rw [joinPath, absolute, Bool.true_or, if_pos rfl]

section

variable {files : FileSystem}

theorem follow_append (first second : List Step) {place final : List String}
    (followed : files.follow place (first ++ second) = .ok final) :
    ∃ middle, files.follow place first = .ok middle ∧ files.follow middle second = .ok final := by
  induction first generalizing place with
  | nil => exact ⟨place, rfl, followed⟩
  | cons step rest ih =>
    rw [List.cons_append, FileSystem.follow] at followed
    rw [FileSystem.follow]
    split at followed
    · cases followed
    · split at followed
      · next there =>
        obtain ⟨middle, reached, later⟩ := ih followed
        exact ⟨middle, by rw [if_pos there, reached], later⟩
      · cases followed

theorem advance_into {place final : List String} {name : String}
    (advanced : files.advance place (.into name) = .ok final) : final = place ++ [name] := by
  unfold FileSystem.advance at advanced
  split at advanced
  · cases advanced
  · simp only at advanced
    split at advanced
    · cases advanced
    · exact (Except.ok.inj advanced).symm

/-- Steps into directories lead down. -/
theorem follow_into {names place final : List String}
    (followed : files.follow place (names.map Step.into) = .ok final) : final = place ++ names := by
  induction names generalizing place with
  | nil =>
    rw [List.append_nil]
    exact (Except.ok.inj followed).symm
  | cons name rest ih =>
    rw [List.map_cons, FileSystem.follow] at followed
    split at followed
    · cases followed
    · next next_place advanced =>
      split at followed
      · rw [ih followed, advance_into advanced, List.append_assoc]
        rfl
      · cases followed

/-- **A path of names inside a directory leads to a place below the directory.** -/
theorem target_joinPath {directory path : String} {place names : List String} {name : String}
    (relative : isAbsolute path = false) (down : steps path = (names ++ [name]).map Step.into)
    (reached : files.target (joinPath directory path) = .ok place) :
    ∃ root, files.follow (if isAbsolute directory then [] else files.home) (steps directory) =
      .ok root ∧ place = root ++ (names ++ [name]) := by
  have all_steps : steps (joinPath directory path) =
      (steps directory ++ names.map Step.into) ++ [Step.into name] := by
    rw [steps_joinPath directory relative, down, List.map_append, List.append_assoc]
    rfl
  unfold FileSystem.target at reached
  rw [all_steps, List.dropLast_concat, List.getLast?_concat, isAbsolute_joinPath directory relative]
    at reached
  split at reached
  · cases reached
  · split at reached
    · cases reached
    · split at reached
      · cases reached
      · next middle followed =>
        obtain ⟨root, to_directory, onwards⟩ := follow_append _ _ followed
        refine ⟨root, to_directory, ?_⟩
        rw [advance_into reached, follow_into onwards, List.append_assoc]

end

end ProtoPascal.Files

namespace ProtoPascal

open Files Naming Text

/-! ### Units of files -/

/-- A name always has an identifier: none of the words that Pascal keeps for itself is marked. -/
theorem exists_keywordScope_generate {rule : Rule} (insensitive : rule.caseSensitive = false)
    (mark : rule.retryMark = "_") (trail : rule.trail = "") (core : String) :
    ∃ identifier, keywordScope.generate rule [] core = .ok identifier := by
  have unmarked : ∀ keyword ∈ keywords, (fold keyword).toList.getLast? ≠ some '_' := by
    decide +kernel
  have free : keywordScope.collides rule [] (rule.marked core) = false := by
    rw [Bool.eq_false_iff]
    intro collides
    rw [Scope.collides, List.any_nil, Bool.or_false, insensitive, contains_iff_fold] at collides
    obtain ⟨keyword, inside, same⟩ := collides
    refine unmarked keyword inside ?_
    rw [same, toList_fold, foldChars, List.getLast?_map, Rule.marked, mark, trail]
    simp
  unfold Scope.generate
  split
  · exact ⟨_, rfl⟩
  · rw [free]
    exact ⟨_, rfl⟩

/-- **Every file has a unit.** -/
theorem ofFile_exists (file : Schema.File) :
    ∃ identifier, UnitIdentifier.ofFile file = .ok identifier := by
  have each (core : String) :
      ∃ segment, keywordScope.generate .namespaceSegment [] core = .ok segment :=
    exists_keywordScope_generate rfl rfl rfl core
  obtain ⟨name, named⟩ : ∃ name, keywordScope.generate .unitName [] file.stem = .ok name :=
    exists_keywordScope_generate rfl rfl rfl file.stem
  choose segment generated using each
  refine ⟨⟨(namespaceCores file).map segment, name⟩, ofFile_eq_ok.mpr ⟨?_, named⟩⟩
  rw [List.forall₂_map_right_iff, List.forall₂_same]
  exact fun core _ => generated core

/-- A segment is empty exactly if its name has no words. -/
theorem segment_eq_empty_iff {core segment : String}
    (generated : keywordScope.generate .namespaceSegment [] core = .ok segment) :
    segment = "" ↔ Wordless core := by
  have plain : Rule.namespaceSegment.plain core = CaseStyle.pascal.apply core := by
    simp [Rule.plain, Rule.namespaceSegment]
  rw [← apply_pascal_eq_empty_iff]
  constructor
  · intro empty
    obtain ⟨-, same | same⟩ := generate_eq_ok generated
    · rw [← plain, ← same, empty]
    · rw [empty] at same
      have characters := congrArg String.toList same
      simp [Rule.marked, Rule.namespaceSegment] at characters
  · intro empty
    have free : keywordScope.collides .namespaceSegment [] "" = false := by decide +kernel
    rw [Scope.generate, plain, empty, free] at generated
    exact (Except.ok.inj generated).symm

/-- The name of the file that holds a unit. -/
def UnitIdentifier.fileName (identifier : UnitIdentifier) : String :=
  identifier.fullName ++ ".pas"

theorem UnitIdentifier.outputPath_eq (identifier : UnitIdentifier) :
    identifier.outputPath = join "/" (identifier.segments ++ [identifier.fileName]) := by
  unfold UnitIdentifier.outputPath
  split
  · next none_left =>
    rw [none_left]
    rfl
  · next some_segment =>
    rw [join_append some_segment (List.cons_ne_nil _ _)]
    rfl

/-- **The components of the path of a unit** are the segments of its namespace and the name of its
file. -/
theorem pieces_outputPath {file : Schema.File} {identifier : UnitIdentifier}
    (named : UnitIdentifier.ofFile file = .ok identifier) :
    pieces '/' identifier.outputPath = identifier.segments ++ [identifier.fileName] := by
  have undivided := notMem_of_ofFile isDivider_slash (by decide) named
  rw [UnitIdentifier.outputPath_eq]
  refine pieces_join_divider rfl (by simp) fun component inside => ?_
  rcases List.mem_append.mp inside with segment | last
  · exact undivided component (List.mem_append_left _ segment)
  · rw [List.mem_singleton.mp last, UnitIdentifier.fileName, String.toList_append, List.mem_append,
      not_or]
    exact ⟨notMem_join (by decide) undivided, by decide⟩

/-- The name of the file of a unit is not one that a path gives a meaning of its own. -/
theorem fileName_ne {identifier : UnitIdentifier} {text : String} (other : 'p' ∉ text.toList) :
    identifier.fileName ≠ text := by
  rintro rfl
  refine other ?_
  rw [UnitIdentifier.fileName, String.toList_append]
  exact List.mem_append_right _ (by decide)

/-- No component of the path of a unit leads to the same directory or to the one above. -/
theorem component_ne_dots {file : Schema.File} {identifier : UnitIdentifier}
    (named : UnitIdentifier.ofFile file = .ok identifier) :
    ∀ component ∈ pieces '/' identifier.outputPath, component ≠ "." ∧ component ≠ ".." := by
  intro component inside
  rw [pieces_outputPath named] at inside
  rcases List.mem_append.mp inside with segment | last
  · have undotted := undotted_of_ofFile named component (List.mem_append_left _ segment)
    refine ⟨?_, ?_⟩
    · rintro rfl
      exact undotted (by decide)
    · rintro rfl
      exact undotted (by decide)
  · rw [List.mem_singleton.mp last]
    exact ⟨fileName_ne (by decide), fileName_ne (by decide)⟩

/-- The path of a unit starts at the root exactly if the first segment of its namespace is empty. -/
theorem isAbsolute_outputPath_iff {file : Schema.File} {identifier : UnitIdentifier}
    (named : UnitIdentifier.ofFile file = .ok identifier) :
    isAbsolute identifier.outputPath = true ↔ identifier.segments.head? = some "" := by
  rw [isAbsolute_iff, pieces_outputPath named]
  cases identifier.segments with
  | nil =>
    refine iff_of_false ?_ (by simp)
    rintro ⟨next, rest, same⟩
    exact absurd (List.cons.inj same).2 (List.cons_ne_nil _ _).symm
  | cons first rest =>
    rw [List.head?_cons, Option.some.injEq, List.cons_append]
    constructor
    · rintro ⟨next, others, same⟩
      exact (List.cons.inj same).1
    · rintro rfl
      obtain ⟨next, others, split⟩ := List.exists_cons_of_ne_nil
        (List.append_ne_nil_of_right_ne_nil rest (List.cons_ne_nil identifier.fileName []))
      exact ⟨next, others, by rw [split]⟩

/-- Components that are no dots lead into what they name, and empty ones nowhere. -/
theorem filterMap_ofComponent {components : List String}
    (proper : ∀ component ∈ components, component ≠ "." ∧ component ≠ "..") :
    components.filterMap Step.ofComponent? =
      (components.filter fun component => !component.isEmpty).map Step.into := by
  induction components with
  | nil => rfl
  | cons component rest ih =>
    have later := ih fun other inside => proper other (List.mem_cons_of_mem _ inside)
    obtain ⟨not_stay, not_up⟩ := proper component (List.mem_cons_self ..)
    by_cases empty : component.isEmpty = true
    · have nowhere : Step.ofComponent? component = none := by rw [Step.ofComponent?, if_pos empty]
      rw [List.filterMap_cons_none nowhere, List.filter_cons_of_neg (by simpa using empty), later]
    · have into : Step.ofComponent? component = some (.into component) := by
        simp [Step.ofComponent?, empty, not_stay, not_up]
      rw [List.filterMap_cons_some into, List.filter_cons_of_pos (by simpa using empty),
        List.map_cons, later]

/-- The names along the path of a unit: of the directories, and of its file. -/
def UnitIdentifier.namesAlong (identifier : UnitIdentifier) : List String :=
  identifier.segments.filter (fun segment => !segment.isEmpty) ++ [identifier.fileName]

/-- The steps of the path of a unit lead into directories, and last to its file. -/
theorem steps_outputPath {file : Schema.File} {identifier : UnitIdentifier}
    (named : UnitIdentifier.ofFile file = .ok identifier) :
    steps identifier.outputPath = identifier.namesAlong.map Step.into := by
  have some_character : identifier.fileName.isEmpty = false := by
    rw [Bool.eq_false_iff, ne_eq, String.isEmpty_iff]
    exact fileName_ne (by decide)
  rw [steps, filterMap_ofComponent (component_ne_dots named), pieces_outputPath named,
    List.filter_append, List.filter_cons_of_pos (by rw [some_character]; rfl), List.filter_nil]
  rfl

/-- The path of a unit has an empty component exactly if a name of its namespace has no words. -/
theorem exists_component_eq_empty_iff {file : Schema.File} {identifier : UnitIdentifier}
    (named : UnitIdentifier.ofFile file = .ok identifier) :
    "" ∈ pieces '/' identifier.outputPath ↔ ∃ core ∈ namespaceCores file, Wordless core := by
  obtain ⟨generated, -⟩ := ofFile_eq_ok.mp named
  rw [pieces_outputPath named, List.mem_append, List.mem_singleton,
    or_iff_left (Ne.symm (fileName_ne (by decide)))]
  constructor
  · intro empty
    obtain ⟨core, inside, made⟩ := exists_left_of_forall₂ generated empty
    exact ⟨core, inside, (segment_eq_empty_iff made).mp rfl⟩
  · rintro ⟨core, inside, wordless⟩
    obtain ⟨segment, segment_inside, made⟩ := exists_left_of_forall₂ generated.flip inside
    rwa [(segment_eq_empty_iff made).mpr wordless] at segment_inside

theorem head_segment_eq_empty_iff {file : Schema.File} {identifier : UnitIdentifier}
    (named : UnitIdentifier.ofFile file = .ok identifier) :
    identifier.segments.head? = some "" ↔
      ∃ core, (namespaceCores file).head? = some core ∧ Wordless core := by
  obtain ⟨generated, -⟩ := ofFile_eq_ok.mp named
  generalize namespaceCores file = cores, identifier.segments = segments at generated ⊢
  cases generated with
  | nil => simp
  | cons made _ => simp [segment_eq_empty_iff made]

/-- **When the path of a unit stays below the directory of the output.** Each file has a unit, and its
path stays below exactly if each name of which its namespace is made has a letter or a digit. No
component of the path is a dot or two dots. If the first of the names has neither letter nor digit,
the path starts at the root, and the directory to which it is joined does not matter; otherwise the
joined path leads to a place below this directory. -/
theorem outputPath_staysBelow_iff (file : Schema.File) :
    ∃ identifier, UnitIdentifier.ofFile file = .ok identifier ∧
      (StaysBelow identifier.outputPath ↔ ∀ core ∈ namespaceCores file, ¬ Wordless core) ∧
      (∀ component ∈ pieces '/' identifier.outputPath, component ≠ "." ∧ component ≠ "..") ∧
      (isAbsolute identifier.outputPath = true ↔
        ∃ core, (namespaceCores file).head? = some core ∧ Wordless core) ∧
      (isAbsolute identifier.outputPath = true → ∀ directory,
        joinPath directory identifier.outputPath = identifier.outputPath) ∧
      (isAbsolute identifier.outputPath = false → ∀ (files : FileSystem) directory place,
        files.target (joinPath directory identifier.outputPath) = .ok place →
          ∃ root, files.follow (if isAbsolute directory then [] else files.home)
            (steps directory) = .ok root ∧ place = root ++ identifier.namesAlong) := by
  obtain ⟨identifier, named⟩ := ofFile_exists file
  have absolute : isAbsolute identifier.outputPath = true ↔
      ∃ core, (namespaceCores file).head? = some core ∧ Wordless core :=
    (isAbsolute_outputPath_iff named).trans (head_segment_eq_empty_iff named)
  refine ⟨identifier, named, ?_, component_ne_dots named, absolute, ?_, ?_⟩
  · constructor
    · intro below core inside wordless
      have empty := (exists_component_eq_empty_iff named).mpr ⟨core, inside, wordless⟩
      exact (below.2 "" empty).1 rfl
    · intro worded
      refine ⟨?_, fun component inside => ⟨?_, component_ne_dots named component inside⟩⟩
      · rw [Bool.eq_false_iff, ne_eq, absolute]
        rintro ⟨core, first, wordless⟩
        exact worded core (List.mem_of_mem_head? first) wordless
      · rintro rfl
        obtain ⟨core, core_inside, wordless⟩ := (exists_component_eq_empty_iff named).mp inside
        exact worded core core_inside wordless
  · exact fun starts directory => joinPath_of_isAbsolute directory starts
  · intro relative files directory place reached
    exact target_joinPath relative (steps_outputPath named) reached

/-- A file in a package whose name has neither letters nor digits. -/
def blankPackage : Schema.FileDescriptor :=
  { name := some "foo.proto", package := some "_" }

/-- **A package whose unit leaves the directory of the output.** The file is accepted, and the path of
its unit starts at the root. -/
theorem blank_package_leaves_directory :
    ∃ file identifier, Schema.File.ofDescriptor blankPackage = .ok file ∧
      UnitIdentifier.ofFile file = .ok identifier ∧ identifier.outputPath = "/.uFoo.pas" ∧
      ¬ StaysBelow identifier.outputPath ∧
      joinPath "out" identifier.outputPath = "/.uFoo.pas" := by
  refine ⟨{ name := "foo.proto", package := some "_" }, ⟨[""], "uFoo"⟩, rfl, ?_, ?_, ?_, ?_⟩
  · decide +kernel
  · decide +kernel
  · decide +kernel
  · decide +kernel

end ProtoPascal
