import ProtoPascal.Proofs.IndexAgreement
import ProtoPascal.Proofs.OutputPaths
import ProtoPascal.Proofs.TypeCollisions

/-!
What the index finds under a name. Every list of files has an index, whatever the names in it, because
every type and every unit has an identifier. Types are indexed in the order of a walk: the files in
order, in a scope the enumerations and then the messages, and the types in a message before the message
itself. Under a name that several types have, the index finds the last of them.

* `ComesBefore`: the order of the walk, in terms of sites;
* `scopeSites_pairwise`: the walk over the types of a scope is in this order;
* `index_finds_last_declaration`: what the index finds under every name.
-/

namespace ProtoPascal

open Message Naming Pascal
open Schema (EnumType MessageType)

/-! ### Entries in an order -/

section

variable {Key α : Type} {before : Key → Key → Prop} {relation : Key → String × α → Prop}
  {keys : List Key} {entries : List (String × α)}

/-- The value found under a name belongs to the last of the keys whose entries have the name. -/
theorem exists_last_of_lastUnder (ordered : keys.Pairwise before)
    (listed : List.Forall₂ relation keys entries)
    (single : ∀ key entry entry', relation key entry → relation key entry' → entry = entry')
    {name : String} {value : α} (found : lastUnder name entries = some value) :
    ∃ key ∈ keys, relation key (name, value) ∧
      ∀ other ∈ keys, ∀ value', relation other (name, value') → other = key ∨ before other key := by
  obtain ⟨later, earlier, split, missing⟩ := List.lookup_eq_some_iff.mp found
  have whole : entries = earlier.reverse ++ ((name, value) :: later.reverse) := by
    rw [← List.reverse_reverse entries, split, List.reverse_append, List.reverse_cons,
      List.append_assoc, List.singleton_append]
  obtain ⟨first, rest, first_listed, rest_listed, rfl⟩ :
      ∃ first rest, List.Forall₂ relation first earlier.reverse ∧
        List.Forall₂ relation rest ((name, value) :: later.reverse) ∧ keys = first ++ rest := by
    rw [whole] at listed
    exact ⟨_, _, List.forall₂_take_append _ _ _ listed, List.forall₂_drop_append _ _ _ listed,
      (List.take_append_drop _ _).symm⟩
  cases rest_listed with
  | @cons key _ last _ here last_listed =>
    refine ⟨key, List.mem_append_right _ (List.mem_cons_self ..), here, ?_⟩
    intro other inside value' related
    rcases List.mem_append.mp inside with in_first | in_rest
    · exact .inr ((List.pairwise_append.mp ordered).2.2 other in_first key (List.mem_cons_self ..))
    · rcases List.mem_cons.mp in_rest with rfl | in_last
      · exact .inl rfl
      · -- The entries after the one that is found have other names.
        obtain ⟨entry, entry_inside, other_related⟩ :=
          exists_left_of_forall₂ last_listed.flip in_last
        have different := missing entry (List.mem_reverse.mp entry_inside)
        rw [single other _ _ other_related related] at different
        simp at different

/-- **Under a name the last entry is found**, in the order of the keys. -/
theorem lastUnder_eq_some_iff_last (asymm : ∀ key other, before key other → ¬ before other key)
    (ordered : keys.Pairwise before) (listed : List.Forall₂ relation keys entries)
    (single : ∀ key entry entry', relation key entry → relation key entry' → entry = entry')
    (name : String) (value : α) :
    lastUnder name entries = some value ↔ ∃ key ∈ keys, relation key (name, value) ∧
      ∀ other ∈ keys, ∀ value', relation other (name, value') → other = key ∨ before other key := by
  refine ⟨exists_last_of_lastUnder ordered listed single, ?_⟩
  rintro ⟨key, inside, related, last⟩
  obtain ⟨entry, entry_inside, entry_related⟩ := exists_left_of_forall₂ listed.flip inside
  rw [single key _ _ entry_related related] at entry_inside
  obtain ⟨value', found⟩ := exists_lastUnder entry_inside
  obtain ⟨key', inside', related', last'⟩ := exists_last_of_lastUnder ordered listed single found
  have same : key' = key := by
    rcases last key' inside' value' related' with same | earlier
    · exact same
    · rcases last' key inside value related with same | later
      · exact same.symm
      · exact absurd later (asymm _ _ earlier)
  subst same
  have equal := single _ _ _ related related'
  rw [found, (Prod.mk.inj equal).2]

end

section

variable {α β Key : Type} {keysOf : α × Nat → List Key}

/-- The keys of items stand in order if those of each item do, and those of earlier items come
before those of later ones. -/
theorem pairwise_flatMap_zipIdx {before : Key → Key → Prop} {items : List α} (start : Nat)
    (own : ∀ item position, item ∈ items → (keysOf (item, position)).Pairwise before)
    (across : ∀ item other position position', position < position' →
      ∀ key ∈ keysOf (item, position), ∀ key' ∈ keysOf (other, position'), before key key') :
    ((items.zipIdx start).flatMap keysOf).Pairwise before := by
  rw [List.pairwise_flatMap]
  refine ⟨fun entry inside => own _ _ (List.fst_mem_of_mem_zipIdx inside), ?_⟩
  have increasing : (items.zipIdx start).Pairwise fun entry other => entry.2 < other.2 := by
    rw [← List.pairwise_map (f := Prod.snd), List.zipIdx_map_snd]
    exact List.pairwise_lt_range'
  exact increasing.imp fun {entry other} less => across entry.1 other.1 entry.2 other.2 less

end

/-! ### The order of the walk -/

/-- A site comes before another one: positions come in order, and what is in a message comes before
the message. -/
inductive ComesBefore : Site → Site → Prop
  | inside {position : Nat} {rest : Site} : ComesBefore (position :: rest) []
  | earlier {position position' : Nat} {rest rest' : Site} (less : position < position') :
      ComesBefore (position :: rest) (position' :: rest')
  | deeper {position : Nat} {rest rest' : Site} (before : ComesBefore rest rest') :
      ComesBefore (position :: rest) (position :: rest')

theorem ComesBefore.asymm {site other : Site} (before : ComesBefore site other) :
    ¬ ComesBefore other site := by
  induction before with
  | inside => exact fun impossible => nomatch impossible
  | earlier less =>
    intro after
    cases after with
    | earlier greater => exact Nat.lt_asymm less greater
    | deeper _ => exact Nat.lt_irrefl _ less
  | deeper _ ih =>
    intro after
    cases after with
    | earlier less => exact Nat.lt_irrefl _ less
    | deeper deeper => exact ih deeper

theorem exists_of_mem_messageListSites {position : Nat} {messages : List MessageType} {site : Site}
    (inside : site ∈ messageListSites position messages) :
    ∃ index rest, position ≤ index ∧ site = index :: rest := by
  rw [messageListSites_eq] at inside
  obtain ⟨⟨message, index⟩, found, inside⟩ := List.mem_flatMap.mp inside
  obtain ⟨rest, -, rfl⟩ := List.mem_map.mp inside
  exact ⟨index, rest, (List.mem_zipIdx found).1, rfl⟩

theorem exists_of_mem_scopeSites {enums : List EnumType} {messages : List MessageType} {site : Site}
    (inside : site ∈ scopeSites enums messages) : ∃ position rest, site = position :: rest := by
  rcases List.mem_append.mp inside with ofEnum | ofMessage
  · obtain ⟨position, -, rfl⟩ := List.mem_map.mp ofEnum
    exact ⟨position, [], rfl⟩
  · obtain ⟨position, rest, -, rfl⟩ := exists_of_mem_messageListSites ofMessage
    exact ⟨position, rest, rfl⟩

theorem messageListSites_pairwise {position : Nat} {messages : List MessageType}
    (each : ∀ message ∈ messages, (messageSites message).Pairwise ComesBefore) :
    (messageListSites position messages).Pairwise ComesBefore := by
  rw [messageListSites_eq]
  refine pairwise_flatMap_zipIdx position (fun message index inside => ?_) ?_
  · rw [List.pairwise_map]
    exact (each message inside).imp .deeper
  · intro message other index index' less site inside site' inside'
    obtain ⟨_, -, rfl⟩ := List.mem_map.mp inside
    obtain ⟨_, -, rfl⟩ := List.mem_map.mp inside'
    exact .earlier less

theorem scopeSites_pairwise_of_messages (enums : List EnumType) {messages : List MessageType}
    (each : ∀ message ∈ messages, (messageSites message).Pairwise ComesBefore) :
    (scopeSites enums messages).Pairwise ComesBefore := by
  rw [scopeSites, List.pairwise_append, List.pairwise_map]
  refine ⟨List.pairwise_lt_range.imp .earlier, messageListSites_pairwise each, ?_⟩
  intro site inside other later
  obtain ⟨position, below, rfl⟩ := List.mem_map.mp inside
  obtain ⟨_, _, further, rfl⟩ := exists_of_mem_messageListSites later
  exact .earlier (Nat.lt_of_lt_of_le (List.mem_range.mp below) further)

theorem messageSites_pairwise (message : MessageType) :
    (messageSites message).Pairwise ComesBefore := by
  induction message using nested_induction
  next message ih =>
  rw [messageSites_eq, List.pairwise_append]
  refine ⟨scopeSites_pairwise_of_messages _ ih, List.pairwise_singleton _ _, ?_⟩
  intro site inside itself root
  obtain ⟨_, _, rfl⟩ := exists_of_mem_scopeSites inside
  rw [List.mem_singleton.mp root]
  exact .inside

/-- **The sites of a scope stand in the order of the walk.** -/
theorem scopeSites_pairwise (enums : List EnumType) (messages : List MessageType) :
    (scopeSites enums messages).Pairwise ComesBefore :=
  scopeSites_pairwise_of_messages enums fun message _ => messageSites_pairwise message

/-! ### Every list of files has an index -/

theorem entryOf_exists (unit : String) (place : Place) (type : SchemaType) :
    ∃ entry, entryOf unit place type = .ok entry :=
  ⟨_, entryOf_eq_ok.mpr ⟨_, typeIdentifier_eq type.name, rfl⟩⟩

theorem enumEntries_exists (unit : String) (place : Place) (enums : List EnumType) :
    ∃ entries, enums.mapM (enumEntry unit place.scope place.parentClass) = .ok entries := by
  obtain ⟨entries, each⟩ := exists_forall₂ fun enumType (_ : enumType ∈ enums) =>
    entryOf_exists unit place (.enumeration enumType)
  exact ⟨entries, mapM_eq_ok.mpr each⟩

theorem messageListEntries_exists_of_messages {unit : String} {place : Place}
    {messages : List MessageType} (each : ∀ message ∈ messages,
      ∃ own, messageEntries unit place.scope place.parentClass message = .ok own) :
    ∃ entries, messageListEntries unit place.scope place.parentClass messages = .ok entries := by
  obtain ⟨lists, related⟩ := exists_forall₂ each
  exact ⟨_, messageListEntries_eq_ok.mpr ⟨lists, related, rfl⟩⟩

theorem messageEntries_exists (unit : String) (place : Place) (message : MessageType) :
    ∃ own, messageEntries unit place.scope place.parentClass message = .ok own := by
  induction message using nested_induction generalizing place
  next message ih =>
  obtain ⟨identifier, named⟩ : ∃ identifier, typeIdentifier message.name = .ok identifier :=
    ⟨_, typeIdentifier_eq message.name⟩
  obtain ⟨enums, enums_listed⟩ :=
    enumEntries_exists unit (place.inside message identifier) message.nestedEnums
  obtain ⟨messages, messages_listed⟩ := messageListEntries_exists_of_messages
    fun nested inside => ih nested inside (place.inside message identifier)
  cases message
  rw [messageEntries]
  exact ⟨_, bind_eq_ok.mpr ⟨identifier, named, bind_eq_ok.mpr ⟨enums, enums_listed,
    bind_eq_ok.mpr ⟨messages, messages_listed, rfl⟩⟩⟩⟩

/-- **Every file has an index.** -/
theorem TypeIndex.ofFile_exists (file : Schema.File) : ∃ own, TypeIndex.ofFile file = .ok own := by
  obtain ⟨identifier, named⟩ := ProtoPascal.ofFile_exists file
  obtain ⟨enums, enums_listed⟩ :=
    enumEntries_exists identifier.fullName ⟨file.scope, none⟩ file.enums
  obtain ⟨messages, messages_listed⟩ := messageListEntries_exists_of_messages
    fun message (_ : message ∈ file.messages) =>
      messageEntries_exists identifier.fullName ⟨file.scope, none⟩ message
  exact ⟨_, TypeIndex.ofFile_eq_ok.mpr
    ⟨identifier, enums, messages, named, enums_listed, messages_listed, rfl⟩⟩

/-! ### What the index finds -/

/-- The position of a file and a site in it come before others. -/
def DeclaredBefore (spot other : Nat × Site) : Prop :=
  spot.1 < other.1 ∨ spot.1 = other.1 ∧ ComesBefore spot.2 other.2

theorem DeclaredBefore.asymm {spot other : Nat × Site} (before : DeclaredBefore spot other) :
    ¬ DeclaredBefore other spot := by
  rintro (less | ⟨same, after⟩)
  · rcases before with greater | ⟨same, -⟩ <;> omega
  · rcases before with less | ⟨-, before⟩
    · omega
    · exact before.asymm after

/-- What is to be found out about the type of a name at a site of the file at a position: whether it
is a message or an enumeration, the unit of the file, and the path of classes to the type. -/
def DescribedAt (files : List Schema.File) (fullName : String) (spot : Nat × Site)
    (resolved : ResolvedType) : Prop :=
  ∃ file identifier place type path, files[spot.1]? = some file ∧
    UnitIdentifier.ofFile file = .ok identifier ∧
    HoldsType ⟨file.scope, none⟩ file.enums file.messages spot.2 place type ∧
    Declares file.scope file.enums file.messages spot.2 path fullName ∧
    resolved = ⟨type.kind, identifier.fullName, Text.join "." path⟩

/-- The entry of the type at a site of the file at a position. -/
def SpotEntry (files : List Schema.File) (spot : Nat × Site) (entry : String × ResolvedType) : Prop :=
  ∃ file identifier, files[spot.1]? = some file ∧ UnitIdentifier.ofFile file = .ok identifier ∧
    EntryAt identifier.fullName ⟨file.scope, none⟩ file.enums file.messages spot.2 entry

theorem Declares.holds {scope fullName : String} {enums : List EnumType}
    {messages : List MessageType} {site : Site} {path : List String}
    (declares : Declares scope enums messages site path fullName) (place : Place)
    {outer : List String} (in_scope : place.scope = scope)
    (within : place.parentClass = outerName outer) :
    ∃ place' type identifier, HoldsType place enums messages site place' type ∧
      type.fullName place' = fullName ∧ typeIdentifier type.name = .ok identifier ∧
      nestedIn place'.parentClass identifier = Text.join "." (outer ++ path) := by
  induction declares generalizing place outer with
  | enumeration found named =>
    refine ⟨place, _, _, .enumeration found, ?_, named, ?_⟩
    · rw [SchemaType.fullName, in_scope]
      rfl
    · rw [within, nestedIn_outerName]
  | message found named =>
    refine ⟨place, _, _, .message found, ?_, named, ?_⟩
    · rw [SchemaType.fullName, in_scope]
      rfl
    · rw [within, nestedIn_outerName]
  | @nested scope _ _ _ _ message identifier _ path found named _ ih =>
    have inside : (place.inside message identifier).parentClass =
        outerName (outer ++ [identifier]) := by
      rw [Place.inside, within, nestedIn_outerName, outerName_concat]
    have inner : (place.inside message identifier).scope =
        Schema.qualifiedName scope message.name := by
      rw [← in_scope]
      rfl
    obtain ⟨place', type, typeIdentifier, holds, full, type_named, localName⟩ :=
      ih _ inner inside
    refine ⟨place', type, typeIdentifier, .nested found named holds, full, type_named, ?_⟩
    rw [localName, List.append_assoc, List.singleton_append]

theorem spotEntry_iff {files : List Schema.File} {spot : Nat × Site} {fullName : String}
    {resolved : ResolvedType} :
    SpotEntry files spot (fullName, resolved) ↔ DescribedAt files fullName spot resolved := by
  constructor
  · rintro ⟨file, identifier, found, named, place, type, holds, made⟩
    obtain ⟨typeIdentifier, type_named, same⟩ := entryOf_eq_ok.mp made
    obtain ⟨rfl, rfl⟩ := Prod.mk.inj same
    have top : (Place.mk file.scope none).parentClass = outerName [] := rfl
    obtain ⟨path, declares, localName⟩ := holds.declares top type_named
    refine ⟨file, identifier, place, type, path, found, named, holds, declares, ?_⟩
    rw [localName, List.nil_append]
  · rintro ⟨file, identifier, place, type, path, found, named, holds, declares, rfl⟩
    have top : (Place.mk file.scope none).parentClass = outerName [] := rfl
    obtain ⟨place', type', typeIdentifier, holds', full, type_named, localName⟩ :=
      declares.holds _ rfl top
    obtain ⟨rfl, rfl⟩ := holds.unique holds'
    refine ⟨file, identifier, found, named, place', type', holds, entryOf_eq_ok.mpr ?_⟩
    refine ⟨typeIdentifier, type_named, ?_⟩
    rw [localName, List.nil_append, full]

/-- Every declared type has an entry. -/
theorem declaredAt_iff {files : List Schema.File} {position : Nat} {site : Site}
    {fullName : String} :
    (∃ path, DeclaredAt files position site path fullName) ↔
      ∃ resolved, SpotEntry files (position, site) (fullName, resolved) := by
  constructor
  · rintro ⟨path, file, found, declares⟩
    obtain ⟨identifier, named⟩ := ofFile_exists file
    have top : (Place.mk file.scope none).parentClass = outerName [] := rfl
    obtain ⟨place, type, _, holds, -⟩ := declares.holds _ rfl top
    exact ⟨_, spotEntry_iff.mpr ⟨file, identifier, place, type, path, found, named, holds, declares,
      rfl⟩⟩
  · rintro ⟨resolved, here⟩
    obtain ⟨file, _, _, _, path, found, -, -, declares, -⟩ := spotEntry_iff.mp here
    exact ⟨path, file, found, declares⟩

theorem SpotEntry.unique {files : List Schema.File} {spot : Nat × Site}
    {entry entry' : String × ResolvedType} (here : SpotEntry files spot entry)
    (other : SpotEntry files spot entry') : entry = entry' := by
  obtain ⟨file, identifier, found, named, entryAt⟩ := here
  obtain ⟨file', identifier', found', named', entryAt'⟩ := other
  cases found.symm.trans found'
  cases Except.ok.inj (named.symm.trans named')
  exact entryAt.unique entryAt'

/-- The sites of all files in the order of the walk. -/
def fileSites (files : List Schema.File) : List (Nat × Site) :=
  files.zipIdx.flatMap fun entry => (scopeSites entry.1.enums entry.1.messages).map (entry.2, ·)

theorem fileSites_pairwise (files : List Schema.File) :
    (fileSites files).Pairwise DeclaredBefore := by
  refine pairwise_flatMap_zipIdx 0 (fun file position _ => ?_) ?_
  · rw [List.pairwise_map]
    exact (scopeSites_pairwise _ _).imp fun before => .inr ⟨rfl, before⟩
  · intro file other position position' less spot inside spot' inside'
    obtain ⟨_, -, rfl⟩ := List.mem_map.mp inside
    obtain ⟨_, -, rfl⟩ := List.mem_map.mp inside'
    exact .inl less

theorem SpotEntry.mem_fileSites {files : List Schema.File} {spot : Nat × Site}
    {entry : String × ResolvedType} (here : SpotEntry files spot entry) : spot ∈ fileSites files := by
  obtain ⟨file, identifier, found, -, place, type, holds, -⟩ := here
  refine List.mem_flatMap.mpr ⟨(file, spot.1), List.mk_mem_zipIdx_iff_getElem?.mpr found, ?_⟩
  exact List.mem_map.mpr ⟨spot.2, mem_scopeSites holds, rfl⟩

/-- The unit of the file at a position. -/
def UnitEntry (files : List Schema.File) (position : Nat) (entry : String × UnitIdentifier) : Prop :=
  ∃ file, files[position]? = some file ∧ file.name = entry.1 ∧
    UnitIdentifier.ofFile file = .ok entry.2

theorem UnitEntry.unique {files : List Schema.File} {position : Nat}
    {entry entry' : String × UnitIdentifier} (here : UnitEntry files position entry)
    (other : UnitEntry files position entry') : entry = entry' := by
  obtain ⟨file, found, name, named⟩ := here
  obtain ⟨file', found', name', named'⟩ := other
  cases found.symm.trans found'
  exact Prod.ext (name.symm.trans name') (Except.ok.inj (named.symm.trans named'))

section

variable {files : List Schema.File} {index : TypeIndex} (built : TypeIndex.build files = .ok index)
include built

/-- **The types of the index stand in the order of the walk.** -/
theorem types_listed : List.Forall₂ (SpotEntry files) (fileSites files) index.types := by
  obtain ⟨owns, added, rfl⟩ := build_eq_ok.mp built
  have lists : List.Forall₂ (fun file entries => ∃ own : TypeIndex,
      TypeIndex.ofFile file = .ok own ∧ entries = own.types) files (owns.map TypeIndex.types) := by
    rw [List.forall₂_map_right_iff]
    exact added.imp fun file own success => ⟨own, success, rfl⟩
  dsimp only
  rw [List.flatMap_def]
  refine forall₂_flatMap_zipIdx lists 0 fun position file entries found => ?_
  rintro ⟨own, success, rfl⟩
  obtain ⟨identifier, enums, messages, named, enums_listed, messages_listed, rfl⟩ :=
    TypeIndex.ofFile_eq_ok.mp success
  rw [List.forall₂_map_left_iff, Nat.zero_add]
  have listed := forall₂_scopeSites ⟨file.scope, none⟩ enums_listed messages_listed
  exact listed.imp fun site entry here => ⟨file, identifier, found, named, here⟩

/-- **The units of the index stand in the order of the files.** -/
theorem units_listed : List.Forall₂ (UnitEntry files) (List.range files.length) index.units := by
  obtain ⟨owns, added, rfl⟩ := build_eq_ok.mp built
  have each : List.Forall₂ (fun file entry => file.name = entry.1 ∧
      UnitIdentifier.ofFile file = .ok entry.2) files (owns.flatMap TypeIndex.units) := by
    clear built
    induction added with
    | nil => exact .nil
    | cons first _ ih =>
      obtain ⟨identifier, _, _, named, -, -, rfl⟩ := TypeIndex.ofFile_eq_ok.mp first
      exact .cons ⟨rfl, named⟩ ih
  exact forall₂_range each fun position file entry found here => ⟨file, found, here⟩

/-- **Under the name of a type the last declaration is found.** -/
theorem resolve_eq_ok_iff_last {fullName referencedBy : String} {resolved : ResolvedType} :
    index.resolve fullName referencedBy = .ok resolved ↔
      ∃ spot, DescribedAt files fullName spot resolved ∧
        ∀ position site path, DeclaredAt files position site path fullName →
          (position, site) = spot ∨ DeclaredBefore (position, site) spot := by
  have last := lastUnder_eq_some_iff_last (fun _ _ => DeclaredBefore.asymm)
    (fileSites_pairwise files) (types_listed built) (fun _ _ _ => SpotEntry.unique) fullName resolved
  rw [resolve_eq_ok, last]
  constructor
  · rintro ⟨spot, -, here, latest⟩
    refine ⟨spot, spotEntry_iff.mp here, fun position site path declared => ?_⟩
    obtain ⟨other, there⟩ := declaredAt_iff.mp ⟨path, declared⟩
    exact latest _ there.mem_fileSites other there
  · rintro ⟨spot, described, latest⟩
    have here := spotEntry_iff.mpr described
    refine ⟨spot, here.mem_fileSites, here, fun other _ value there => ?_⟩
    obtain ⟨path, declared⟩ := declaredAt_iff.mpr ⟨value, there⟩
    exact latest _ _ path declared

/-- A name of a type is found if a type of this name is declared. -/
theorem exists_resolve_iff {fullName referencedBy : String} :
    (∃ resolved, index.resolve fullName referencedBy = .ok resolved) ↔
      ∃ position site path, DeclaredAt files position site path fullName := by
  constructor
  · rintro ⟨resolved, found⟩
    obtain ⟨spot, described, -⟩ := (resolve_eq_ok_iff_last built).mp found
    exact ⟨spot.1, spot.2, declaredAt_iff.mpr ⟨resolved, spotEntry_iff.mpr described⟩⟩
  · rintro ⟨position, site, declared⟩
    obtain ⟨resolved, here⟩ := declaredAt_iff.mp declared
    obtain ⟨entry, inside, there⟩ :=
      exists_left_of_forall₂ (types_listed built).flip here.mem_fileSites
    rw [SpotEntry.unique there here] at inside
    obtain ⟨last, found⟩ := exists_lastUnder inside
    exact ⟨last, resolve_eq_ok.mpr found⟩

/-- **Under the name of a file the unit of the last file is found.** -/
theorem unit_eq_ok_iff_last {name referencedBy : String} {identifier : UnitIdentifier} :
    index.unit name referencedBy = .ok identifier ↔
      ∃ (position : Nat) (file : Schema.File), files[position]? = some file ∧ file.name = name ∧
        UnitIdentifier.ofFile file = .ok identifier ∧
        ∀ (position' : Nat) (other : Schema.File), files[position']? = some other → other.name = name →
          position' ≤ position := by
  have last := lastUnder_eq_some_iff_last (fun _ _ => Nat.lt_asymm) List.pairwise_lt_range
    (units_listed built) (fun _ _ _ => UnitEntry.unique) name identifier
  have below {position : Nat} {file : Schema.File} (found : files[position]? = some file) :
      position ∈ List.range files.length :=
    List.mem_range.mpr (List.getElem?_eq_some_iff.mp found).1
  rw [unit_eq_ok, last]
  constructor
  · rintro ⟨position, -, ⟨file, found, named, identified⟩, latest⟩
    refine ⟨position, file, found, named, identified, fun position' other found' named' => ?_⟩
    obtain ⟨identifier', identified'⟩ := ofFile_exists other
    rcases latest position' (below found') identifier' ⟨other, found', named', identified'⟩ with
      rfl | less
    · exact Nat.le_refl _
    · exact Nat.le_of_lt less
  · rintro ⟨position, file, found, named, identified, latest⟩
    refine ⟨position, below found, ⟨file, found, named, identified⟩, ?_⟩
    rintro position' - _ ⟨other, found', named', -⟩
    exact Nat.eq_or_lt_of_le (latest position' other found' named')

/-- A name of a file is found if a file has it. -/
theorem exists_unit_iff {name referencedBy : String} :
    (∃ identifier, index.unit name referencedBy = .ok identifier) ↔
      ∃ file ∈ files, file.name = name := by
  constructor
  · rintro ⟨identifier, known⟩
    obtain ⟨position, file, found, named, -⟩ := (unit_eq_ok_iff_last built).mp known
    exact ⟨file, List.mem_of_getElem? found, named⟩
  · rintro ⟨file, inside, rfl⟩
    obtain ⟨identifier, identified⟩ := ofFile_exists file
    obtain ⟨last, found⟩ :=
      exists_lastUnder (((build_entries built).1 (file.name, identifier)).mpr
        ⟨file, inside, rfl, identified⟩)
    exact ⟨last, unit_eq_ok.mpr found⟩

end

/-- **The index finds the last declaration of every name.** Every list of files has an index. A name
of a type is found exactly if a type of this name is declared in a file, and what is found describes
the last such type in the order of the walk. A name of a file is found exactly if a file has it, and
what is found is the unit of the last such file. -/
theorem index_finds_last_declaration (files : List Schema.File) :
    ∃ index, TypeIndex.build files = .ok index ∧
      (∀ fullName referencedBy,
        ((∃ resolved, index.resolve fullName referencedBy = .ok resolved) ↔
          ∃ position site path, DeclaredAt files position site path fullName) ∧
        ∀ resolved, index.resolve fullName referencedBy = .ok resolved ↔
          ∃ spot, DescribedAt files fullName spot resolved ∧
            ∀ position site path, DeclaredAt files position site path fullName →
              (position, site) = spot ∨ DeclaredBefore (position, site) spot) ∧
      ∀ name referencedBy,
        ((∃ identifier, index.unit name referencedBy = .ok identifier) ↔
          ∃ file ∈ files, file.name = name) ∧
        ∀ identifier, index.unit name referencedBy = .ok identifier ↔
          ∃ (position : Nat) (file : Schema.File), files[position]? = some file ∧ file.name = name ∧
            UnitIdentifier.ofFile file = .ok identifier ∧
            ∀ (position' : Nat) (other : Schema.File), files[position']? = some other →
              other.name = name → position' ≤ position := by
  obtain ⟨owns, added⟩ :=
    exists_forall₂ fun file (_ : file ∈ files) => TypeIndex.ofFile_exists file
  have built := build_eq_ok.mpr ⟨owns, added, rfl⟩
  refine ⟨_, built, fun fullName referencedBy => ?_, fun name referencedBy => ?_⟩
  · exact ⟨exists_resolve_iff built, fun resolved => resolve_eq_ok_iff_last built⟩
  · exact ⟨exists_unit_iff built, fun identifier => unit_eq_ok_iff_last built⟩

end ProtoPascal
