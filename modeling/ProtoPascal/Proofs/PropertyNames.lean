import ProtoPascal.Proofs.MemberNames
import ProtoPascal.Proofs.TypeCollisions

/-!
Properties that are named like a given word. All other names in a class begin with a fixed text, so a
word that begins with none of these texts can only be the name of a property. It is the name of the
first property that the style of Pascal writes like the word, and of no other.

* `leads_of_generate`, `leads_of_couldProduce`: identifiers of a rule begin with its fixed text;
* `property_fold_eq_iff`: when a property gets a word as its name;
* `Scope.Grants.namesProperty`: when one of several granted names is a word;
* `runIn_mapM_property_iff`: the first item that resembles a word gets it.
-/

namespace ProtoPascal

namespace Naming

open Text

/-! ### Fixed texts -/

/-- An identifier begins with the fixed text of a rule, up to the case of letters. -/
def Rule.Leads (rule : Rule) (identifier : String) : Prop :=
  foldChars rule.lead.toList <+: foldChars identifier.toList

instance (rule : Rule) (identifier : String) : Decidable (rule.Leads identifier) :=
  inferInstanceAs (Decidable (_ <+: _))

theorem leads_congr {rule : Rule} {identifier word : String} (same : fold identifier = fold word) :
    rule.Leads identifier ↔ rule.Leads word := by
  rw [Rule.Leads, Rule.Leads, (fold_eq_iff _ _).mp same]

/-- A generated identifier begins with the fixed text of its rule. -/
theorem leads_of_generate {scope : Scope} {rule : Rule} {colliding : List Rule}
    {core identifier : String} (generated : scope.generate rule colliding core = .ok identifier) :
    rule.Leads identifier := by
  obtain ⟨-, rfl | rfl⟩ := generate_eq_ok generated
  · rw [Rule.Leads, Rule.plain, String.toList_append, String.toList_append, List.append_assoc,
      foldChars_append]
    exact List.prefix_append _ _
  · rw [Rule.Leads, Rule.marked, String.toList_append, String.toList_append, String.toList_append,
      List.append_assoc, List.append_assoc, foldChars_append]
    exact List.prefix_append _ _

/-- An identifier with the shape of a rule begins with the fixed text of the rule. -/
theorem leads_of_couldProduce {rule : Rule} {identifier : String}
    (shaped : rule.couldProduce identifier = true) : rule.Leads identifier := by
  obtain ⟨head, inner, tail, joined, leads, -, -, -⟩ := couldProduce_iff.mp shaped
  have folded : foldChars head = foldChars rule.lead.toList := by
    rw [Rule.agree] at leads
    split at leads
    · rw [eq_of_beq leads]
    · exact eq_of_beq leads
  rw [Rule.Leads, joined, foldChars_append, folded]
  exact List.prefix_append _ _

/-! ### Words without a fixed text -/

/-- The rules for names in a class other than those of properties. -/
def leadingRules : List Rule :=
  propertyColliding ++ [.caseType, .fieldNumber, .fieldName]

/-- A word that begins with no fixed text and has no mark. In a class it can only be the name of a
property. -/
structure PropertyWord (word : String) : Prop where
  unled : ∀ rule ∈ leadingRules, ¬ rule.Leads word
  unmarked : '_' ∉ word.toList

/-- No name in a scope agrees with a word. -/
def Scope.Free (scope : Scope) (word : String) : Prop :=
  ∀ taken ∈ scope.taken, fold taken ≠ fold word

/-- A word is free, if no name has the same letters. Names of another size need no look at their
letters. -/
theorem free_of_sameLetters {scope : Scope} {word : String}
    (other : ∀ taken ∈ scope.taken, sameLetters taken word = false) : scope.Free word := by
  intro taken inside same
  rw [← sameLetters_iff_fold, other taken inside] at same
  cases same

theorem free_insert {scope : Scope} {identifier word : String} :
    (scope.insert identifier).Free word ↔ scope.Free word ∧ fold identifier ≠ fold word := by
  simp [Scope.Free, Scope.insert, or_imp, forall_and]

/-- The style of Pascal writes a name like a word. -/
def Resembles (word name : String) : Prop :=
  foldChars (styled name) = foldChars word.toList

instance (word name : String) : Decidable (Resembles word name) :=
  inferInstanceAs (Decidable (_ = _))

section

variable {word : String} (proper : PropertyWord word)

include proper

/-- An identifier that begins with a fixed text does not agree with the word. -/
theorem fold_ne_of_leads {rule : Rule} {identifier : String} (listed : rule ∈ leadingRules)
    (leads : rule.Leads identifier) : fold identifier ≠ fold word := by
  intro same
  exact proper.unled rule listed ((leads_congr same).mp leads)

/-- **A property gets the word as its name** exactly if its name in the schema resembles the word, and
the word is free. -/
theorem property_fold_eq_iff {scope : Scope} {core identifier : String}
    (generated : scope.generate .property propertyColliding core = .ok identifier) :
    fold identifier = fold word ↔ Resembles word core ∧ scope.Free word := by
  have plain_toList : (Rule.property.plain core).toList = styled core := by
    simp [Rule.plain, Rule.property, CaseStyle.apply, styled]
  constructor
  · intro same
    have free : scope.Free word := by
      intro taken inside
      rw [← same]
      exact fold_ne_of_generate rfl generated taken inside
    refine ⟨?_, free⟩
    obtain ⟨-, rfl | rfl⟩ := generate_eq_ok generated
    · rwa [fold_eq_iff, plain_toList] at same
    · -- A marked identifier has an underscore, and the word has none.
      refine absurd (underscore_mem_foldChars.mp ?_) proper.unmarked
      rw [← (fold_eq_iff _ _).mp same, underscore_mem_foldChars]
      simp [Rule.marked, Rule.property]
  · rintro ⟨resembles, free⟩
    have same : fold (Rule.property.plain core) = fold word := by
      rwa [fold_eq_iff, plain_toList]
    have untaken : scope.contains (Rule.property.plain core) false = false := by
      rw [Bool.eq_false_iff, Ne, contains_iff_fold, same]
      rintro ⟨taken, inside, agrees⟩
      exact free taken inside agrees
    have unshaped : propertyColliding.any (·.couldProduce (Rule.property.plain core)) = false := by
      rw [List.any_eq_false]
      intro rule listed shaped
      exact fold_ne_of_leads proper (List.mem_append_left _ listed) (leads_of_couldProduce shaped) same
    have unclaimed : scope.collides .property propertyColliding (Rule.property.plain core) = false := by
      rw [Scope.collides, unshaped, Bool.or_false]
      exact untaken
    rw [Scope.generate, unclaimed, Bool.not_false, if_pos rfl, Except.ok.injEq] at generated
    rw [← generated, same]

/-! ### Granted names -/

/-- Names that begin with fixed texts leave the word as free as it was. -/
theorem Scope.Grants.free_iff {scope final : Scope} {requests : List NameRequest}
    {names : List String} (granted : scope.Grants requests names final)
    (led : ∀ request ∈ requests, request.rule ∈ leadingRules) :
    final.Free word ↔ scope.Free word := by
  induction granted with
  | nil => exact Iff.rfl
  | cons generated others ih =>
    rw [List.forall_mem_cons] at led
    rw [ih led.2, free_insert]
    exact and_iff_left (fold_ne_of_leads proper led.1 (leads_of_generate generated))

end

/-- What a computation that names a property does for a word. -/
structure NamesProperty (word core property : String) (scope final : Scope) : Prop where
  property_iff : fold property = fold word ↔ Resembles word core ∧ scope.Free word
  free_iff : final.Free word ↔ scope.Free word ∧ ¬ Resembles word core

/-- **One property among names that begin with fixed texts.** -/
theorem Scope.Grants.namesProperty {word : String} (proper : PropertyWord word) {core : String}
    (before : List NameRequest) {after : List NameRequest} {names : List String} {property : String}
    {scope final : Scope}
    (granted : scope.Grants
      (before ++ { rule := .property, colliding := propertyColliding, core } :: after) names final)
    (led : ∀ request ∈ before ++ after, request.rule ∈ leadingRules)
    (found : names[before.length]? = some property) :
    NamesProperty word core property scope final := by
  induction before generalizing scope names with
  | nil =>
    cases granted with
    | cons generated others =>
      obtain rfl : _ = property := Option.some.inj found
      have property_iff := property_fold_eq_iff proper generated
      refine ⟨property_iff, ?_⟩
      rw [others.free_iff proper led, free_insert, Ne, property_iff]
      tauto
  | cons request rest ih =>
    rw [List.cons_append, List.forall_mem_cons] at led
    cases granted with
    | cons generated others =>
      have unlike := fold_ne_of_leads proper led.1 (leads_of_generate generated)
      have later := ih others led.2 found
      exact ⟨by rw [later.property_iff, free_insert, and_iff_left unlike],
        by rw [later.free_iff, free_insert, and_iff_left unlike]⟩

/-- Granted names begin with the fixed texts of their rules. -/
theorem Scope.Grants.leads {scope final : Scope} {requests : List NameRequest} {names : List String}
    (granted : scope.Grants requests names final) :
    List.Forall₂ (fun request name => request.rule.Leads name) requests names := by
  induction granted with
  | nil => exact .nil
  | cons generated _ ih => exact .cons (leads_of_generate generated) ih

/-! ### Several properties -/

section

variable {α β : Type} {compute : α → Claiming β} {word : String} (core : α → String)
  (property : β → String)
  (each : ∀ item result scope final, (compute item).runIn scope = (.ok result, final) →
    NamesProperty word (core item) (property result) scope final)
  {items : List α} {results : List β} {scope final : Scope}
  (computed : (items.mapM compute).runIn scope = (.ok results, final))
include each computed

/-- **The first item that resembles a word gets it**, if it is free, and no other item does. -/
theorem runIn_mapM_property_iff (holds : α → Prop) :
    (∃ pair ∈ items.zip results, fold (property pair.2) = fold word ∧ holds pair.1) ↔
      scope.Free word ∧
        ∃ item, items.find? (fun item => Resembles word (core item)) = some item ∧ holds item := by
  induction items generalizing results scope with
  | nil => simp
  | cons item rest ih =>
    obtain ⟨first, middle, others, head, tail, rfl⟩ := runIn_mapM_cons_eq_ok.mp computed
    have step := each item first scope middle head
    rw [List.zip_cons_cons, List.exists_mem_cons_iff, ih tail, step.property_iff, step.free_iff,
      List.find?_cons]
    by_cases resembles : Resembles word (core item) <;> simp [resembles]

/-- A word is free after several properties are named exactly if it was free before and no item
resembles it. -/
theorem runIn_mapM_free_iff :
    final.Free word ↔ scope.Free word ∧ ∀ item ∈ items, ¬ Resembles word (core item) := by
  induction items generalizing results scope with
  | nil =>
    obtain ⟨-, rfl⟩ := runIn_mapM_nil_eq_ok.mp computed
    simp
  | cons item rest ih =>
    obtain ⟨first, middle, others, head, tail, rfl⟩ := runIn_mapM_cons_eq_ok.mp computed
    rw [ih tail, (each item first scope middle head).free_iff, List.forall_mem_cons, and_assoc]

end

end Naming

namespace Message

open Naming
open Schema (Field MessageType Oneof)

/-! ### Fields and oneofs -/

/-- The names of a field that method bodies mention begin with fixed texts, that of its property
apart. -/
structure FieldNames.Led (names : FieldNames) : Prop where
  backing : Rule.backingField.Leads names.backing
  presence : ∀ presence, names.presence = some presence → Rule.presence.Leads presence.property
  numberConstant : Rule.fieldNumber.Leads names.numberConstant

theorem fieldNames_led {field : Field} {names : FieldNames} {scope final : Scope}
    (granted : scope.Grants (fieldRequests field) names.all final)
    (shaped : names.presence.isSome = !field.repeated) : names.Led := by
  have leads := granted.leads
  unfold fieldRequests FieldNames.all at leads
  cases present : names.presence with
  | none =>
    rw [present, Option.isSome_none, eq_comm, Bool.not_eq_false'] at shaped
    rw [shaped, present] at leads
    simp only [if_true, List.append_nil, List.cons_append, List.nil_append, Option.map_none,
      Option.getD_none, List.forall₂_cons] at leads
    obtain ⟨backing, -, -, -, number, -⟩ := leads
    exact ⟨backing, by simp [present], number⟩
  | some presence =>
    rw [present, Option.isSome_some, eq_comm, Bool.not_eq_true'] at shaped
    rw [shaped, present] at leads
    simp only [presenceRequests, PresenceNames.all, Bool.false_eq_true, if_false, List.cons_append,
      List.nil_append, Option.map_some, Option.getD_some, List.forall₂_cons] at leads
    obtain ⟨backing, -, -, -, presence_leads, -, -, number, -⟩ := leads
    exact ⟨backing, by simp [present, presence_leads], number⟩

theorem oneofNames_led {oneof : Oneof} {names : OneofNames} {scope final : Scope}
    (granted : scope.Grants (oneofRequests oneof) names.all final) :
    Rule.backingField.Leads names.backing := by
  have leads := granted.leads
  unfold oneofRequests OneofNames.all at leads
  simp only [List.forall₂_cons] at leads
  exact leads.2.1

section

variable {word : String} (proper : PropertyWord word)

include proper

theorem fieldNames_property {field : Field} {names : FieldNames} {scope final : Scope}
    (claimed : (FieldNames.claim field).runIn scope = (.ok names, final)) :
    NamesProperty word field.name names.property scope final := by
  have granted := (fieldNames_granted claimed).1
  refine granted.namesProperty proper [_] ?_ rfl
  unfold presenceRequests
  cases field.repeated <;> simp [leadingRules, propertyColliding]

theorem oneofNames_property {oneof : Oneof} {members : List Field} {names : OneofNames}
    {scope final : Scope}
    (claimed : (OneofNames.claim oneof members).runIn scope = (.ok names, final)) :
    NamesProperty word (oneofCore oneof) names.property scope final := by
  have granted := (oneofNames_granted claimed).1
  refine granted.namesProperty proper [_, _] ?_ rfl
  simp [leadingRules, propertyColliding]

end

/-! ### Messages -/

/-- The names in a class begin with fixed texts, those of properties apart. -/
theorem claimNames_led {message : MessageType} {scope : Scope}
    {names : List FieldNames × List OneofNames}
    (claimed : (claimNames message).resultIn scope = .ok names) :
    (∀ field ∈ names.1, field.Led) ∧
      ∀ oneof ∈ names.2, Rule.backingField.Leads oneof.backing := by
  obtain ⟨fields, oneofs⟩ := claimNames_granted claimed
  refine ⟨fun names inside => ?_, fun names inside => ?_⟩
  · obtain ⟨field, first, last, granted, shaped⟩ := fields names inside
    exact fieldNames_led granted shaped
  · obtain ⟨⟨oneof, first, last, granted⟩, -⟩ := oneofs names inside
    exact oneofNames_led granted

/-- **The properties of a message that get a word as their name.** Of the fields it is the first that
resembles the word. Of the oneofs it is the first that resembles it, if no field does. -/
theorem claimNames_property_iff {word : String} (proper : PropertyWord word) {message : MessageType}
    {scope : Scope} (free : scope.Free word) {names : List FieldNames × List OneofNames}
    (claimed : (claimNames message).resultIn scope = .ok names) :
    (∀ holds : Field → Prop,
      (∃ pair ∈ message.fields.zip names.1, Text.fold pair.2.property = Text.fold word ∧
        holds pair.1) ↔
      ∃ field, message.fields.find? (fun field => Resembles word field.name) = some field ∧
        holds field) ∧
    ∀ holds : Oneof × Nat → Prop,
      (∃ pair ∈ message.oneofs.zipIdx.zip names.2, Text.fold pair.2.property = Text.fold word ∧
        holds pair.1) ↔
      (∀ field ∈ message.fields, ¬ Resembles word field.name) ∧
        ∃ item, message.oneofs.zipIdx.find? (fun item => Resembles word (oneofCore item.1)) =
          some item ∧ holds item := by
  obtain ⟨middle, last, fields_claimed, oneofs_claimed⟩ := claimNames_eq_ok claimed
  have eachField (field : Field) (names : FieldNames) (scope final : Scope)
      (claimed : (FieldNames.claim field).runIn scope = (.ok names, final)) :=
    fieldNames_property proper claimed
  refine ⟨fun holds => ?_, fun holds => ?_⟩
  · rw [runIn_mapM_property_iff Field.name FieldNames.property eachField fields_claimed holds]
    exact and_iff_right free
  · rw [runIn_mapM_property_iff (fun item : Oneof × Nat => oneofCore item.1) OneofNames.property
      (fun _ _ _ _ claimed => oneofNames_property proper claimed) oneofs_claimed holds,
      runIn_mapM_free_iff Field.name FieldNames.property eachField fields_claimed,
      and_iff_right free]

/-- A word is free in the scope of a class if it is free before the nested types are named. -/
theorem memberNamesScope_free {word : String} (proper : PropertyWord word)
    (free : classScope.Free word) {parts : ClassParts} {context : Context} {place : Place}
    {message : MessageType} (of : parts.PartsOf context place message) :
    (memberNamesScope parts.enums parts.nested).Free word := by
  intro taken inside
  rcases List.mem_append.mp inside with reserved | nested
  · exact free taken reserved
  · obtain ⟨member, isNested, rfl⟩ := List.mem_map.mp nested
    obtain ⟨name, -, named⟩ := exists_left_of_forall₂ (typeNames_identifiers of)
      (typeMembers_name isNested)
    exact fold_ne_of_leads proper (by decide : Rule.typeName ∈ leadingRules) (leads_of_generate named)

end Message

end ProtoPascal
