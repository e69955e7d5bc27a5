import Mathlib.Data.List.Nodup
import ProtoPascal.Naming.Vocabulary
import ProtoPascal.Proofs.Results

/-!
Names that are taken in a scope are new in it. `Scope.Extends` says that a scope takes a list of
names after another scope, that no two of them agree up to the case of letters, and that none of
them agrees with a name taken before. A claim extends its scope by one name, and extensions follow
each other, so every computation that only claims names extends its scope by the names it claims.

* `runIn_claim_extends`: a claim extends the scope by its identifier;
* `Scope.Extends.trans`: one extension after another;
* `Scope.Grants.extends`: names that a scope grants on request extend it;
* `runIn_mapM_grants`: several computations ask for names one after the other.
-/

namespace ProtoPascal

namespace Text

theorem fold_eq_iff (left right : String) :
    fold left = fold right ↔ foldChars left.toList = foldChars right.toList := by
  rw [fold, fold, String.ofList_inj]

/-- Two texts agree up to the case of letters exactly if they fold to one text. -/
theorem sameLetters_iff_fold (left right : String) :
    sameLetters left right = true ↔ fold left = fold right := by
  rw [sameLetters_iff, fold_eq_iff]

@[simp]
theorem sameLetters_self (text : String) : sameLetters text text = true :=
  (sameLetters_iff_fold text text).mpr rfl

theorem toList_fold (text : String) : (fold text).toList = foldChars text.toList :=
  String.toList_ofList

end Text

namespace Naming

open Text

/-! ### Taken identifiers -/

/-- An identifier is taken without regard to case exactly if a taken one agrees with it. -/
theorem contains_iff_fold (scope : Scope) (identifier : String) :
    scope.contains identifier false = true ↔
      ∃ taken ∈ scope.taken, fold taken = fold identifier := by
  simp [Scope.contains, sameLetters_iff_fold]

/-- An identifier that does not collide agrees with no taken one. -/
theorem fold_ne_of_not_collides {scope : Scope} {rule : Rule} {colliding : List Rule}
    {identifier : String} (insensitive : rule.caseSensitive = false)
    (free : scope.collides rule colliding identifier = false) :
    ∀ taken ∈ scope.taken, fold taken ≠ fold identifier := by
  intro taken inside same
  rw [Scope.collides, Bool.or_eq_false_iff, insensitive] at free
  have contained := (contains_iff_fold scope identifier).mpr ⟨taken, inside, same⟩
  rw [contained] at free
  exact Bool.noConfusion free.1

/-- A generated identifier is the plain or the marked form of the name, and does not collide. -/
theorem generate_eq_ok {scope : Scope} {rule : Rule} {colliding : List Rule}
    {core identifier : String} (generated : scope.generate rule colliding core = .ok identifier) :
    scope.collides rule colliding identifier = false ∧
      (identifier = rule.plain core ∨ identifier = rule.marked core) := by
  unfold Scope.generate at generated
  split at generated
  · next free =>
    cases generated
    exact ⟨by simpa using free, .inl rfl⟩
  · split at generated
    · next free =>
      cases generated
      exact ⟨by simpa using free, .inr rfl⟩
    · cases generated

theorem fold_ne_of_generate {scope : Scope} {rule : Rule} {colliding : List Rule}
    {core identifier : String} (insensitive : rule.caseSensitive = false)
    (generated : scope.generate rule colliding core = .ok identifier) :
    ∀ taken ∈ scope.taken, fold taken ≠ fold identifier :=
  fold_ne_of_not_collides insensitive (generate_eq_ok generated).1

/-! ### Extensions of scopes -/

/-- No two names of a list agree up to the case of letters. -/
def Apart (names : List String) : Prop :=
  (names.map fold).Nodup

/-- A scope takes the given names after another scope. They agree neither with each other nor with
a name that was taken before. -/
structure Scope.Extends (scope : Scope) (names : List String) (final : Scope) : Prop where
  taken : final.taken = scope.taken ++ names
  apart : Apart names
  fresh : ∀ name ∈ names, ∀ taken ∈ scope.taken, fold taken ≠ fold name

theorem Scope.Extends.refl (scope : Scope) : scope.Extends [] scope :=
  ⟨(List.append_nil _).symm, List.nodup_nil, fun _ inside => absurd inside List.not_mem_nil⟩

/-- **One extension after another.** -/
theorem Scope.Extends.trans {first second third : Scope} {names others : List String}
    (left : first.Extends names second) (right : second.Extends others third) :
    first.Extends (names ++ others) third := by
  have separate : ∀ name ∈ names, ∀ other ∈ others, fold name ≠ fold other := by
    intro name inside other outside
    have earlier : name ∈ second.taken := by
      rw [left.taken]
      exact List.mem_append_right _ inside
    exact right.fresh other outside name earlier
  refine ⟨?_, ?_, ?_⟩
  · rw [right.taken, left.taken, List.append_assoc]
  · unfold Apart
    rw [List.map_append, List.nodup_append]
    refine ⟨left.apart, right.apart, ?_⟩
    intro folded inside folded' outside
    obtain ⟨name, name_inside, rfl⟩ := List.mem_map.mp inside
    obtain ⟨other, other_inside, rfl⟩ := List.mem_map.mp outside
    exact separate name name_inside other other_inside
  · intro name inside taken earlier
    rcases List.mem_append.mp inside with here | there
    · exact left.fresh name here taken earlier
    · refine right.fresh name there taken ?_
      rw [left.taken]
      exact List.mem_append_left _ earlier

/-- **A claim extends the scope by its identifier.** -/
theorem runIn_claim_extends {rule : Rule} {colliding : List Rule} {core identifier : String}
    {scope final : Scope} (insensitive : rule.caseSensitive = false)
    (claimed : (claim rule colliding core).runIn scope = (.ok identifier, final)) :
    scope.Extends [identifier] final := by
  obtain ⟨generated, rfl⟩ := runIn_claim_eq_ok.mp claimed
  refine ⟨rfl, List.nodup_singleton _, ?_⟩
  intro name inside taken earlier
  rw [List.mem_singleton] at inside
  subst inside
  exact fold_ne_of_generate insensitive generated taken earlier

/-! ### Requests for names -/

/-- What is asked of a scope: an identifier of a rule for a name. -/
structure NameRequest where
  rule : Rule
  colliding : List Rule := []
  core : String

/-- A scope grants requests one after the other, each in the scope that the one before it leaves. -/
inductive Scope.Grants : Scope → List NameRequest → List String → Scope → Prop
  | nil {scope : Scope} : Scope.Grants scope [] [] scope
  | cons {scope final : Scope} {request : NameRequest} {rest : List NameRequest}
    {identifier : String} {names : List String}
    (generated : scope.generate request.rule request.colliding request.core = .ok identifier)
    (others : Scope.Grants (scope.insert identifier) rest names final) :
    Scope.Grants scope (request :: rest) (identifier :: names) final

theorem runIn_claim_grants {rule : Rule} {colliding : List Rule} {core identifier : String}
    {scope final : Scope}
    (claimed : (claim rule colliding core).runIn scope = (.ok identifier, final)) :
    scope.Grants [{ rule, colliding, core }] [identifier] final := by
  obtain ⟨generated, rfl⟩ := runIn_claim_eq_ok.mp claimed
  exact .cons generated .nil

theorem Scope.Grants.trans {first second third : Scope} {requests further : List NameRequest}
    {names others : List String} (left : first.Grants requests names second)
    (right : second.Grants further others third) :
    first.Grants (requests ++ further) (names ++ others) third := by
  induction left with
  | nil => exact right
  | cons generated _ ih => exact .cons generated (ih right)

/-- **Granted names extend the scope**, if their rules do not regard the case of letters. -/
theorem Scope.Grants.extends {scope final : Scope} {requests : List NameRequest}
    {names : List String} (granted : scope.Grants requests names final)
    (insensitive : ∀ request ∈ requests, request.rule.caseSensitive = false) :
    scope.Extends names final := by
  induction granted with
  | nil => exact Scope.Extends.refl _
  | @cons scope _ request rest identifier names generated others ih =>
    rw [List.forall_mem_cons] at insensitive
    have claimed : (claim request.rule request.colliding request.core).runIn scope =
        (.ok identifier, scope.insert identifier) := runIn_claim_eq_ok.mpr ⟨generated, rfl⟩
    exact (runIn_claim_extends insensitive.1 claimed).trans (ih insensitive.2)

variable {α β : Type} {compute : α → Claiming β} {items : List α} {results : List β}
  {scope final : Scope}

/-- **Several computations ask for names one after the other**, when each of them asks for its own. -/
theorem runIn_mapM_grants (requests : α → List NameRequest) (names : β → List String)
    (each : ∀ item result scope final, (compute item).runIn scope = (.ok result, final) →
      scope.Grants (requests item) (names result) final)
    (computed : (items.mapM compute).runIn scope = (.ok results, final)) :
    scope.Grants (items.flatMap requests) (results.flatMap names) final := by
  induction items generalizing results scope with
  | nil =>
    obtain ⟨rfl, rfl⟩ := runIn_mapM_nil_eq_ok.mp computed
    exact .nil
  | cons item rest ih =>
    obtain ⟨first, middle, others, head, tail, rfl⟩ := runIn_mapM_cons_eq_ok.mp computed
    exact (each item first scope middle head).trans (ih tail)

/-- Several computations succeed with one result for each item, in order. -/
theorem runIn_mapM_forall₂ (relation : α → β → Prop)
    (each : ∀ item result scope final, (compute item).runIn scope = (.ok result, final) →
      relation item result)
    (computed : (items.mapM compute).runIn scope = (.ok results, final)) :
    List.Forall₂ relation items results := by
  induction items generalizing results scope with
  | nil =>
    obtain ⟨rfl, rfl⟩ := runIn_mapM_nil_eq_ok.mp computed
    exact .nil
  | cons item rest ih =>
    obtain ⟨first, middle, others, head, tail, rfl⟩ := runIn_mapM_cons_eq_ok.mp computed
    exact .cons (each item first scope middle head) (ih tail)

end Naming

end ProtoPascal
