import Mathlib.Data.List.Forall2
import ProtoPascal.Log
import ProtoPascal.Naming.Scope

/-!
Computations that succeed, taken apart. A computation of several steps succeeds when each of its
steps does, and its result is the one that the results of the steps give. A computation for each item
of a list relates the items and the results one by one, so lists that are related item by item are
treated here too.

* `bind_eq_ok`: one computation after another;
* `mapM_eq_ok`: one computation for each item of a list;
* `pairwise_iff_of_forall₂`: what holds of any two items of a list holds of the related items;
* `map_eq_of_forall₂`, `eq_iff_map_eq_of_forall₂`: what related lists show;
* `forall₂_eraseDups`: first occurrences of lists that correspond;
* `Traced.result_mapM`: results do not depend on what is logged;
* `runIn_bind_eq_ok`: one computation after another in a naming scope;
* `runIn_mapM_cons_eq_ok`: the first of several computations in a naming scope.
-/

namespace ProtoPascal

variable {α β γ δ ε : Type}

/-! ### Computations -/

/-- One computation after another succeeds when both do. -/
theorem bind_eq_ok {first : Except ε α} {next : α → Except ε β} {result : β} :
    (first >>= next) = .ok result ↔ ∃ value, first = .ok value ∧ next value = .ok result := by
  constructor
  · intro success
    cases first with
    | error error => exact absurd success (by simp [bind, Except.bind])
    | ok value => exact ⟨value, rfl, success⟩
  · rintro ⟨value, rfl, success⟩
    exact success

theorem pure_eq_ok {value result : α} : (pure value : Except ε α) = .ok result ↔ value = result := by
  simp [pure, Except.pure]

/-- A check that passes lets the rest of the computation run. -/
theorem check_eq_ok {condition : Prop} [Decidable condition] {error : ε}
    {next : PUnit → Except ε β} {result : β} :
    (if condition then throw error >>= next else next ⟨⟩) = .ok result ↔
      ¬ condition ∧ next ⟨⟩ = .ok result := by
  by_cases failed : condition
  · simp [failed, throw, throwThe, MonadExceptOf.throw, bind, Except.bind]
  · simp [failed]

/-- One computation for each item succeeds when each of them does. -/
theorem mapM_eq_ok {compute : α → Except ε β} {items : List α} {results : List β} :
    items.mapM compute = .ok results ↔
      List.Forall₂ (fun item result => compute item = .ok result) items results := by
  induction items generalizing results with
  | nil =>
    rw [List.mapM_nil, pure_eq_ok, List.forall₂_nil_left_iff]
    exact eq_comm
  | cons item rest ih =>
    rw [List.mapM_cons, bind_eq_ok]
    constructor
    · rintro ⟨first, computed, success⟩
      obtain ⟨others, rest_computed, success⟩ := bind_eq_ok.mp success
      rw [pure_eq_ok] at success
      subst success
      exact .cons computed (ih.mp rest_computed)
    · intro each
      cases each with
      | cons computed others =>
        exact ⟨_, computed, bind_eq_ok.mpr ⟨_, ih.mpr others, rfl⟩⟩

/-! ### Lists that are related item by item -/

section

variable {relation : α → β → Prop} {left : List α} {right : List β}

/-- Each position of the right of two related lists is related to the same one of the left. -/
theorem exists_left_getElem?
    (related : List.Forall₂ relation left right) {position : Nat} {result : β}
    (found : right[position]? = some result) :
    ∃ item, left[position]? = some item ∧ relation item result := by
  induction related generalizing position with
  | nil => exact absurd found (by simp)
  | @cons item other _ _ first _ ih =>
    cases position with
    | zero =>
      rw [List.getElem?_cons_zero, Option.some.injEq] at found
      subst found
      exact ⟨item, rfl, first⟩
    | succ position =>
      rw [List.getElem?_cons_succ] at found
      obtain ⟨source, source_found, source_related⟩ := ih found
      exact ⟨source, source_found, source_related⟩

/-- Each item on the right of two related lists is related to one on the left. -/
theorem exists_left_of_forall₂
    (related : List.Forall₂ relation left right) {result : β} (inside : result ∈ right) :
    ∃ item ∈ left, relation item result := by
  obtain ⟨position, found⟩ := List.mem_iff_getElem?.mp inside
  obtain ⟨item, item_found, item_related⟩ := exists_left_getElem? related found
  exact ⟨item, List.mem_of_getElem? item_found, item_related⟩

/-- A list is related to some list if each of its items is related to something. -/
theorem exists_forall₂ (each : ∀ item ∈ left, ∃ result, relation item result) :
    ∃ results, List.Forall₂ relation left results := by
  induction left with
  | nil => exact ⟨[], .nil⟩
  | cons item rest ih =>
    rw [List.forall_mem_cons] at each
    obtain ⟨result, related⟩ := each.1
    obtain ⟨results, others⟩ := ih each.2
    exact ⟨result :: results, .cons related others⟩

/-- What holds of all items of a list holds of all related items. -/
theorem forall_mem_iff_of_forall₂ {ofLeft : α → Prop} {ofRight : β → Prop}
    (related : List.Forall₂ relation left right)
    (agree : ∀ item other, relation item other → (ofLeft item ↔ ofRight other)) :
    (∀ item ∈ left, ofLeft item) ↔ ∀ other ∈ right, ofRight other := by
  induction related with
  | nil => simp
  | cons first _ ih => rw [List.forall_mem_cons, List.forall_mem_cons, agree _ _ first, ih]

/-- What holds of two items of a list holds of two related items. -/
theorem pairwise_iff_of_forall₂ {ofLeft : α → α → Prop} {ofRight : β → β → Prop}
    (related : List.Forall₂ relation left right)
    (agree : ∀ item item' other other', relation item other → relation item' other' →
      (ofLeft item item' ↔ ofRight other other')) :
    left.Pairwise ofLeft ↔ right.Pairwise ofRight := by
  induction related with
  | nil => simp
  | cons first rest ih =>
    rw [List.pairwise_cons, List.pairwise_cons, ih,
      forall_mem_iff_of_forall₂ rest fun _ _ => agree _ _ _ _ first]

/-- Results differ from each other exactly if the items do, as far as both can be told apart. -/
theorem nodup_map_iff_of_forall₂ {view : α → γ} {shown : β → δ}
    (agree : ∀ item item' result result', relation item result → relation item' result' →
      (shown result = shown result' ↔ view item = view item'))
    (related : List.Forall₂ relation left right) :
    (right.map shown).Nodup ↔ (left.map view).Nodup := by
  rw [List.Nodup, List.Nodup, List.pairwise_map, List.pairwise_map]
  exact (pairwise_iff_of_forall₂ related fun _ _ _ _ first second =>
    not_congr (agree _ _ _ _ first second).symm).symm

/-- Lists related by equality of images have equal images. -/
theorem map_eq_of_forall₂ (ofLeft : α → γ) (ofRight : β → γ)
    (related : List.Forall₂ (fun item other => ofRight other = ofLeft item) left right) :
    right.map ofRight = left.map ofLeft := by
  induction related with
  | nil => rfl
  | cons first _ ih => rw [List.map_cons, List.map_cons, first, ih]

/-- Results are equal exactly if the items are, as far as the results depend on them. -/
theorem eq_iff_map_eq_of_forall₂ {view : α → γ}
    (agree : ∀ item item' result result', relation item result → relation item' result' →
      (result = result' ↔ view item = view item'))
    {left' : List α} {right' : List β} (related : List.Forall₂ relation left right)
    (related' : List.Forall₂ relation left' right') :
    right = right' ↔ left.map view = left'.map view := by
  induction related generalizing left' right' with
  | nil =>
    cases related' with
    | nil => exact iff_of_true rfl rfl
    | cons _ _ => exact iff_of_false (List.cons_ne_nil _ _).symm (List.cons_ne_nil _ _).symm
  | cons first _ ih =>
    cases related' with
    | nil => exact iff_of_false (List.cons_ne_nil _ _) (List.cons_ne_nil _ _)
    | cons first' rest' =>
      rw [List.cons.injEq, List.map_cons, List.map_cons, List.cons.injEq, ih rest',
        agree _ _ _ _ first first']

/-- Relations through something between two lists. -/
theorem exists_between_of_forall₂ {first : α → γ → Prop} {second : γ → β → Prop}
    (related : List.Forall₂ (fun item result => ∃ middle, first item middle ∧ second middle result)
      left right) :
    ∃ middles, List.Forall₂ first left middles ∧ List.Forall₂ second middles right := by
  induction related with
  | nil => exact ⟨[], .nil, .nil⟩
  | cons head _ ih =>
    obtain ⟨middle, before, after⟩ := head
    obtain ⟨middles, befores, afters⟩ := ih
    exact ⟨middle :: middles, .cons before befores, .cons after afters⟩

/-- A list that is related item by item to a list of pairs is related to the left sides. -/
theorem forall₂_zip (relation : α → β → γ → Prop) {results : List γ}
    (sameLength : left.length = right.length)
    (related : List.Forall₂ (fun pair result => relation pair.1 pair.2 result) (left.zip right)
      results) :
    List.Forall₂ (fun item result => ∃ other, relation item other result) left results := by
  have ofPairs : List.Forall₂ (fun (pair : α × β) result => ∃ other, relation pair.1 other result)
      (left.zip right) results := related.imp fun pair _ holds => ⟨pair.2, holds⟩
  rw [← List.map_fst_zip (Nat.le_of_eq sameLength), List.forall₂_map_left_iff]
  exact ofPairs

/-- Lists are related item by item if each position is related to the item there. -/
theorem forall₂_range {given : Nat → β → Prop} (related : List.Forall₂ relation left right)
    (each : ∀ position item result, left[position]? = some item → relation item result →
      given position result) : List.Forall₂ given (List.range left.length) right := by
  rw [List.forall₂_iff_get] at related ⊢
  refine ⟨by rw [List.length_range, related.1], fun position below below' => ?_⟩
  rw [List.length_range] at below
  have here := each position _ _ (List.getElem?_eq_getElem below) (related.2 position below below')
  simpa using here

/-- The keys of items are related to what belongs to the items, if this is so for each item. -/
theorem forall₂_flatMap_zipIdx {keysOf : α × Nat → List γ} {given : α → List β → Prop}
    {relation : γ → β → Prop} {lists : List (List β)} (related : List.Forall₂ given left lists)
    (start : Nat)
    (each : ∀ index item own, left[index]? = some item → given item own →
      List.Forall₂ relation (keysOf (item, start + index)) own) :
    List.Forall₂ relation ((left.zipIdx start).flatMap keysOf) lists.flatten := by
  induction related generalizing start with
  | nil => exact .nil
  | @cons item own rest lists first _ ih =>
    rw [List.zipIdx_cons, List.flatMap_cons, List.flatten_cons]
    refine List.rel_append (each 0 item own rfl first) (ih (start + 1) ?_)
    intro index other list found here
    have later := each (index + 1) other list found here
    rwa [Nat.add_assoc, Nat.add_comm 1 index]

theorem forall₂_flatMap {view : γ → List α} {view' : γ → List β} {items : List γ}
    (each : ∀ item ∈ items, List.Forall₂ relation (view item) (view' item)) :
    List.Forall₂ relation (items.flatMap view) (items.flatMap view') := by
  induction items with
  | nil => exact .nil
  | cons item rest ih =>
    rw [List.forall_mem_cons] at each
    rw [List.flatMap_cons, List.flatMap_cons]
    exact List.rel_append each.1 (ih each.2)

/-- **First occurrences correspond**, if items are equal exactly when their partners are. -/
theorem forall₂_eraseDups [BEq α] [LawfulBEq α] [BEq β] [LawfulBEq β]
    (told : ∀ {item item' partner partner'}, relation item partner → relation item' partner' →
      (item = item' ↔ partner = partner'))
    {items : List α} {partners : List β} (related : List.Forall₂ relation items partners) :
    List.Forall₂ relation items.eraseDups partners.eraseDups := by
  match items, partners, related with
  | [], [], .nil => exact .nil
  | item :: rest, partner :: partners, .cons first others =>
    rw [List.eraseDups_cons, List.eraseDups_cons]
    refine .cons first (forall₂_eraseDups told (List.rel_filter ?_ others))
    intro other other' other_related
    simp [told other_related first]
termination_by items.length
decreasing_by exact Nat.lt_succ_of_le (List.length_filter_le _ _)

end

/-- Computations that succeed exactly on valid items, with what the items describe, succeed for a
list exactly if all its items are valid. -/
theorem mapM_eq_ok_of_valid {compute : α → Except ε β} {valid : α → Prop}
    {describes : α → β → Prop} {items : List α} {results : List β}
    (each : ∀ item ∈ items, ∀ result, compute item = .ok result ↔
      valid item ∧ describes item result) :
    items.mapM compute = .ok results ↔
      (∀ item ∈ items, valid item) ∧ List.Forall₂ describes items results := by
  rw [mapM_eq_ok, ← List.forall₂_and_left]
  induction items generalizing results with
  | nil => simp only [List.forall₂_nil_left_iff]
  | cons item rest ih =>
    rw [List.forall_mem_cons] at each
    simp only [List.forall₂_cons_left_iff, each.1, ih each.2]

/-! ### Items of lists -/

/-- What is searched for is found, if it is the only one that meets the condition. -/
theorem find?_eq_some_of_unique {condition : α → Bool} {items : List α} {item : α}
    (inside : item ∈ items) (meets : condition item = true)
    (unique : ∀ other ∈ items, condition other = true → other = item) :
    items.find? condition = some item := by
  cases found : items.find? condition with
  | none => exact absurd meets (List.find?_eq_none.mp found item inside)
  | some other =>
    rw [unique other (List.mem_of_find?_eq_some found) (List.find?_some found)]

/-- One of the results of each item is part of all results of all items. -/
theorem map_sublist_flatMap {single : α → β} {all : α → List β} (items : List α)
    (inside : ∀ item, single item ∈ all item) :
    (items.map single).Sublist (items.flatMap all) := by
  induction items with
  | nil => exact .slnil
  | cons item rest ih =>
    rw [List.map_cons, List.flatMap_cons, ← List.singleton_append]
    exact (List.singleton_sublist.mpr (inside item)).append ih

/-! ### Logged computations -/

instance : LawfulMonad Traced := by
  refine LawfulMonad.mk' Traced ?_ ?_ ?_
  · rintro α ⟨log, error | value⟩
    · rfl
    · show (⟨log ++ [], .ok value⟩ : Traced α) = ⟨log, .ok value⟩
      rw [List.append_nil]
  · intro α β value next
    show (⟨[] ++ (next value).log, (next value).result⟩ : Traced β) = next value
    rw [List.nil_append]
  · rintro α β γ ⟨log, error | value⟩ next last
    · rfl
    · show Traced.bind (Traced.bind ⟨log, .ok value⟩ next) last =
        Traced.bind ⟨log, .ok value⟩ fun value => Traced.bind (next value) last
      simp only [Traced.bind]
      cases (next value).result with
      | error error => rfl
      | ok result => simp only [List.append_assoc]

/-- The results of several computations do not depend on what is logged. -/
theorem Traced.result_mapM (compute : α → Traced β) (items : List α) :
    (items.mapM compute).result = items.mapM fun item => (compute item).result := by
  induction items with
  | nil => rfl
  | cons item rest ih =>
    rw [List.mapM_cons, List.mapM_cons, Traced.result_bind]
    refine bind_congr fun first => ?_
    rw [Traced.result_bind, ih]
    rfl

/-! ### Computations in a naming scope -/

namespace Naming

@[simp]
theorem runIn_pure (value : α) (scope : Scope) :
    (pure value : Claiming α).runIn scope = (.ok value, scope) := rfl

/-- One computation after another in a scope. -/
theorem runIn_bind (first : Claiming α) (next : α → Claiming β) (scope : Scope) :
    (first >>= next).runIn scope =
      match first.runIn scope with
      | (.ok value, middle) => (next value).runIn middle
      | (.error error, middle) => (.error error, middle) := by
  show (ExceptT.bind first next) scope = _
  simp only [Claiming.runIn, ExceptT.run, StateT.run, ExceptT.bind, ExceptT.mk, ExceptT.bindCont,
    bind, StateT.bind]
  rcases first scope with ⟨error | value, middle⟩ <;> rfl

/-- One computation after another succeeds when both do, the second in the scope that the first
leaves. -/
theorem runIn_bind_eq_ok {first : Claiming α} {next : α → Claiming β} {scope final : Scope}
    {result : β} :
    (first >>= next).runIn scope = (.ok result, final) ↔
      ∃ value middle, first.runIn scope = (.ok value, middle) ∧
        (next value).runIn middle = (.ok result, final) := by
  rw [runIn_bind]
  rcases computed : first.runIn scope with ⟨error | value, middle⟩
  · simp
  · simp

@[simp]
theorem runIn_ofExcept (result : Except Error α) (scope : Scope) :
    (Claiming.ofExcept result).runIn scope = (result, scope) := rfl

/-- A claim succeeds with the identifier that the scope generates, and takes it. -/
theorem runIn_claim_eq_ok {rule : Rule} {colliding : List Rule} {core identifier : String}
    {scope final : Scope} :
    (claim rule colliding core).runIn scope = (.ok identifier, final) ↔
      scope.generate rule colliding core = .ok identifier ∧ final = scope.insert identifier := by
  simp only [claim, Claiming.runIn, ExceptT.run, ExceptT.mk, StateT.run]
  rcases scope.generate rule colliding core with error | found
  · simp
  · simp only [Prod.mk.injEq, Except.ok.injEq]
    constructor
    · rintro ⟨rfl, rfl⟩
      exact ⟨rfl, rfl⟩
    · rintro ⟨rfl, rfl⟩
      exact ⟨rfl, rfl⟩

theorem runIn_mapM_nil_eq_ok {compute : α → Claiming β} {results : List β} {scope final : Scope} :
    (([] : List α).mapM compute).runIn scope = (.ok results, final) ↔
      results = [] ∧ final = scope := by
  rw [List.mapM_nil, runIn_pure]
  simp [eq_comm]

/-- Computations for several items succeed when the first does and then the others do. -/
theorem runIn_mapM_cons_eq_ok {compute : α → Claiming β} {item : α} {rest : List α}
    {results : List β} {scope final : Scope} :
    ((item :: rest).mapM compute).runIn scope = (.ok results, final) ↔
      ∃ first middle others, (compute item).runIn scope = (.ok first, middle) ∧
        (rest.mapM compute).runIn middle = (.ok others, final) ∧ results = first :: others := by
  rw [List.mapM_cons, runIn_bind_eq_ok]
  constructor
  · rintro ⟨first, middle, computed, success⟩
    obtain ⟨others, last, rest_computed, success⟩ := runIn_bind_eq_ok.mp success
    rw [runIn_pure, Prod.mk.injEq, Except.ok.injEq] at success
    obtain ⟨rfl, rfl⟩ := success
    exact ⟨first, middle, others, computed, rest_computed, rfl⟩
  · rintro ⟨first, middle, others, computed, rest_computed, rfl⟩
    exact ⟨first, middle, computed, runIn_bind_eq_ok.mpr ⟨others, final, rest_computed, rfl⟩⟩

/-- A result in a scope that nobody needs afterwards is a result with some scope after it. -/
theorem resultIn_eq_ok {claims : Claiming α} {scope : Scope} {result : α} :
    claims.resultIn scope = .ok result ↔ ∃ final, claims.runIn scope = (.ok result, final) := by
  unfold Claiming.resultIn
  constructor
  · intro success
    exact ⟨(claims.runIn scope).2, Prod.ext success rfl⟩
  · rintro ⟨final, success⟩
    rw [success]

end Naming

end ProtoPascal
