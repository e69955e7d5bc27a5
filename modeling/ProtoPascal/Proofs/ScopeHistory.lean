import ProtoPascal.Proofs.Naming

/-!
What happens to a scope over time. Identifiers are claimed and inserted in any order, and each step
leaves an event: the scope before it, the answer, and the scope after it. A step can do four things,
which `Event.Lawful` lists, and every event of a history is one of them. An identifier that was
handed out, by a claim or by an insertion, stays taken, so no later claim gets it again.

* `perform_lawful`: what one step can do;
* `lawful_of_mem_history`: every event of a history is the event of one step;
* `taken_before_event`: what is taken before an event;
* `claims_never_repeat`: what all of this says about claims.
-/

namespace ProtoPascal.Naming

open Text

/-! ### Steps and their events -/

/-- What can be done with a scope: an identifier is claimed for a name, or a given one is inserted. -/
inductive ScopeStep where
  | claim (request : NameRequest)
  | insert (identifier : String)

/-- The computation of a step. Its result is the identifier that it takes. -/
def ScopeStep.perform : ScopeStep → Claiming String
  | .claim request => Naming.claim request.rule request.colliding request.core
  | .insert identifier => ExceptT.mk fun scope => (.ok identifier, scope.insert identifier)

/-- A step with its answer, and the scopes before and after it. -/
structure Event where
  before : Scope
  step : ScopeStep
  answer : Except Error String
  after : Scope

/-- The event of a step in a scope. -/
def Scope.event (scope : Scope) (step : ScopeStep) : Event :=
  { before := scope, step, answer := (step.perform.runIn scope).1,
    after := (step.perform.runIn scope).2 }

/-- The events of steps that follow each other. -/
def Scope.history (scope : Scope) : List ScopeStep → List Event
  | [] => []
  | step :: rest => scope.event step :: (scope.event step).after.history rest

/-- The scope after steps that follow each other. -/
def Scope.afterAll (scope : Scope) : List ScopeStep → Scope
  | [] => scope
  | step :: rest => (scope.event step).after.afterAll rest

/-- The identifier that an event hands out, unless it is a claim that fails. -/
def Event.handedOut (event : Event) : List String :=
  event.answer.toOption.toList

/-- An identifier is taken, or has the shape of a rule that others yield to. -/
def Blocked (taken : List String) (colliding : List Rule) (identifier : String) : Prop :=
  (∃ name ∈ taken, fold name = fold identifier) ∨
    ∃ rule ∈ colliding, rule.couldProduce identifier = true

/-- What a step can do to a scope. -/
inductive Event.Lawful : Event → Prop
  | plain {scope : Scope} {request : NameRequest}
    (free : ¬ Blocked scope.taken request.colliding (request.rule.plain request.core)) :
    Event.Lawful ⟨scope, .claim request, .ok (request.rule.plain request.core),
      scope.insert (request.rule.plain request.core)⟩
  | marked {scope : Scope} {request : NameRequest}
    (blocked : Blocked scope.taken request.colliding (request.rule.plain request.core))
    (free : ¬ Blocked scope.taken request.colliding (request.rule.marked request.core)) :
    Event.Lawful ⟨scope, .claim request, .ok (request.rule.marked request.core),
      scope.insert (request.rule.marked request.core)⟩
  | refused {scope : Scope} {request : NameRequest}
    (blocked : Blocked scope.taken request.colliding (request.rule.plain request.core))
    (markedBlocked : Blocked scope.taken request.colliding (request.rule.marked request.core)) :
    Event.Lawful ⟨scope, .claim request, .error (.identifierCollision request.rule.kind request.core
      (request.rule.marked request.core)), scope⟩
  | inserted {scope : Scope} {identifier : String} :
    Event.Lawful ⟨scope, .insert identifier, .ok identifier, scope.insert identifier⟩

/-! ### One step -/

theorem collides_iff_blocked {scope : Scope} {rule : Rule} {colliding : List Rule}
    {identifier : String} (insensitive : rule.caseSensitive = false) :
    scope.collides rule colliding identifier = true ↔ Blocked scope.taken colliding identifier := by
  rw [Scope.collides, Bool.or_eq_true, insensitive, contains_iff_fold, List.any_eq_true, Blocked]

/-- A claim for which the scope generates no identifier fails and leaves the scope as it is. -/
theorem runIn_claim_of_error {scope : Scope} {rule : Rule} {colliding : List Rule} {core : String}
    {error : Error} (refused : scope.generate rule colliding core = .error error) :
    (claim rule colliding core).runIn scope = (.error error, scope) := by
  simp only [claim, Claiming.runIn, ExceptT.run, ExceptT.mk, StateT.run, refused]

/-- **What one step can do.** -/
theorem perform_lawful {scope : Scope} {step : ScopeStep}
    (insensitive : ∀ request, step = .claim request → request.rule.caseSensitive = false) :
    (scope.event step).Lawful := by
  cases step with
  | insert identifier => exact .inserted
  | claim request =>
    have blocks (identifier : String) :
        scope.collides request.rule request.colliding identifier = true ↔
          Blocked scope.taken request.colliding identifier :=
      collides_iff_blocked (insensitive request rfl)
    by_cases plain : Blocked scope.taken request.colliding (request.rule.plain request.core)
    · by_cases marked : Blocked scope.taken request.colliding (request.rule.marked request.core)
      · have refused : scope.generate request.rule request.colliding request.core =
            .error (.identifierCollision request.rule.kind request.core
              (request.rule.marked request.core)) := by
          simp only [Scope.generate, (blocks _).mpr plain, (blocks _).mpr marked, Bool.not_true,
            Bool.false_eq_true, if_false]
        rw [Scope.event, ScopeStep.perform, runIn_claim_of_error refused]
        exact .refused plain marked
      · have generated : scope.generate request.rule request.colliding request.core =
            .ok (request.rule.marked request.core) := by
          rw [← blocks, Bool.not_eq_true] at marked
          simp only [Scope.generate, (blocks _).mpr plain, marked, Bool.not_true, Bool.not_false,
            Bool.false_eq_true, if_false, if_true]
        have claimed := runIn_claim_eq_ok.mpr ⟨generated, rfl⟩
        rw [Scope.event, ScopeStep.perform, claimed]
        exact .marked plain marked
    · have generated : scope.generate request.rule request.colliding request.core =
          .ok (request.rule.plain request.core) := by
        rw [← blocks, Bool.not_eq_true] at plain
        simp only [Scope.generate, plain, Bool.not_false, if_true]
      have claimed := runIn_claim_eq_ok.mpr ⟨generated, rfl⟩
      rw [Scope.event, ScopeStep.perform, claimed]
      exact .plain plain

/-- An event adds what it hands out to what is taken. -/
theorem Event.Lawful.taken {event : Event} (lawful : event.Lawful) :
    event.after.taken = event.before.taken ++ event.handedOut := by
  cases lawful with
  | plain => rfl
  | marked => rfl
  | refused => exact (List.append_nil _).symm
  | inserted => rfl

/-- A claim that succeeds gets an identifier that is not blocked: the plain one, or the marked one
where the plain one is blocked. -/
theorem Event.Lawful.of_ok {event : Event} (lawful : event.Lawful) {request : NameRequest}
    (claims : event.step = .claim request) {identifier : String}
    (success : event.answer = .ok identifier) :
    ¬ Blocked event.before.taken request.colliding identifier ∧
      (identifier = request.rule.plain request.core ∨
        identifier = request.rule.marked request.core ∧
          Blocked event.before.taken request.colliding (request.rule.plain request.core)) := by
  cases lawful with
  | plain free =>
    cases claims
    cases success
    exact ⟨free, .inl rfl⟩
  | marked blocked free =>
    cases claims
    cases success
    exact ⟨free, .inr ⟨rfl, blocked⟩⟩
  | refused => cases success
  | inserted => cases claims

/-- A claim that fails has no identifier that is not blocked, and changes nothing. -/
theorem Event.Lawful.of_error {event : Event} (lawful : event.Lawful) {request : NameRequest}
    (claims : event.step = .claim request) {error : Error} (failure : event.answer = .error error) :
    event.after = event.before ∧
      Blocked event.before.taken request.colliding (request.rule.plain request.core) ∧
      Blocked event.before.taken request.colliding (request.rule.marked request.core) := by
  cases lawful with
  | plain => cases failure
  | marked => cases failure
  | refused blocked markedBlocked =>
    cases claims
    exact ⟨rfl, blocked, markedBlocked⟩
  | inserted => cases claims

theorem Event.Lawful.of_insert {event : Event} (lawful : event.Lawful) {identifier : String}
    (inserts : event.step = .insert identifier) : event.answer = .ok identifier := by
  cases lawful with
  | plain => cases inserts
  | marked => cases inserts
  | refused => cases inserts
  | inserted =>
    cases inserts
    rfl

/-! ### Histories -/

section

variable {scope : Scope} {steps : List ScopeStep}
  (insensitive : ∀ request, .claim request ∈ steps → request.rule.caseSensitive = false)

include insensitive

/-- Every event of a history is the event of one step. -/
theorem lawful_of_mem_history : ∀ event ∈ scope.history steps, event.Lawful := by
  induction steps generalizing scope with
  | nil => exact fun _ impossible => absurd impossible List.not_mem_nil
  | cons step rest ih =>
    rw [Scope.history, List.forall_mem_cons]
    refine ⟨perform_lawful fun request claims => insensitive request ?_, ih ?_⟩
    · exact claims ▸ List.mem_cons_self ..
    · exact fun request inside => insensitive request (List.mem_cons_of_mem _ inside)

/-- **What is taken before an event** was taken at the start or handed out earlier. -/
theorem taken_before_event {earlier later : List Event} {event : Event}
    (split : scope.history steps = earlier ++ event :: later) :
    event.before.taken = scope.taken ++ earlier.flatMap Event.handedOut := by
  induction steps generalizing scope earlier with
  | nil => exact absurd split.symm (List.append_ne_nil_of_right_ne_nil _ (List.cons_ne_nil _ _))
  | cons step rest ih =>
    have lawful : (scope.event step).Lawful :=
      lawful_of_mem_history insensitive _ (List.mem_cons_self ..)
    rw [Scope.history] at split
    cases earlier with
    | nil =>
      obtain ⟨rfl, -⟩ := List.cons_eq_cons.mp split
      exact (List.append_nil _).symm
    | cons first others =>
      obtain ⟨rfl, tail⟩ := List.cons_eq_cons.mp split
      rw [ih (fun request inside => insensitive request (List.mem_cons_of_mem _ inside)) tail,
        lawful.taken, List.flatMap_cons, List.append_assoc]
      rfl

/-- What is taken after all steps was taken at the start or handed out. -/
theorem taken_afterAll :
    (scope.afterAll steps).taken =
      scope.taken ++ (scope.history steps).flatMap Event.handedOut := by
  induction steps generalizing scope with
  | nil => exact (List.append_nil _).symm
  | cons step rest ih =>
    have lawful : (scope.event step).Lawful :=
      lawful_of_mem_history insensitive _ (List.mem_cons_self ..)
    rw [Scope.afterAll, Scope.history, List.flatMap_cons,
      ih fun request inside => insensitive request (List.mem_cons_of_mem _ inside),
      lawful.taken, List.append_assoc]
    rfl

end

theorem steps_of_history (scope : Scope) (steps : List ScopeStep) :
    (scope.history steps).map Event.step = steps := by
  induction steps generalizing scope with
  | nil => rfl
  | cons step rest ih => rw [Scope.history, List.map_cons, ih, Scope.event]

/-- **No claim gets an identifier that was handed out before.** For every history of claims and
insertions, in which the claims do not regard the case of letters: each step has one event. Before
an event, the identifiers of the start and those handed out earlier are taken, and after all steps
the identifiers of the start and all those handed out. A claim that succeeds gets an identifier that
agrees with none of those taken and has the shape of no colliding rule. It is the plain one, or the
marked one where the plain one is blocked. A claim fails only if both are blocked, and then the scope
stays as it is. An insertion hands out the given identifier. -/
theorem claims_never_repeat (scope : Scope) (steps : List ScopeStep)
    (insensitive : ∀ request, .claim request ∈ steps → request.rule.caseSensitive = false) :
    (scope.history steps).map Event.step = steps ∧
    (scope.afterAll steps).taken =
      scope.taken ++ (scope.history steps).flatMap Event.handedOut ∧
    ∀ earlier event later, scope.history steps = earlier ++ event :: later →
      let taken := scope.taken ++ earlier.flatMap Event.handedOut
      event.before.taken = taken ∧
      (∀ request, event.step = .claim request →
        (∀ identifier, event.answer = .ok identifier →
          (∀ name ∈ taken, fold name ≠ fold identifier) ∧
          (∀ rule ∈ request.colliding, rule.couldProduce identifier = false) ∧
          (identifier = request.rule.plain request.core ∨
            identifier = request.rule.marked request.core ∧
              Blocked taken request.colliding (request.rule.plain request.core))) ∧
        ∀ error, event.answer = .error error →
          event.after = event.before ∧
          Blocked taken request.colliding (request.rule.plain request.core) ∧
          Blocked taken request.colliding (request.rule.marked request.core)) ∧
      ∀ identifier, event.step = .insert identifier → event.answer = .ok identifier := by
  refine ⟨steps_of_history scope steps, taken_afterAll insensitive, ?_⟩
  intro earlier event later split taken
  have before : event.before.taken = taken := taken_before_event insensitive split
  have lawful : event.Lawful := lawful_of_mem_history insensitive event <| by
    rw [split]
    exact List.mem_append_right _ (List.mem_cons_self ..)
  refine ⟨before, ?_, fun identifier inserts => lawful.of_insert inserts⟩
  rw [← before]
  intro request claims
  refine ⟨?_, fun error failure => lawful.of_error claims failure⟩
  intro identifier success
  obtain ⟨free, form⟩ := lawful.of_ok claims success
  refine ⟨?_, ?_, form⟩
  · exact fun name inside same => free (.inl ⟨name, inside, same⟩)
  · exact fun rule inside => Bool.eq_false_iff.mpr fun shaped => free (.inr ⟨rule, inside, shaped⟩)

/-- Claims that yield to a taken name, to a rule and to an insertion, and one that fails. -/
def crowdedSteps : List ScopeStep :=
  [.claim { rule := .property, core := "value" },
   .claim { rule := .property, colliding := [.presence], core := "has_size" },
   .insert "LIMIT",
   .claim { rule := .property, core := "value" },
   .claim { rule := .property, core := "limit" }]

/-- In a scope with one name, four of the five steps hand out an identifier, and no claim repeats
what was there before it. -/
theorem crowded_claims_never_repeat :
    (∀ request, .claim request ∈ crowdedSteps → request.rule.caseSensitive = false) ∧
    ((⟨["VALUE"]⟩ : Scope).history crowdedSteps).map Event.handedOut =
      [["Value_"], ["HasSize_"], ["LIMIT"], [], ["Limit_"]] ∧
    ((⟨["VALUE"]⟩ : Scope).afterAll crowdedSteps).taken =
      ["VALUE", "Value_", "HasSize_", "LIMIT", "Limit_"] ∧
    ∀ earlier event later, (⟨["VALUE"]⟩ : Scope).history crowdedSteps = earlier ++ event :: later →
      ∀ request identifier, event.step = .claim request → event.answer = .ok identifier →
        ∀ name ∈ ["VALUE"] ++ earlier.flatMap Event.handedOut, fold name ≠ fold identifier := by
  have insensitive : ∀ request, .claim request ∈ crowdedSteps →
      request.rule.caseSensitive = false := by
    intro request inside
    simp only [crowdedSteps, List.mem_cons, ScopeStep.claim.injEq, reduceCtorEq, List.not_mem_nil,
      or_false, false_or] at inside
    rcases inside with rfl | rfl | rfl | rfl <;> rfl
  have handed : ((⟨["VALUE"]⟩ : Scope).history crowdedSteps).map Event.handedOut =
      [["Value_"], ["HasSize_"], ["LIMIT"], [], ["Limit_"]] := by
    decide +kernel
  obtain ⟨-, taken, events⟩ := claims_never_repeat ⟨["VALUE"]⟩ crowdedSteps insensitive
  refine ⟨insensitive, handed, ?_, ?_⟩
  · rw [taken, List.flatMap, handed]
    rfl
  · intro earlier event later split request identifier claims success
    exact (((events earlier event later split).2.1 request claims).1 identifier success).1

end ProtoPascal.Naming
