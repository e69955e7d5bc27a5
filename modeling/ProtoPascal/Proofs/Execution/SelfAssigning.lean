import ProtoPascal.Proofs.Execution.Assigning

/-!
What happens when an instance is assigned itself. A field with a message is given a new one before
the old one is copied, so what is copied is the new message. All else stays as it was.

* `renewed`: the machine on which the messages of an instance are new ones;
* `invoke_assign_itself`: an instance that is assigned itself agrees with itself on that machine.
-/

namespace ProtoPascal.Execution

open Message
open Pascal

variable {Content Payload : Type} {program : Program Content Payload} {plan : ClassPlan}
  {library : Library Content Payload} {self : Address}
  {origin machine middle final : Machine Content Payload} {field : FieldPlan}

/-- A new message of the type of a field, after it is assigned itself. -/
def newContent (library : Library Content Payload) (field : FieldPlan) : Content :=
  library.assign (library.create field.support.publicType)
    (library.create field.support.publicType)

/-- The field of an instance that is not repeated and holds the object at an address. -/
def messageAt? (plan : ClassPlan) (self : Address) (machine : Machine Content Payload)
    (address : Address) : Option FieldPlan :=
  plan.fields.find? fun field =>
    !field.field.repeated && decide (stored self machine field = .object address)

/-- The machine on which the messages of an instance are new ones. -/
def renewed (library : Library Content Payload) (plan : ClassPlan) (self : Address)
    (machine : Machine Content Payload) : Machine Content Payload :=
  { machine with
    objects := fun address =>
      match messageAt? plan self machine address with
      | some field => some (newContent library field)
      | none => machine.objects address }

section

variable (owns : Owns plan self machine) (inside : field ∈ plan.fields) {address : Address}
  (holds : stored self machine field = .object address)
include owns inside holds

theorem messageAt?_eq_some (single : field.field.repeated = false) :
    messageAt? plan self machine address = some field := by
  refine find?_eq_some_of_unique inside (by simp [single, holds]) fun other other_inside same => ?_
  rw [Bool.and_eq_true, decide_eq_true_iff] at same
  exact owns.apart other other_inside field inside address same.2 holds

theorem messageAt?_eq_none (repeated : field.field.repeated = true) :
    messageAt? plan self machine address = none := by
  refine List.find?_eq_none.mpr fun other other_inside same => ?_
  rw [Bool.and_eq_true, decide_eq_true_iff, Bool.not_eq_true'] at same
  obtain rfl := owns.apart other other_inside field inside address same.2 holds
  rw [repeated] at same
  cases same.1

end

/-- The messages of an instance are new ones. -/
theorem seen_renewed_message (owns : Owns plan self machine) (inside : field ∈ plan.fields)
    (single : field.field.repeated = false) {content : Option Content}
    (shows : seen machine (stored self machine field) = .content content) :
    seen (renewed library plan self machine) (stored self (renewed library plan self machine) field) =
      .content (some (newContent library field)) := by
  show seen _ (stored self machine field) = _
  cases holds : stored self machine field with
  | object address =>
    refine congrArg Seen.content ?_
    dsimp only [renewed]
    rw [messageAt?_eq_some owns inside holds single]
  | _ =>
    rw [holds] at shows
    cases shows

/-- What an instance holds besides messages stays what it is. -/
theorem seen_renewed_other (owns : Owns plan self machine) (inside : field ∈ plan.fields)
    (other : field.field.repeated = true ∨ ∀ content,
      seen machine (stored self machine field) ≠ .content content) :
    seen (renewed library plan self machine) (stored self (renewed library plan self machine) field) =
      seen machine (stored self machine field) := by
  show seen _ (stored self machine field) = _
  cases holds : stored self machine field with
  | object address =>
    have repeated := other.resolve_right fun plain => plain _ (by rw [holds, seen])
    refine congrArg Seen.content ?_
    dsimp only [renewed]
    rw [messageAt?_eq_none owns inside holds repeated]
  | _ => rfl

theorem Consistent.renewed (consistent : Consistent plan self machine) :
    Consistent plan self (renewed library plan self machine) := by
  have owns := consistent.owns
  have elsewhere : Elsewhere plan self machine (Execution.renewed library plan self machine) := by
    refine ⟨rfl, fun field inside address holds => ?_, fun address alive => ?_⟩
    · dsimp only [Execution.renewed]
      split
      · rfl
      · exact owns.object_alive inside holds
    · dsimp only [Execution.renewed] at alive ⊢
      split at alive
      · next field found =>
        have held := List.find?_some found
        rw [Bool.and_eq_true, decide_eq_true_iff] at held
        exact owns.object_below (List.mem_of_find?_eq_some found) held.2
      · exact owns.below address alive
  exact elsewhere.consistent consistent

section

variable (implements : Implements program.code plan) (origin_consistent : Consistent plan self origin)
  (collections : ∀ field ∈ plan.fields, field.field.repeated = true → ∀ content,
    seen origin (stored self origin field) = .content (some content) →
      program.library.assign content content = content)
include implements origin_consistent collections

/-- **A field takes over what it has, but a new message instead of the one that it holds.** -/
theorem execAll_assignBody_itself (inside : field ∈ plan.fields)
    (consistent : Consistent plan self machine) (filled : Filled plan self machine)
    (same : Copied plan self origin self machine field) :
    ∃ final, Completes program 3 field.assignBody (argumentFrame self "aSource" (.object self))
        machine final ∧
        Takes plan self (renewed program.library plan self origin) self field machine final := by
  have wellFormed := implements.wellFormed
  have origin_owns := origin_consistent.owns
  cases repeated : field.field.repeated with
  | true =>
    obtain ⟨before, content, final, shows, again, ran, receives, after, -⟩ :=
      execAll_assignCollection implements inside repeated ⟨consistent, filled⟩ ⟨consistent, filled⟩
    obtain rfl : before = content := by
      rw [shows] at again
      exact Option.some.inj (Seen.content.inj again)
    have origin_shows := same.same.trans shows
    rw [collections field inside repeated before origin_shows] at after
    have present : Present plan self origin field :=
      present_of_collection wellFormed inside repeated origin_shows
    refine ⟨final, ran, .value receives present ?_ fun _ nil => ?_⟩
    · rw [seen_renewed_other origin_owns inside (.inl repeated), origin_shows, after]
    · rw [nil] at after
      cases after
  | false =>
    by_cases present : Present plan self machine field
    · have origin_present : Present plan self (renewed program.library plan self origin) field :=
        same.present_iff.mp present
      cases message : field.field.type.isMessage with
      | true =>
        obtain ⟨address, content, holds, alive⟩ := present.object wellFormed inside consistent message
        obtain ⟨final, ran, receives, after, -⟩ := execAll_deepCopy implements inside self message
          consistent fun middle stores alive _ => ⟨machine.fresh, stores, alive⟩
        refine ⟨final, completes_assignBody implements inside repeated consistent (fun _ => ?_)
          (absurd present), .value receives origin_present ?_ (by simp [repeated])⟩
        · rw [message]
          exact ran
        · rw [after]
          have shows : seen origin (stored self origin field) = .content (some content) := by
            rw [same.same, holds, seen, alive]
          exact seen_renewed_message origin_owns inside repeated shows
      | false =>
        obtain ⟨final, ran, receives, stores, -⟩ :=
          execAll_valueCopy implements inside message repeated consistent consistent.owns
        have plain := consistent.owns.plain inside repeated message
        have shows := same.same
        rw [seen_of_ne_object plain] at shows
        refine ⟨final, completes_assignBody implements inside repeated consistent (fun _ => ?_)
          (absurd present), .value receives origin_present ?_ (by simp [repeated])⟩
        · rw [message]
          exact ran
        · rw [stores, seen_of_ne_object plain, seen_renewed_other origin_owns inside (.inr ?_), shows]
          intro content impossible
          rw [shows] at impossible
          cases impossible
    · have start : Consistent plan (argumentFrame self "aSource" (.object self)).self machine :=
        consistent
      obtain ⟨final, ran, unmarks⟩ := exec_unmark implements inside repeated start
      exact ⟨final, completes_assignBody implements inside repeated consistent (absurd · present)
        fun _ => ran.deeper, .absence unmarks repeated fun impossible =>
          present (same.present_iff.mpr impossible)⟩

/-- **All fields take over what they have, but new messages**, one after the other. -/
theorem execAll_assign_itself (filled : Filled plan self origin) :
    ∃ final, Completes program 3 (plan.concatFields FieldPlan.assignBody)
      (argumentFrame self "aSource" (.object self)) origin final ∧
        AgreesBut plan self (renewed program.library plan self origin) self [] final := by
  have wellFormed := implements.wellFormed
  obtain ⟨final, ran, -, -, agrees⟩ := completes_flatMap
    (fun rest now => rest.Nodup ∧ (∀ field ∈ rest, Copied plan self origin self now field) ∧
      AgreesBut plan self (renewed program.library plan self origin) self rest now)
    (fun field rest now ⟨once, same, before⟩ => by
      obtain ⟨missing, rest_once⟩ := List.nodup_cons.mp once
      obtain ⟨middle, ran, takes⟩ := execAll_assignBody_itself implements origin_consistent
        collections (before.inside (List.mem_cons_self ..)) before.consistent before.filled
        (same field (List.mem_cons_self ..))
      have reads := takes.reads wellFormed origin_consistent.renewed before.consistent before.filled
      refine ⟨middle, ran, rest_once, fun other later => ?_, before.next reads⟩
      -- The fields that follow are still what they were.
      have later_inside := List.mem_cons_of_mem field later
      exact takes.keeps_copied wellFormed origin_consistent Iff.rfl (before.inside later_inside)
        (fun equal => missing (equal ▸ later)) (same other later_inside))
    ⟨fields_nodup wellFormed, fun _ _ => .refl, List.Subset.refl plan.fields, origin_consistent,
      filled, fun _ => .inl⟩
  exact ⟨final, ran, agrees⟩

/-- **An instance that is assigned itself has new messages, and all else as it was.** -/
theorem invoke_assign_itself (filled : Filled plan self origin) :
    ∃ final, (∀ depth, (invokeMethod program (depth + 5) self "Assign" [.object self]).on origin =
      (.ok .nil, final)) ∧ Consistent plan self final ∧ Filled plan self final ∧
        ∀ field ∈ plan.fields,
          Copied plan self (renewed program.library plan self origin) self final field := by
  obtain ⟨final, ran, agrees⟩ := execAll_assign_itself implements origin_consistent collections filled
  exact ⟨final, invoke_assign_of_exec implements ran, agrees.consistent, agrees.filled,
    fun field inside => (agrees.copied field inside).resolve_left List.not_mem_nil⟩

end

end ProtoPascal.Execution
