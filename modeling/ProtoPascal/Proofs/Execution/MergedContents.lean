import ProtoPascal.Proofs.Execution.Family
import ProtoPascal.Proofs.Execution.Merging

/-!
What is seen of a message after another one was merged into it, with all that is in it. Elements of
collections are appended, messages that both have are merged in turn, and otherwise a field takes
over what the other message has for it. What counts for a member of a oneof is whether the oneof of
the other message selects anything.

* `Snapshot.merged`: the content of a message into which another one is merged;
* `Family.Joined`: the library merges messages as the generated code does;
* `Family.Linked.exists_merged`: an instance into which another one is merged has this content, if the
  library merges the messages in the other one so;
* `Family.Joined.absorbs`: and so it does.
-/

namespace ProtoPascal.Execution

open Message

variable {Class Element Payload : Type}

/-! ### Contents -/

/-- The case of the oneof of a member, among the cases of a message. -/
def caseOf? (plan : ClassPlan) (cases : List Value) (membership : Membership) : Option Value :=
  ((plan.oneofs.zip cases).find? fun entry =>
    entry.1.names.backing == membership.oneof.backing).map Prod.snd

/-- Whether a message with certain cases has nothing for a field: the value that stands for absence,
or, for a member of a oneof, no selected member at all. -/
def lacks {Content : Type} (plan : ClassPlan) (cases : List Value) (field : FieldPlan)
    (other : Seen Content) : Bool :=
  match field.membership, other with
  | some membership, _ =>
    decide (caseOf? plan cases membership = some (.enumeration membership.oneof.caseType 0))
  | none, .value value => decide (value = absent field)
  | none, .content _ => false

mutual

/-- What is seen of a message or of a collection into which another one is merged. -/
def Snapshot.merged (plan : Class → ClassPlan) :
    Snapshot Class Element → Snapshot Class Element → Snapshot Class Element
  | .message type fields cases, .message _ others choices =>
    .message type (Snapshot.mergedFields plan (plan type) choices (plan type).fields fields others)
      (((plan type).oneofs.zip (cases.zip choices)).map fun (oneof, before, choice) =>
        if choice = caseAt oneof 0 then before else choice)
  | .collection elements, .collection others => .collection (elements ++ others)
  | before, _ => before

/-- What is seen of fields into which those of a message with certain cases are merged. -/
def Snapshot.mergedFields (plan : Class → ClassPlan) (own : ClassPlan) (choices : List Value) :
    List FieldPlan → List (Seen (Snapshot Class Element)) → List (Seen (Snapshot Class Element)) →
      List (Seen (Snapshot Class Element))
  | field :: rest, before :: olds, other :: others =>
    Snapshot.mergedField plan own choices field before other ::
      Snapshot.mergedFields plan own choices rest olds others
  | _, _, _ => []

/-- What is seen of a field into which that of a message with certain cases is merged. -/
def Snapshot.mergedField (plan : Class → ClassPlan) (own : ClassPlan) (choices : List Value)
    (field : FieldPlan) :
    Seen (Snapshot Class Element) → Seen (Snapshot Class Element) → Seen (Snapshot Class Element)
  | .content (some before), .content (some content) =>
    .content (some (Snapshot.merged plan before content))
  | before, other => if lacks own choices field other then before else other

end

section

variable {plan : Class → ClassPlan} {own : ClassPlan} {choices : List Value} {field : FieldPlan}

theorem mergedFields_map (fields : List FieldPlan)
    (before other : FieldPlan → Seen (Snapshot Class Element)) :
    Snapshot.mergedFields plan own choices fields (fields.map before) (fields.map other) =
      fields.map fun field =>
        Snapshot.mergedField plan own choices field (before field) (other field) := by
  induction fields with
  | nil => rw [List.map_nil, List.map_nil, List.map_nil, Snapshot.mergedFields]; simp
  | cons field rest ih =>
    rw [List.map_cons, List.map_cons, List.map_cons, Snapshot.mergedFields, ih]

/-- Unless a field holds an object before, the other message decides what is seen of it. -/
theorem mergedField_of_value (value : Value) (other : Seen (Snapshot Class Element)) :
    Snapshot.mergedField plan own choices field (.value value) other =
      if lacks own choices field other then .value value else other := by
  rw [Snapshot.mergedField]
  simp

/-- What is seen of a field for which the other message holds no object. -/
theorem mergedField_value (before : Seen (Snapshot Class Element)) (value : Value) :
    Snapshot.mergedField plan own choices field before (.value value) =
      if lacks own choices field (.value value : Seen (Snapshot Class Element)) then before
      else .value value := by
  rw [Snapshot.mergedField]
  simp

end

section

variable {Content : Type} {plan : ClassPlan} (wellFormed : plan.WellFormed) {oneof : OneofPlan}
  (inside : oneof ∈ plan.oneofs) {field : FieldPlan} {position : Nat}
  (found : memberAt oneof position = some field)
include wellFormed inside

theorem caseOf?_map (choice : OneofPlan → Value) (caseValue : String) :
    caseOf? plan (plan.oneofs.map choice) ⟨oneof.names, caseValue⟩ = some (choice oneof) := by
  have unique : plan.oneofs.find? (fun other =>
      other.names.backing == oneof.names.backing) = some oneof := by
    refine find?_eq_some_of_unique inside (beq_self_eq_true _) fun other other_inside same => ?_
    by_contra different
    exact oneof_backing_ne wellFormed other_inside inside different (beq_iff_eq.mp same)
  rw [caseOf?, ← List.map_prod_left_eq_zip, List.find?_map]
  simp only [Function.comp_def, unique, Option.map_some]

include found in
/-- A message has nothing for a member if its oneof selects nothing. -/
theorem lacks_member (choice : OneofPlan → Value) (other : Seen Content) :
    lacks plan (plan.oneofs.map choice) field other = decide (choice oneof = caseAt oneof 0) := by
  cases position with
  | zero => cases found
  | succ position =>
    obtain ⟨-, value, -, membership, -⟩ := wellFormed.member oneof inside position field found
    simp only [lacks, membership, caseOf?_map wellFormed inside choice, Option.some.injEq]
    rfl

end

section

variable {Content Payload : Type} {plan : ClassPlan} {field : FieldPlan}

theorem lacks_value {cases : List Value} (outside : field.membership = none) (value : Value) :
    lacks plan cases field (.value value : Seen Content) = decide (value = absent field) := by
  simp only [lacks, outside]

theorem lacks_content {cases : List Value} (outside : field.membership = none)
    (content : Option Content) : lacks plan cases field (.content content) = false := by
  simp only [lacks, outside]

/-- An instance has nothing for a field: neither the field itself nor another member of its oneof. -/
structure Idle (plan : ClassPlan) (source : Address) (machine : Machine Content Payload)
    (field : FieldPlan) : Prop where
  gone : ¬ Present plan source machine field
  unselected : ∀ oneof ∈ plan.oneofs, ∀ index, memberAt oneof index = some field →
    Selects source machine oneof 0

section

variable (wellFormed : plan.WellFormed) {source : Address} {machine : Machine Content Payload}
include wellFormed

theorem Idle.ofOutside (outside : field.membership = none)
    (gone : ¬ Present plan source machine field) : Idle plan source machine field :=
  ⟨gone, fun _ inside _ found =>
    absurd rfl (memberAt_ne_of_outside wellFormed outside inside found)⟩

theorem Idle.ofMember {oneof : OneofPlan} (inside : oneof ∈ plan.oneofs) {position : Nat}
    (found : memberAt oneof position = some field) (selects : Selects source machine oneof 0) :
    Idle plan source machine field := by
  refine ⟨?_, fun other other_inside index other_found => ?_⟩
  · rw [present_iff_of_member wellFormed inside found selects]
    rintro rfl
    cases found
  · obtain ⟨rfl, -⟩ := memberAt_unique wellFormed inside other_inside found other_found
    exact selects

theorem Idle.lacks (inside : field ∈ plan.fields) (idle : Idle plan source machine field) :
    lacks plan (plan.oneofs.map fun oneof => machine.fields source oneof.names.backing) field
      (.value (absent field) : Seen Content) = true := by
  rcases outside_or_member wellFormed inside with outside | ⟨oneof, oneof_inside, position, found⟩
  · rw [lacks_value outside, decide_eq_true rfl]
  · rw [lacks_member wellFormed oneof_inside found,
      (idle.unselected oneof oneof_inside position found).backing, decide_eq_true rfl]

theorem Present.not_lacks (inside : field ∈ plan.fields)
    (consistent : Consistent plan source machine) (present : Present plan source machine field) :
    lacks plan (plan.oneofs.map fun oneof => machine.fields source oneof.names.backing) field
      (seen machine (stored source machine field)) = false := by
  rcases outside_or_member wellFormed inside with outside | ⟨oneof, oneof_inside, position, found⟩
  · cases shows : seen machine (stored source machine field) with
    | content content => exact lacks_content outside content
    | value value =>
      rw [lacks_value outside, decide_eq_false_iff_not]
      rintro rfl
      have gone : seen machine (stored source machine field) = seen machine (absent field) :=
        shows.trans (seen_of_ne_object (absent_ne_object field)).symm
      exact (present_iff_of_outside outside).mp present
        (eq_of_seen_eq (absent_ne_object field) gone)
  · have selects := present.selects wellFormed oneof_inside found consistent
    rw [lacks_member wellFormed oneof_inside found, decide_eq_false_iff_not, selects.backing,
      caseAt_inj]
    rintro rfl
    cases found

end

end

section

variable {Content Payload : Type} {plan : ClassPlan} {self : Address}
  {machine : Machine Content Payload} {field : FieldPlan}

theorem Owns.exists_content (owns : Owns plan self machine) (inside : field ∈ plan.fields)
    {found : Option Content} (shows : seen machine (stored self machine field) = .content found) :
    ∃ content, found = some content := by
  cases holds : stored self machine field with
  | object address =>
    obtain ⟨content, alive⟩ := Option.isSome_iff_exists.mp (owns.object_alive inside holds)
    rw [holds, seen, alive] at shows
    exact ⟨content, (Seen.content.inj shows).symm⟩
  | _ =>
    rw [holds] at shows
    cases shows

theorem Sound.exists_collection (sound : Sound plan self machine) (inside : field ∈ plan.fields)
    (repeated : field.field.repeated = true) :
    ∃ content, seen machine (stored self machine field) = .content (some content) := by
  obtain ⟨address, content, holds, found⟩ := sound.collection inside repeated
  exact ⟨content, by rw [holds, seen, found]⟩

end

namespace Family

variable {family : Family Class Element Payload} {type : Class} {source target : Address}
  {machine final : Machine (Snapshot Class Element) Payload} {field : FieldPlan}

/-- The library also merges messages as the code of their classes does, and collections as lists. -/
structure Joined (family : Family Class Element Payload) : Prop extends family.Linked where
  merge : ∀ user type machine target source final, target ≠ source →
    family.Intact type target machine → family.Intact type source machine →
    Separate (family.plan type) target source machine →
    Settles (callMethod (family.program type) target "MergeFrom" [.object source]) machine (.ok ())
      final →
    (family.library user).merge (family.snapshot type target machine)
      (family.snapshot type source machine) = family.snapshot type target final
  mergeCollection : ∀ type before elements,
    (family.library type).merge (.collection before) (.collection elements) =
      .collection (before ++ elements)

/-- The library merges a message of a class into others as `Snapshot.merged` says. -/
def Absorbs (family : Family Class Element Payload) (user type : Class)
    (content : Snapshot Class Element) : Prop :=
  ∀ before, family.Proper type before →
    (family.library user).merge before content = before.merged family.plan content ∧
      family.Proper type (before.merged family.plan content)

/-- What is seen of a field of an instance after that of another one was merged into it. -/
def mergedAt (family : Family Class Element Payload) (type : Class) (target source : Address)
    (machine : Machine (Snapshot Class Element) Payload) (field : FieldPlan) :
    Seen (Snapshot Class Element) :=
  Snapshot.mergedField family.plan (family.plan type)
    ((family.plan type).oneofs.map fun oneof => machine.fields source oneof.names.backing) field
    (seen machine (stored target machine field)) (seen machine (stored source machine field))

section

variable (inside : field ∈ (family.plan type).fields)
  (consistent : Consistent (family.plan type) source machine)
include inside consistent

/-- A field for which the other instance has nothing stays what it is. -/
theorem mergedAt_of_idle (idle : Idle (family.plan type) source machine field) :
    family.mergedAt type target source machine field =
      seen machine (stored target machine field) := by
  have wellFormed := (family.implements type).wellFormed
  rw [mergedAt, stored_of_gone wellFormed inside consistent idle.gone,
    seen_of_ne_object (absent_ne_object field), mergedField_value, idle.lacks wellFormed inside,
    if_pos rfl]

/-- A field takes over what the other instance has, unless both have an object. -/
theorem mergedAt_of_alone (present : Present (family.plan type) source machine field)
    (alone : (∃ value, seen machine (stored target machine field) = .value value) ∨
      ∃ value, seen machine (stored source machine field) = .value value) :
    family.mergedAt type target source machine field =
      seen machine (stored source machine field) := by
  have has := present.not_lacks (family.implements type).wellFormed inside consistent
  rcases alone with ⟨value, shows⟩ | ⟨value, shows⟩
  · rw [mergedAt, shows, mergedField_of_value, has, if_neg Bool.false_ne_true]
  · rw [shows] at has
    rw [mergedAt, shows, mergedField_value, has, if_neg Bool.false_ne_true]

end

theorem mergedAt_of_both {before content : Snapshot Class Element}
    (shows : seen machine (stored target machine field) = .content (some before))
    (source_shows : seen machine (stored source machine field) = .content (some content)) :
    family.mergedAt type target source machine field =
      .content (some (before.merged family.plan content)) := by
  rw [mergedAt, shows, source_shows, Snapshot.mergedField]

/-- An instance has the content of one into which another one was merged if its fields and the cases
of its oneofs say so. -/
theorem snapshot_eq_merged_iff :
    family.snapshot type target final = Snapshot.merged family.plan
        (family.snapshot type target machine) (family.snapshot type source machine) ↔
      (∀ field ∈ (family.plan type).fields,
        seen final (stored target final field) = family.mergedAt type target source machine field) ∧
      ∀ oneof ∈ (family.plan type).oneofs, final.fields target oneof.names.backing =
        if machine.fields source oneof.names.backing = caseAt oneof 0
        then machine.fields target oneof.names.backing
        else machine.fields source oneof.names.backing := by
  rw [snapshot, snapshot, snapshot, Snapshot.merged, mergedFields_map, List.zip_map',
    ← List.map_prod_left_eq_zip, List.map_map, Snapshot.message.injEq, List.map_inj_left,
    List.map_inj_left]
  exact and_iff_right rfl

/-! ### Merging an instance -/

section

variable (linked : family.Linked)
  (appends : ∀ before elements, (family.library type).merge (.collection before)
    (.collection elements) = .collection (before ++ elements))
  (target_intact : family.Intact type target machine)
  (source_intact : family.Intact type source machine)

/-- What has to be known of the messages that the source holds: how the library merges them. -/
def Absorbed (family : Family Class Element Payload) (type : Class) (source : Address)
    (machine : Machine (Snapshot Class Element) Payload) (field : FieldPlan) : Prop :=
  field.field.repeated = false → ∀ content,
    seen machine (stored source machine field) = .content (some content) → ∀ typeName,
      field.field.type = .reference .message typeName →
        family.Absorbs type (family.classOf typeName) content

include linked appends target_intact source_intact in
/-- The library merges a field as `Snapshot.merged` says, if the source has it. -/
theorem Linked.library_merged (inside : field ∈ (family.plan type).fields)
    (present : Present (family.plan type) source machine field)
    (absorbed : family.Absorbed type source machine field) :
    (family.library type).merged field (seen machine (stored target machine field))
        (seen machine (stored source machine field)) =
      family.mergedAt type target source machine field := by
  have consistent := source_intact.sound.consistent
  cases shows : seen machine (stored source machine field) with
  | value value =>
    rw [mergedAt_of_alone inside consistent present (.inr ⟨value, shows⟩), Library.merged_value,
      shows]
  | content found =>
    obtain ⟨content, rfl⟩ := consistent.owns.exists_content inside shows
    cases before_shows : seen machine (stored target machine field) with
    | value value =>
      -- Only messages can be missing, so a new one is made that the content is assigned to.
      have single : field.field.repeated = false := by
        by_contra repeated
        rw [Bool.not_eq_false] at repeated
        obtain ⟨before, holds⟩ := target_intact.sound.exists_collection inside repeated
        rw [holds] at before_shows
        cases before_shows
      obtain ⟨typeName, reference⟩ := exists_reference consistent.owns inside single shows
      rw [mergedAt_of_alone inside consistent present (.inl ⟨value, before_shows⟩), shows]
      refine congrArg (Seen.content ∘ some) ?_
      rw [linked.create_eq inside single reference]
      exact linked.assign_eq (source_intact.message inside shows single reference) type
        (linked.proper_blank _)
    | content before_found =>
      obtain ⟨before, rfl⟩ :=
        target_intact.sound.consistent.owns.exists_content inside before_shows
      rw [mergedAt_of_both before_shows shows, Library.merged]
      refine congrArg (Seen.content ∘ some) ?_
      cases repeated : field.field.repeated with
      | true =>
        obtain ⟨elements, rfl⟩ := target_intact.collection inside before_shows repeated
        obtain ⟨others, rfl⟩ := source_intact.collection inside shows repeated
        rw [appends, Snapshot.merged]
      | false =>
        obtain ⟨typeName, reference⟩ := exists_reference consistent.owns inside repeated shows
        exact (absorbed repeated content shows typeName reference before
          (target_intact.message inside before_shows repeated reference)).1

include target_intact source_intact in
/-- A field that is merged holds a collection if it is repeated, and else a message of its type. -/
theorem mergedAt_content (inside : field ∈ (family.plan type).fields)
    (absorbed : family.Absorbed type source machine field) {content : Snapshot Class Element}
    (shows : family.mergedAt type target source machine field = .content (some content)) :
    (field.field.repeated = true → ∃ elements, content = .collection elements) ∧
      (field.field.repeated = false → ∀ typeName, field.field.type = .reference .message typeName →
        family.Proper (family.classOf typeName) content) := by
  have taken {owner : Address} (intact : family.Intact type owner machine)
      (holds : seen machine (stored owner machine field) = .content (some content)) :
      (field.field.repeated = true → ∃ elements, content = .collection elements) ∧
        (field.field.repeated = false → ∀ typeName,
          field.field.type = .reference .message typeName →
            family.Proper (family.classOf typeName) content) :=
    ⟨intact.collection inside holds, fun single _ => intact.message inside holds single⟩
  rw [mergedAt] at shows
  cases before_shows : seen machine (stored target machine field) with
  | value value =>
    rw [before_shows, mergedField_of_value] at shows
    split at shows
    · cases shows
    · exact taken source_intact shows
  | content before_found =>
    cases other_shows : seen machine (stored source machine field) with
    | value value =>
      rw [other_shows, mergedField_value] at shows
      split at shows
      · exact taken target_intact shows
      · cases shows
    | content other_found =>
      obtain ⟨before, rfl⟩ :=
        target_intact.sound.consistent.owns.exists_content inside before_shows
      obtain ⟨other, rfl⟩ := source_intact.sound.consistent.owns.exists_content inside other_shows
      rw [← mergedAt, mergedAt_of_both before_shows other_shows, Seen.content.injEq,
        Option.some.injEq] at shows
      subst shows
      refine ⟨fun repeated => ?_, fun single typeName reference => ?_⟩
      · obtain ⟨elements, rfl⟩ := target_intact.collection inside before_shows repeated
        obtain ⟨others, rfl⟩ := source_intact.collection inside other_shows repeated
        exact ⟨elements ++ others, by rw [Snapshot.merged]⟩
      · exact (absorbed single other other_shows typeName reference before
          (target_intact.message inside before_shows single reference)).2

variable (sound : Sound (family.plan type) target final)
  (gains : ∀ field ∈ (family.plan type).fields, Present (family.plan type) source machine field →
    Gains (family.library type) (family.plan type) source machine target machine final field)
  (copied : ∀ other ∈ (family.plan type).fields,
    (∀ field ∈ (family.plan type).fields, Present (family.plan type) source machine field →
      Unrelated (family.plan type) field other) →
        Copied (family.plan type) target machine target final other)

include source_intact copied in
theorem copied_of_idle (inside : field ∈ (family.plan type).fields)
    (idle : Idle (family.plan type) source machine field) :
    Copied (family.plan type) target machine target final field := by
  refine copied field inside fun other _ present => ⟨?_, fun oneof oneof_inside position found => ?_⟩
  · rintro rfl
    exact idle.gone present
  · intro index field_found
    have selects := present.selects (family.implements type).wellFormed oneof_inside found
      source_intact.sound.consistent
    obtain rfl : position = 0 := caseAt_inj.mp
      (selects.backing.symm.trans (idle.unselected oneof oneof_inside index field_found).backing)
    cases found

include sound gains in
/-- A oneof comes to select what it selects in the source. -/
theorem selects_of_gains {oneof : OneofPlan} (inside : oneof ∈ (family.plan type).oneofs)
    {position : Nat} (selects : Selects source machine oneof position) (chosen : position ≠ 0) :
    Selects target final oneof position := by
  have wellFormed := (family.implements type).wellFormed
  obtain ⟨member, found⟩ : ∃ member, memberAt oneof position = some member := by
    rw [← Option.ne_none_iff_exists']
    exact fun missing => chosen (eq_zero_of_memberAt selects.bound missing)
  have present := (present_iff_of_member wellFormed inside found selects).mpr rfl
  obtain ⟨current, final_selects⟩ := sound.consistent.selects oneof inside
  have backing := (gains member (memberAt_mem wellFormed inside found) present).chosen oneof inside
    position found
  obtain rfl := caseAt_inj.mp (final_selects.backing.symm.trans backing)
  exact final_selects

include linked appends target_intact source_intact sound gains copied in
/-- **A field is merged with that of the source.** -/
theorem Linked.seen_merged (inside : field ∈ (family.plan type).fields)
    (absorbed : family.Absorbed type source machine field) :
    seen final (stored target final field) = family.mergedAt type target source machine field := by
  have wellFormed := (family.implements type).wellFormed
  have consistent := source_intact.sound.consistent
  by_cases present : Present (family.plan type) source machine field
  · exact (gains field inside present).same.trans
      (linked.library_merged appends target_intact source_intact inside present absorbed)
  by_cases idle : Idle (family.plan type) source machine field
  · exact (copied_of_idle source_intact copied inside idle).same.symm.trans
      (mergedAt_of_idle inside consistent idle).symm
  -- What remains is a member of a oneof of which the source selects another member.
  rcases outside_or_member wellFormed inside with outside | ⟨oneof, oneof_inside, position, found⟩
  · exact absurd (.ofOutside wellFormed outside present) idle
  · obtain ⟨current, selects⟩ := consistent.selects oneof oneof_inside
    have chosen : current ≠ 0 := by
      rintro rfl
      exact idle (.ofMember wellFormed oneof_inside found selects)
    have different : position ≠ current := fun same =>
      present ((present_iff_of_member wellFormed oneof_inside found selects).mpr same.symm)
    have after := (selects_of_gains sound gains oneof_inside selects chosen).unselected position
      field found different
    rw [mergedAt, selects.unselected position field found different, after,
      seen_of_ne_object (absent_ne_object field), seen_of_ne_object (absent_ne_object field),
      mergedField_value, lacks_member wellFormed oneof_inside found, selects.backing,
      decide_eq_false (caseAt_inj.not.mpr chosen), if_neg Bool.false_ne_true]

include target_intact source_intact sound gains copied in
/-- **A oneof selects what it selects in the source**, if it selects anything there. -/
theorem case_merged {oneof : OneofPlan} (inside : oneof ∈ (family.plan type).oneofs) :
    final.fields target oneof.names.backing =
      if machine.fields source oneof.names.backing = caseAt oneof 0
      then machine.fields target oneof.names.backing
      else machine.fields source oneof.names.backing := by
  have wellFormed := (family.implements type).wellFormed
  obtain ⟨position, source_selects⟩ := source_intact.sound.consistent.selects oneof inside
  by_cases idle : position = 0
  · subst idle
    obtain ⟨before, selects⟩ := target_intact.sound.consistent.selects oneof inside
    obtain ⟨after, final_selects⟩ := sound.consistent.selects oneof inside
    obtain rfl : before = after := by
      refine position_eq_of_members inside (fun index member found => ?_) selects final_selects
      exact copied_of_idle source_intact copied (memberAt_mem wellFormed inside found)
        (.ofMember wellFormed inside found source_selects)
    rw [source_selects.backing, if_pos rfl, final_selects.backing, selects.backing]
  · rw [source_selects.backing, if_neg (caseAt_inj.not.mpr idle),
      (selects_of_gains sound gains inside source_selects idle).backing]

end

/-- **Merging an instance into another one gives what `Snapshot.merged` says**, if the messages in
the source are merged so. -/
theorem Linked.exists_merged (linked : family.Linked)
    (appends : ∀ before elements, (family.library type).merge (.collection before)
      (.collection elements) = .collection (before ++ elements)) (different : target ≠ source)
    (target_intact : family.Intact type target machine)
    (source_intact : family.Intact type source machine)
    (separate : Separate (family.plan type) target source machine)
    (absorbed : ∀ field ∈ (family.plan type).fields, family.Absorbed type source machine field) :
    ∃ final,
      Settles (callMethod (family.program type) target "MergeFrom" [.object source]) machine (.ok ())
        final ∧
      family.Intact type target final ∧
      family.snapshot type target final = Snapshot.merged family.plan
        (family.snapshot type target machine) (family.snapshot type source machine) ∧
      Unchanged (family.plan type) source machine final ∧
      Separate (family.plan type) target source final := by
  obtain ⟨final, ran, handles, gains, copied⟩ := invoke_merge (family.implements type)
    different.symm target_intact.sound source_intact.sound separate
  obtain ⟨unchanged, still_separate⟩ :=
    handles.unchanged different.symm source_intact.sound.consistent.owns separate
  have sound := handles.sound
  have fields : ∀ field ∈ (family.plan type).fields, seen final (stored target final field) =
      family.mergedAt type target source machine field := fun field inside =>
    linked.seen_merged appends target_intact source_intact sound gains copied inside
      (absorbed field inside)
  refine ⟨final, settles_callMethod 5 ran, ⟨sound, .message sound ?_ ?_⟩,
    snapshot_eq_merged_iff.mpr ⟨fields, fun oneof inside =>
      case_merged target_intact source_intact sound gains copied inside⟩, unchanged, still_separate⟩
  · intro field inside repeated content shows
    exact (mergedAt_content target_intact source_intact inside (absorbed field inside)
      ((fields field inside).symm.trans shows)).1 repeated
  · intro field inside single content shows
    exact (mergedAt_content target_intact source_intact inside (absorbed field inside)
      ((fields field inside).symm.trans shows)).2 single

/-- **The library merges messages as `Snapshot.merged` says**, if it does with the content of an
instance what merging does with the instance. The induction is on the messages in the one that is
merged. -/
theorem Linked.absorbs (linked : family.Linked)
    (appends : ∀ type before elements, (family.library type).merge (.collection before)
      (.collection elements) = .collection (before ++ elements))
    (agrees : ∀ user type machine target source final, target ≠ source →
      family.Intact type target machine → family.Intact type source machine →
      Separate (family.plan type) target source machine →
      Settles (callMethod (family.program type) target "MergeFrom" [.object source]) machine
        (.ok ()) final →
      family.snapshot type target final = Snapshot.merged family.plan
        (family.snapshot type target machine) (family.snapshot type source machine) →
      (family.library user).merge (family.snapshot type target machine)
        (family.snapshot type source machine) = family.snapshot type target final)
    {content : Snapshot Class Element} (proper : family.Proper type content) (user : Class) :
    family.Absorbs user type content := by
  induction proper generalizing user with
  | @message type self machine sound collections messages ih =>
    intro before before_proper
    have whole : family.Proper type (family.snapshot type self machine) :=
      .message sound collections messages
    obtain ⟨both, target, source, separate, target_same, same⟩ :=
      before_proper.exists_beside whole
    have absorbed : ∀ field ∈ (family.plan type).fields, family.Absorbed type 1 both field := by
      intro field inside single content shows typeName reference
      rw [(copied_of_snapshot_eq same inside).same] at shows
      exact ih field inside single content shows typeName reference type
    obtain ⟨final, settles, intact, merged, -⟩ :=
      linked.exists_merged (appends type) Nat.zero_ne_one target source separate absorbed
    rw [← target_same, ← same, agrees user type both 0 1 final Nat.zero_ne_one target source separate
      settles merged, ← merged]
    exact ⟨rfl, intact.proper⟩

theorem Joined.absorbs (joined : family.Joined) {content : Snapshot Class Element}
    (proper : family.Proper type content) (user : Class) : family.Absorbs user type content :=
  joined.toLinked.absorbs joined.mergeCollection
    (fun user type machine target source final different target_intact source_intact separate
      settles _ => joined.merge user type machine target source final different target_intact
        source_intact separate settles) proper user

end Family

end ProtoPascal.Execution
