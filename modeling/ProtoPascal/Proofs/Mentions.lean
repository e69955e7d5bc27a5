import ProtoPascal.Message.Lifecycle

/-!
What method bodies mention: members of the class by their names alone, and types. A name after a dot
belongs to the object before it and is no mention.

* `FieldPlan.setterBody_mentions`, `FieldPlan.presenceSetterBody_mentions`: what the accessors of a
  field mention that have a parameter;
* `FieldPlan.decodeBody_mentions`, `FieldPlan.mergeBody_mentions`, `FieldPlan.assignBody_mentions`: what
  a field mentions where it is read from a stream or copied from a message;
* `OneofPlan.setterBody_mentions`: what the setter of a case mentions.
-/

namespace ProtoPascal

namespace Pascal

/-! ### Mentions -/

/-- What a body mentions. -/
inductive Mention where
  /-- A member of the class, by its name alone. -/
  | member (name : String)
  | type (text : String)
deriving DecidableEq

mutual

/-- What an expression mentions. -/
@[simp]
def Expr.mentions : Expr → List Mention
  | .own identifier => [.member identifier]
  | .localName _ => []
  | .runtimeObject _ => []
  | .constant _ => []
  | .quoted _ => []
  | .enumValue type _ => [.type type]
  | .member object _ => object.mentions
  | .create type => [.type type]
  | .convert type operand => .type type :: operand.mentions
  | .downcast operand type => .type type :: operand.mentions
  | .builtin _ arguments => Expr.allMentions arguments
  | .callOwn method arguments => .member method :: Expr.allMentions arguments
  | .invoke object _ arguments => object.mentions ++ Expr.allMentions arguments
  | .compare left _ right => left.mentions ++ right.mentions
  | .negate operand => operand.mentions
  | .parenthesized inner => inner.mentions

/-- What a list of expressions mentions. -/
@[simp]
def Expr.allMentions : List Expr → List Mention
  | [] => []
  | expression :: rest => expression.mentions ++ Expr.allMentions rest

end

/-- What an action mentions. -/
@[simp]
def Action.mentions : Action → List Mention
  | .assign target value => target.mentions ++ value.mentions
  | .perform call => call.mentions
  | .inherit _ arguments => Expr.allMentions arguments
  | .raise exceptionType message => .type exceptionType :: message.mentions

mutual

/-- What a statement mentions. -/
@[simp]
def Statement.mentions : Statement Action Expr → List Mention
  | .simple action => action.mentions
  | .ifElse condition thenBranch elseBranch =>
    condition.mentions ++ (Statement.allMentions thenBranch ++ Statement.allMentions elseBranch)
  | .caseOf selector arms => selector.mentions ++ Arm.allMentions arms

/-- What statements mention. -/
@[simp]
def Statement.allMentions : List (Statement Action Expr) → List Mention
  | [] => []
  | statement :: rest => statement.mentions ++ Statement.allMentions rest

/-- What an arm of a case statement mentions. -/
@[simp]
def Arm.mentions : Arm Action Expr → List Mention
  | .arm label body => label.mentions ++ Statement.allMentions body

/-- What the arms of a case statement mention. -/
def Arm.allMentions : List (Arm Action Expr) → List Mention
  | [] => []
  | arm :: rest => arm.mentions ++ Arm.allMentions rest

end

/-- What the body of a method mentions. -/
def Implementation.mentions (implementation : Implementation Action Expr) : List Mention :=
  Statement.allMentions implementation.body

@[simp]
theorem Statement.allMentions_append (left right : List (Statement Action Expr)) :
    Statement.allMentions (left ++ right) =
      Statement.allMentions left ++ Statement.allMentions right := by
  induction left with
  | nil => rfl
  | cons statement rest ih => simp [ih]

/-- The statements that several items contribute mention what those of each item do. -/
@[simp]
theorem Statement.allMentions_flatMap {α : Type} (items : List α)
    (contribute : α → List (Statement Action Expr)) :
    Statement.allMentions (items.flatMap contribute) =
      items.flatMap fun item => Statement.allMentions (contribute item) := by
  induction items with
  | nil => rfl
  | cons item rest ih => simp [ih]

theorem Statement.allMentions_eq (statements : List (Statement Action Expr)) :
    Statement.allMentions statements = statements.flatMap Statement.mentions := by
  induction statements with
  | nil => rfl
  | cons statement rest ih => rw [Statement.allMentions, ih, List.flatMap_cons]

@[simp]
theorem Arm.allMentions_eq (arms : List (Arm Action Expr)) :
    Arm.allMentions arms = arms.flatMap Arm.mentions := by
  induction arms with
  | nil => rfl
  | cons arm rest ih => rw [Arm.allMentions, ih, List.flatMap_cons]

end Pascal

namespace Message

open Pascal

/-! ### Building blocks -/

section

variable (target value object condition : Expr) (method : String) (arguments : List Expr)

@[simp]
theorem assign_mentions : (assign target value).mentions = target.mentions ++ value.mentions := rfl

@[simp]
theorem invoke_mentions :
    (invoke object method arguments).mentions = object.mentions ++ Expr.allMentions arguments := rfl

@[simp]
theorem ifThen_mentions (body : Body) :
    (ifThen condition body).mentions = condition.mentions ++ Statement.allMentions body := by
  simp [ifThen]

@[simp]
theorem inheritCall_mentions :
    (inheritCall method arguments).mentions = Expr.allMentions arguments := rfl

@[simp]
theorem callOwn_mentions :
    (callOwn method arguments).mentions = .member method :: Expr.allMentions arguments := rfl

@[simp]
theorem incomingValue_mentions : incomingValue.mentions = [] := rfl

@[simp]
theorem sourceMessage_mentions : sourceMessage.mentions = [] := rfl

@[simp]
theorem resultValue_mentions : resultValue.mentions = [] := rfl

@[simp]
theorem nilValue_mentions : nilValue.mentions = [] := rfl

@[simp]
theorem trueValue_mentions : trueValue.mentions = [] := rfl

@[simp]
theorem falseValue_mentions : falseValue.mentions = [] := rfl

theorem convertCollection_mentions (type actual : String) :
    (convertCollection type actual value).mentions ⊆ .type type :: value.mentions := by
  unfold convertCollection
  split
  · exact List.subset_cons_self _ _
  · exact List.Subset.refl _

theorem toPublic_mentions (support : TypeSupport) :
    (support.toPublic value).mentions ⊆ .type support.publicType :: value.mentions := by
  unfold TypeSupport.toPublic
  split
  · exact List.Subset.refl _
  · exact List.subset_cons_self _ _

@[simp]
theorem toInternal_mentions (support : TypeSupport) :
    (support.toInternal value).mentions = value.mentions := by
  unfold TypeSupport.toInternal
  split <;> simp

@[simp]
theorem presenceExpression_mentions (support : TypeSupport) :
    (support.presenceExpression value).mentions = value.mentions := by
  unfold TypeSupport.presenceExpression
  split <;> simp

end

/-! ### Fields -/

/-- The types that the code of a field mentions. -/
def FieldPlan.types (plan : FieldPlan) : List String :=
  [plan.publicType, plan.internalType, plan.support.publicType]

/-- What all code of a field can mention: where its value is stored, whether it is present, and its
types. -/
def FieldPlan.storing (plan : FieldPlan) : List Mention :=
  .member plan.names.backing :: ((plan.names.presence.map fun names => .member names.property).toList
    ++ plan.types.map .type)

/-- What the code mentions that gives a field a value by its property. -/
def FieldPlan.copying (plan : FieldPlan) : List Mention :=
  plan.storing ++ if plan.field.repeated then [] else [.member plan.names.property]

/-- What the code mentions that asks for the case of the oneof of a field, or changes it. -/
def FieldPlan.selecting (plan : FieldPlan) : List Mention :=
  match plan.membership with
  | some membership =>
    [.member membership.oneof.backing, .member membership.oneof.property,
     .type membership.oneof.caseType]
  | none => []

section

variable (plan : FieldPlan)

@[simp]
theorem FieldPlan.backing_mentions : plan.backing.mentions = [.member plan.names.backing] := rfl

@[simp]
theorem FieldPlan.property_mentions : plan.property.mentions = [.member plan.names.property] := rfl

@[simp]
theorem FieldPlan.number_mentions : plan.number.mentions = [.member plan.names.numberConstant] := rfl

@[simp]
theorem FieldPlan.has_mentions : plan.has.mentions = [.member plan.presenceName] := rfl

@[simp]
theorem FieldPlan.sourceBacking_mentions : plan.sourceBacking.mentions = [] := rfl

@[simp]
theorem FieldPlan.sourceHas_mentions : plan.sourceHas.mentions = [] := rfl

@[simp]
theorem FieldPlan.codecArgument_mentions : Expr.allMentions plan.codecArgument = [] := by
  unfold FieldPlan.codecArgument
  cases plan.support.wireCodec <;> rfl

@[simp]
theorem FieldPlan.backing_mem_storing : .member plan.names.backing ∈ plan.storing :=
  List.mem_cons_self ..

theorem FieldPlan.type_mem_storing {type : String} (inside : type ∈ plan.types) :
    .type type ∈ plan.storing :=
  List.mem_cons_of_mem _ (List.mem_append_right _ (List.mem_map_of_mem inside))

@[simp]
theorem FieldPlan.publicType_mem_storing : .type plan.publicType ∈ plan.storing :=
  plan.type_mem_storing (by simp [FieldPlan.types])

@[simp]
theorem FieldPlan.internalType_mem_storing : .type plan.internalType ∈ plan.storing :=
  plan.type_mem_storing (by simp [FieldPlan.types])

@[simp]
theorem FieldPlan.supportType_mem_storing : .type plan.support.publicType ∈ plan.storing :=
  plan.type_mem_storing (by simp [FieldPlan.types])

theorem FieldPlan.storing_subset_copying : plan.storing ⊆ plan.copying :=
  List.subset_append_left _ _

/-! #### Bodies without the presence of the field -/

theorem FieldPlan.getterBody_mentions : Statement.allMentions plan.getterBody ⊆ plan.storing := by
  have converted := convertCollection_mentions plan.backing plan.publicType plan.internalType
  have shown := toPublic_mentions plan.backing plan.support
  unfold FieldPlan.getterBody
  split
  · simpa using List.Subset.trans converted (by simp)
  · simpa using List.Subset.trans shown (by simp)

theorem FieldPlan.replaceOwned_mentions (value : Expr) :
    Statement.allMentions (plan.replaceOwned value) ⊆ plan.storing ++ value.mentions := by
  simp [FieldPlan.replaceOwned]

theorem FieldPlan.releaseBody_mentions : Statement.allMentions plan.releaseBody ⊆ plan.storing := by
  unfold FieldPlan.releaseBody
  split
  · simpa using plan.replaceOwned_mentions nilValue
  · simp

theorem FieldPlan.initializeBody_mentions :
    Statement.allMentions plan.initializeBody ⊆ plan.storing := by
  unfold FieldPlan.initializeBody
  split <;> simp

theorem FieldPlan.createBody_mentions : Statement.allMentions plan.createBody ⊆ plan.storing := by
  unfold FieldPlan.createBody
  split <;> simp

theorem FieldPlan.destroyBody_mentions : Statement.allMentions plan.destroyBody ⊆ plan.storing := by
  unfold FieldPlan.destroyBody
  split <;> simp

theorem FieldPlan.presenceGetterBody_mentions :
    Statement.allMentions plan.presenceGetterBody ⊆ plan.storing ++ plan.selecting := by
  unfold FieldPlan.presenceGetterBody FieldPlan.selecting
  cases plan.membership with
  | some membership => simp [Membership.qualifiedCase, OneofNames.qualify]
  | none => simp

variable {plan} in
theorem FieldPlan.deepCopyBody_mentions (singular : ¬ plan.field.repeated = true) :
    Statement.allMentions plan.deepCopyBody ⊆ plan.copying := by
  simp [FieldPlan.deepCopyBody, FieldPlan.copying, singular]

variable {plan} in
theorem FieldPlan.valueCopyBody_mentions (singular : ¬ plan.field.repeated = true) :
    Statement.allMentions plan.valueCopyBody ⊆ plan.copying := by
  simp [FieldPlan.valueCopyBody, FieldPlan.copying, singular]

end

/-! #### Bodies that ask for the presence of the field -/

/-- A field has a presence exactly if it is not repeated. -/
def FieldPlan.Shaped (plan : FieldPlan) : Prop :=
  plan.names.presence.isSome = !plan.field.repeated

section

variable {plan : FieldPlan} (shaped : plan.Shaped)

include shaped

/-- The presence of a field that is not repeated has a name of its own. -/
theorem FieldPlan.Shaped.has_mem (singular : ¬ plan.field.repeated = true) :
    .member plan.presenceName ∈ plan.storing := by
  unfold FieldPlan.Shaped at shaped
  rw [Bool.not_eq_true] at singular
  rw [singular, Bool.not_false, Option.isSome_iff_exists] at shaped
  obtain ⟨names, present⟩ := shaped
  simp [FieldPlan.presenceName, FieldPlan.storing, present]

theorem FieldPlan.setterBody_mentions : Statement.allMentions plan.setterBody ⊆ plan.storing := by
  unfold FieldPlan.setterBody
  split
  · have converted := convertCollection_mentions incomingValue plan.internalType plan.publicType
    have allowed : (convertCollection plan.internalType plan.publicType incomingValue).mentions ⊆
        plan.storing := List.Subset.trans converted (by simp)
    simp [FieldPlan.replaceOwned, allowed]
  · next singular =>
    have has := shaped.has_mem singular
    dsimp only
    split <;> simp [FieldPlan.replaceOwned, has]

theorem FieldPlan.presenceSetterBody_mentions (singular : ¬ plan.field.repeated = true) :
    Statement.allMentions plan.presenceSetterBody ⊆
      plan.storing ++ plan.selecting ++ [.type "EProtobufInvalidOperation"] := by
  have has := shaped.has_mem singular
  unfold FieldPlan.presenceSetterBody FieldPlan.selecting
  cases plan.membership with
  | some membership =>
    simp [Membership.qualifiedCase, Membership.noneCase, OneofNames.qualify, has]
  | none =>
    have released := plan.releaseBody_mentions
    simp [has, List.subset_append_of_subset_left, released]

theorem FieldPlan.clearBody_mentions : Statement.allMentions plan.clearBody ⊆ plan.storing := by
  unfold FieldPlan.clearBody
  split
  · simp
  · next singular => simp [shaped.has_mem singular]

theorem FieldPlan.encodeBody_mentions : Statement.allMentions plan.encodeBody ⊆
    plan.storing ++ [.member plan.names.numberConstant] := by
  unfold FieldPlan.encodeBody
  dsimp only
  split
  · simp
  · next singular =>
    have has := shaped.has_mem singular
    split <;> simp [has]

theorem FieldPlan.decodeBody_mentions : Statement.allMentions plan.decodeBody ⊆
    plan.copying ++ [.member plan.names.numberConstant, .member "HasUnparsedField"] := by
  unfold FieldPlan.decodeBody FieldPlan.copying
  dsimp only
  split
  · simp
  · next singular =>
    have has := shaped.has_mem singular
    split
    · simp [has]
    · next codec _ =>
      have shown := toPublic_mentions (.invoke (.runtimeObject codec) "DecodeUnknownField"
        [.localName "Self", plan.number]) plan.support
      have allowed : (plan.support.toPublic (.invoke (.runtimeObject codec) "DecodeUnknownField"
          [.localName "Self", plan.number])).mentions ⊆ plan.storing ++ (.member plan.names.property ::
            [.member plan.names.numberConstant, .member "HasUnparsedField"]) :=
        List.Subset.trans shown (by simp)
      simpa [has, singular] using allowed

theorem FieldPlan.mergeBody_mentions : Statement.allMentions plan.mergeBody ⊆ plan.copying := by
  unfold FieldPlan.mergeBody
  dsimp only
  split
  · simp [FieldPlan.copying]
  · next singular =>
    have has := plan.storing_subset_copying (shaped.has_mem singular)
    have backing := plan.storing_subset_copying plan.backing_mem_storing
    split
    · simp [has, backing, FieldPlan.deepCopyBody_mentions singular]
    · simp [FieldPlan.valueCopyBody_mentions singular]

theorem FieldPlan.assignBody_mentions : Statement.allMentions plan.assignBody ⊆ plan.copying := by
  unfold FieldPlan.assignBody
  split
  · simp [FieldPlan.copying]
  · next singular =>
    have has := plan.storing_subset_copying (shaped.has_mem singular)
    split
    · simp [has, FieldPlan.deepCopyBody_mentions singular]
    · simp [has, FieldPlan.valueCopyBody_mentions singular]

end

/-! ### Oneofs -/

section

variable (plan : OneofPlan)

@[simp]
theorem OneofPlan.backing_mentions : plan.backing.mentions = [.member plan.names.backing] := rfl

theorem OneofPlan.arms_mentions {body : FieldPlan → Body}
    (each : ∀ member, Statement.allMentions (body member) ⊆ member.storing) :
    (plan.arms body).flatMap Arm.mentions ⊆
      .type plan.names.caseType :: plan.members.flatMap FieldPlan.storing := by
  intro mention inside
  obtain ⟨arm, listed, inside⟩ := List.mem_flatMap.mp inside
  obtain ⟨member, isMember, made⟩ := List.mem_filterMap.mp listed
  obtain ⟨value, -, rfl⟩ := Option.map_eq_some_iff.mp made
  rcases List.mem_append.mp inside with label | inBody
  · exact List.mem_cons.mpr (.inl (List.mem_singleton.mp label))
  · exact List.mem_cons_of_mem _ (List.mem_flatMap.mpr ⟨member, isMember, each member inBody⟩)

theorem OneofPlan.setterBody_mentions : Statement.allMentions plan.setterBody ⊆
    .member plan.names.backing :: .type plan.names.caseType :: plan.members.flatMap FieldPlan.storing := by
  have released := List.Subset.trans (plan.arms_mentions FieldPlan.releaseBody_mentions)
    (List.subset_cons_self (.member plan.names.backing) _)
  have initialized := List.Subset.trans (plan.arms_mentions FieldPlan.initializeBody_mentions)
    (List.subset_cons_self (.member plan.names.backing) _)
  simp [OneofPlan.setterBody, released, initialized]

theorem OneofPlan.createBody_mentions : Statement.allMentions plan.createBody ⊆
    [.member plan.names.backing, .type plan.names.caseType] := by
  simp [OneofPlan.createBody, OneofNames.qualify]

end

end Message

end ProtoPascal
