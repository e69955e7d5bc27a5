import ProtoPascal.Proofs.Execution.Interpreter
import ProtoPascal.Proofs.Naming

/-!
Single steps of running code: what one expression or one statement does on the machine, given what
its parts do. Proofs about whole bodies are made of these steps.

* `Completes`: a body runs to its end;
* `completes_flatMap`: so do the parts of a body, one after the other, by an invariant of what is to
  come.
-/

namespace ProtoPascal.Execution

open Message (assign callOwn ifThen inheritCall invoke)
open Pascal

variable {Content Payload : Type} {program : Program Content Payload}
  {call : Caller Content Payload} {frame next : Frame}
  {machine middle final : Machine Content Payload}

/-! ### Expressions -/

theorem eval_field {identifier name type : String}
    (found : program.code.item? identifier = some (.field name type)) :
    (eval program call frame (.own identifier)).on machine =
      (.ok (machine.fields frame.self name), machine) := by
  rw [eval, readMember, found]
  rfl

theorem eval_property {identifier name type getter setter : String}
    (found : program.code.item? identifier = some (.property name type getter setter)) :
    eval program call frame (.own identifier) = call frame.self getter [] := by
  rw [eval, readMember, found]

theorem eval_member_field {object : Expr} {address : Address} {identifier name type : String}
    (objectValue : (eval program call frame object).on machine = (.ok (.object address), middle))
    (found : program.code.item? identifier = some (.field name type)) :
    (eval program call frame (.member object identifier)).on machine =
      (.ok (middle.fields address name), middle) := by
  rw [eval, Run.on_bind_ok objectValue]
  simp only [readMember, found, Run.on_look]

theorem eval_member_property {object : Expr} {address : Address}
    {identifier name type getter setter : String}
    (objectValue : (eval program call frame object).on machine = (.ok (.object address), middle))
    (found : program.code.item? identifier = some (.property name type getter setter)) :
    (eval program call frame (.member object identifier)).on machine =
      (call address getter []).on middle := by
  rw [eval, Run.on_bind_ok objectValue]
  simp only [readMember, found]

theorem eval_number {identifier name : String} {value : Int}
    (found : program.code.item? identifier = some (.constant name (toString value))) :
    (eval program call frame (.own identifier)).on machine = (.ok (.integer value), machine) := by
  rw [eval, readMember, found]
  simp only [literal?_toString, Run.require_some, Run.on_pure]

theorem eval_local {identifier : String} {value : Value}
    (found : frame.read? identifier = some value) :
    (eval program call frame (.localName identifier)).on machine = (.ok value, machine) := by
  rw [eval, found]
  rfl

theorem eval_constant {text : String} {value : Value} (denotes : literal? text = some value) :
    (eval program call frame (.constant text)).on machine = (.ok value, machine) := by
  rw [eval, denotes]
  rfl

theorem eval_enumValue {type name : String} {value : Value}
    (found : program.code.enumValue? type name = some value) :
    (eval program call frame (.enumValue type name)).on machine = (.ok value, machine) := by
  rw [eval, found]
  rfl

theorem eval_compare {left right : Expr} {relation : Relation} {first second : Value}
    {outcome : Bool}
    (leftValue : (eval program call frame left).on machine = (.ok first, middle))
    (rightValue : (eval program call frame right).on middle = (.ok second, final))
    (compared : Value.compare relation first second = some outcome) :
    (eval program call frame (.compare left relation right)).on machine =
      (.ok (.truth outcome), final) := by
  rw [eval, Run.on_bind_ok leftValue, Run.on_bind_ok rightValue, compared]
  rfl

/-- A test whether two values differ, of which the second is a number if it is a floating-point
value. -/
theorem eval_different {left right : Expr} {first second : Value}
    (leftValue : (eval program call frame left).on machine = (.ok first, middle))
    (rightValue : (eval program call frame right).on middle = (.ok second, final))
    (number : second ≠ .floating .notANumber) :
    (eval program call frame (.compare left .different right)).on machine =
      (.ok (.truth (decide (first ≠ second))), final) := by
  refine eval_compare leftValue rightValue ?_
  rw [Value.compare, Value.same_eq_decide number, decide_not]

/-- A test whether two values are equal, of which the second is a number if it is a floating-point
value. -/
theorem eval_equal {left right : Expr} {first second : Value}
    (leftValue : (eval program call frame left).on machine = (.ok first, middle))
    (rightValue : (eval program call frame right).on middle = (.ok second, final))
    (number : second ≠ .floating .notANumber) :
    (eval program call frame (.compare left .equal right)).on machine =
      (.ok (.truth (decide (first = second))), final) := by
  refine eval_compare leftValue rightValue ?_
  rw [Value.compare, Value.same_eq_decide number]

theorem eval_negate {operand : Expr} {value : Bool}
    (operandValue : (eval program call frame operand).on machine = (.ok (.truth value), middle)) :
    (eval program call frame (.negate operand)).on machine = (.ok (.truth (!value)), middle) := by
  rw [eval, Run.on_bind_ok operandValue]
  rfl

theorem eval_create {type : String} :
    (eval program call frame (.create type)).on machine =
      (.ok (.object machine.fresh), machine.allocate (program.library.create type)) := by
  rw [eval]
  rfl

theorem eval_builtin {function : String} {argument : Expr} {value result : Value}
    (argumentValue : (eval program call frame argument).on machine = (.ok value, middle))
    (found : builtin? function [value] = some result) :
    (eval program call frame (.builtin function [argument])).on machine =
      (.ok result, middle) := by
  have arguments : (evalAll program call frame [argument]).on machine = (.ok [value], middle) := by
    rw [evalAll, Run.on_bind_ok argumentValue]
    rfl
  rw [eval, Run.on_bind_ok arguments, found]
  rfl

theorem eval_convert {type : String} {operand : Expr} {value result : Value}
    (operandValue : (eval program call frame operand).on machine = (.ok value, middle))
    (converted : convert? type value = some result) :
    (eval program call frame (.convert type operand)).on machine = (.ok result, middle) := by
  rw [eval, Run.on_bind_ok operandValue, converted]
  rfl

theorem eval_invoke {object : Expr} {method : String} {arguments : List Expr} {receiver : Value}
    {values : List Value}
    (objectValue : (eval program call frame object).on machine = (.ok receiver, middle))
    (argumentValues : (evalAll program call frame arguments).on middle = (.ok values, final)) :
    (eval program call frame (.invoke object method arguments)).on machine =
      (useValue program.library receiver method values).on final := by
  rw [eval, Run.on_bind_ok objectValue, Run.on_bind_ok argumentValues]

theorem evalAll_cons {argument : Expr} {rest : List Expr} {value : Value} {values : List Value}
    (first : (eval program call frame argument).on machine = (.ok value, middle))
    (others : (evalAll program call frame rest).on middle = (.ok values, final)) :
    (evalAll program call frame (argument :: rest)).on machine =
      (.ok (value :: values), final) := by
  rw [evalAll, Run.on_bind_ok first, Run.on_bind_ok others]
  rfl

/-! ### Statements -/

theorem exec_assign_field {identifier name type : String} {value : Expr} {result : Value}
    (found : program.code.item? identifier = some (.field name type))
    (valueOf : (eval program call frame value).on machine = (.ok result, middle)) :
    (exec program call (assign (.own identifier) value) frame).on machine =
      (.ok frame, middle.store frame.self name result) := by
  rw [assign, exec_simple, execAction, Run.on_bind_ok valueOf, writeMember, found]
  rfl

theorem exec_assign_property {identifier name type getter setter : String} {value : Expr}
    {result answer : Value}
    (found : program.code.item? identifier = some (.property name type getter setter))
    (valueOf : (eval program call frame value).on machine = (.ok result, middle))
    (written : (call frame.self setter [result]).on middle = (.ok answer, final)) :
    (exec program call (assign (.own identifier) value) frame).on machine =
      (.ok frame, final) := by
  have passed : (writeMember program call frame.self identifier result).on middle =
      (.ok (), final) := by
    rw [writeMember, found]
    exact Run.on_bind_ok written
  rw [assign, exec_simple, execAction, Run.on_bind_ok valueOf, Run.on_bind_ok passed]
  rfl

theorem exec_assign_local {identifier : String} {value : Expr} {result : Value}
    (valueOf : (eval program call frame value).on machine = (.ok result, middle)) :
    (exec program call (assign (.localName identifier) value) frame).on machine =
      (.ok (frame.assign identifier result), middle) := by
  rw [assign, exec_simple, execAction, Run.on_bind_ok valueOf]
  rfl

theorem exec_invoke {object : Expr} {method : String} {arguments : List Expr} {answer : Value}
    (performed : (eval program call frame (.invoke object method arguments)).on machine =
      (.ok answer, final)) :
    (exec program call (invoke object method arguments) frame).on machine = (.ok frame, final) := by
  rw [invoke, exec_simple, execAction, Run.on_bind_ok performed]
  rfl

theorem exec_invoke_error {object : Expr} {method : String} {arguments : List Expr} {fault : Fault}
    (failed : (eval program call frame (.invoke object method arguments)).on machine =
      (.error fault, final)) :
    (exec program call (invoke object method arguments) frame).on machine =
      (.error fault, final) := by
  rw [invoke, exec_simple, execAction, Run.on_bind_error failed]

theorem exec_inheritCall {method : String} {arguments : List Expr} {values : List Value}
    (argumentValues : (evalAll program call frame arguments).on machine = (.ok values, middle))
    (done : (useAncestor program.library frame.self method values).on middle = (.ok (), final)) :
    (exec program call (inheritCall method arguments) frame).on machine = (.ok frame, final) := by
  rw [inheritCall, exec_simple, execAction, Run.on_bind_ok argumentValues, Run.on_bind_ok done]
  rfl

theorem exec_callOwn_arguments {method : String} {implementation : Implementation Action Expr}
    {arguments : List Expr} {values : List Value} {outcome : Except Fault Value}
    (argumentValues : (evalAll program call frame arguments).on machine = (.ok values, middle))
    (found : program.code.method? method = some implementation)
    (ran : (call frame.self method values).on middle = (outcome, final)) :
    (exec program call (callOwn method arguments) frame).on machine =
      (outcome.map fun _ => frame, final) := by
  have called : (eval program call frame (.callOwn method arguments)).on machine =
      (outcome, final) := by
    rw [eval, Run.on_bind_ok argumentValues]
    unfold callMember
    rw [found]
    exact ran
  rw [callOwn, exec_simple, execAction]
  cases outcome with
  | error fault => exact Run.on_bind_error called
  | ok value => exact Run.on_bind_ok called

theorem exec_callOwn {method : String} {implementation : Implementation Action Expr}
    {outcome : Except Fault Value} (found : program.code.method? method = some implementation)
    (ran : (call frame.self method []).on machine = (outcome, final)) :
    (exec program call (callOwn method []) frame).on machine =
      (outcome.map fun _ => frame, final) :=
  exec_callOwn_arguments (by rw [evalAll_nil, Run.on_pure]) found ran

theorem exec_raise {exceptionType text : String} :
    (exec program call (.simple (.raise exceptionType (.quoted text))) frame).on machine =
      (.error (.raised exceptionType text), machine) := by
  rw [exec_simple, execAction, eval, pure_bind]
  rfl

theorem exec_ifElse {condition : Expr} {thenBranch elseBranch : List (Statement Action Expr)}
    {value : Bool}
    (decided : (eval program call frame condition).on machine = (.ok (.truth value), middle)) :
    (exec program call (.ifElse condition thenBranch elseBranch) frame).on machine =
      (execAll program call (if value then thenBranch else elseBranch) frame).on middle := by
  rw [exec, Run.on_bind_ok decided]
  cases value <;> rfl

theorem exec_caseOf {selector : Expr} {arms : List (Arm Action Expr)} {selected : Value}
    (valueOf : (eval program call frame selector).on machine = (.ok selected, middle)) :
    (exec program call (.caseOf selector arms) frame).on machine =
      (execArms program call selected arms frame).on middle := by
  rw [exec, Run.on_bind_ok valueOf]

theorem execAll_cons {statement : Statement Action Expr} {rest : List (Statement Action Expr)}
    (first : (exec program call statement frame).on machine = (.ok next, middle)) :
    (execAll program call (statement :: rest) frame).on machine =
      (execAll program call rest next).on middle := by
  rw [execAll, Run.on_bind_ok first]

theorem execAll_singleton (statement : Statement Action Expr) :
    (execAll program call [statement] frame).on machine =
      (exec program call statement frame).on machine := by
  rw [execAll, Run.on_bind]
  rcases (exec program call statement frame).on machine with ⟨fault | next, middle⟩
  · rfl
  · exact congrArg (Run.on · middle) (execAll_nil program call next)

theorem execAll_append_eq (first second : List (Statement Action Expr)) :
    execAll program call (first ++ second) frame =
      execAll program call first frame >>= execAll program call second := by
  induction first generalizing frame with
  | nil => rw [List.nil_append, execAll_nil, pure_bind]
  | cons statement rest ih =>
    rw [List.cons_append, execAll, execAll, bind_assoc]
    exact bind_congr fun _ => ih

theorem execAll_append {first second : List (Statement Action Expr)}
    (ran : (execAll program call first frame).on machine = (.ok next, middle)) :
    (execAll program call (first ++ second) frame).on machine =
      (execAll program call second next).on middle := by
  rw [execAll_append_eq, Run.on_bind_ok ran]

theorem execAll_append_error {first second : List (Statement Action Expr)} {fault : Fault}
    (failed : (execAll program call first frame).on machine = (.error fault, middle)) :
    (execAll program call (first ++ second) frame).on machine = (.error fault, middle) := by
  rw [execAll_append_eq, Run.on_bind_error failed]

/-! ### Bodies that run to their ends -/

/-- A body runs to its end and leaves the local names as they are, however deep calls may go beyond a
bound. -/
def Completes (program : Program Content Payload) (bound : Nat)
    (body : List (Statement Action Expr)) (frame : Frame)
    (machine final : Machine Content Payload) : Prop :=
  ∀ depth, (execAll program (invokeMethod program (depth + bound)) body frame).on machine =
    (.ok frame, final)

theorem completes_nil {bound : Nat} : Completes program bound [] frame machine machine :=
  fun _ => by rw [execAll_nil, Run.on_pure]

theorem Completes.append {bound : Nat} {first second : List (Statement Action Expr)}
    (ran : Completes program bound first frame machine middle)
    (then_ran : Completes program bound second frame middle final) :
    Completes program bound (first ++ second) frame machine final :=
  fun depth => (execAll_append (ran depth)).trans (then_ran depth)

theorem Completes.deeper {bound : Nat} {body : List (Statement Action Expr)}
    (ran : Completes program bound body frame machine final) :
    Completes program (bound + 1) body frame machine final := by
  intro depth
  have further := ran (depth + 1)
  rwa [Nat.add_right_comm] at further

/-- A condition decides which of two branches runs to its end. -/
theorem completes_ifElse {bound : Nat} {condition : Expr} {holds : Prop}
    {thenBranch elseBranch : List (Statement Action Expr)}
    (decided : ∃ value : Bool, (value = true ↔ holds) ∧ ∀ depth,
      (eval program (invokeMethod program (depth + 1)) frame condition).on machine =
        (.ok (.truth value), machine))
    (yes : holds → Completes program (bound + 1) thenBranch frame machine final)
    (no : ¬ holds → Completes program (bound + 1) elseBranch frame machine final) :
    Completes program (bound + 1) [.ifElse condition thenBranch elseBranch] frame machine final := by
  intro depth
  obtain ⟨value, iff, read⟩ := decided
  refine ((execAll_singleton _).trans (exec_ifElse (read (depth + bound)))).trans ?_
  cases value with
  | true => exact yes (iff.mp rfl) depth
  | false => exact no (fun holds => Bool.false_ne_true (iff.mpr holds)) depth

/-- **Parts run to their ends one after the other.** The invariant is about the parts that are still to
come. -/
theorem completes_flatMap {α : Type} {bound : Nat} {part : α → List (Statement Action Expr)}
    (Holds : List α → Machine Content Payload → Prop)
    (step : ∀ item rest machine, Holds (item :: rest) machine →
      ∃ middle, Completes program bound (part item) frame machine middle ∧ Holds rest middle)
    {items : List α} (start : Holds items machine) :
    ∃ final, Completes program bound (items.flatMap part) frame machine final ∧ Holds [] final := by
  induction items generalizing machine with
  | nil => exact ⟨machine, completes_nil, start⟩
  | cons item rest ih =>
    obtain ⟨middle, first_ran, between⟩ := step item rest machine start
    obtain ⟨final, ran, holds⟩ := ih between
    exact ⟨final, first_ran.append ran, holds⟩

/-! ### Methods -/

/-- A method does what its body does, and gives what the body leaves as its result. -/
theorem invokeMethod_of_exec {name : String} {implementation : Implementation Action Expr}
    {depth : Nat} {self : Address} {arguments : List Value} {locals : List (String × Value)}
    {outcome : Except Fault Frame}
    (found : program.code.method? name = some implementation)
    (entered : (implementation.method.parameters.map Parameter.name).zip arguments = locals)
    (ran : (execAll program (invokeMethod program depth) implementation.body
      { self, locals }).on machine = (outcome, final)) :
    (invokeMethod program (depth + 1) self name arguments).on machine =
      (outcome.map fun last => (last.read? "Result").getD .nil, final) := by
  subst entered
  rw [invokeMethod, found, Run.require_some, pure_bind]
  cases outcome with
  | error fault => exact Run.on_bind_error ran
  | ok last => exact Run.on_bind_ok ran

/-- A procedure without parameters and local names does what its body does. -/
theorem invokeMethod_bare {name : String} {implementation : Implementation Action Expr}
    {depth : Nat} {self : Address} (found : program.code.method? name = some implementation)
    (ran : (execAll program (invokeMethod program depth) implementation.body
      { self, locals := [] }).on machine = (.ok { self, locals := [] }, final)) :
    (invokeMethod program (depth + 1) self name []).on machine = (.ok .nil, final) := by
  have self_other : Text.sameLetters "Result" "Self" = false := by decide
  rw [invokeMethod_of_exec found (List.zip_nil_right ..) ran]
  simp [Except.map, Frame.read?, self_other]

/-- The local names of a method with one parameter. -/
def argumentFrame (self : Address) (name : String) (value : Value) : Frame :=
  { self, locals := [(name, value)] }

/-- A procedure that ends with a fault in its body ends with this fault. -/
theorem invokeMethod_procedure_error {name parameter type : String}
    {implementation : Implementation Action Expr} {depth : Nat} {self : Address} {value : Value}
    {fault : Fault} (found : program.code.method? name = some implementation)
    (parameters : implementation.method.parameters = [⟨parameter, type⟩])
    (ran : (execAll program (invokeMethod program depth) implementation.body
      (argumentFrame self parameter value)).on machine = (.error fault, final)) :
    (invokeMethod program (depth + 1) self name [value]).on machine = (.error fault, final) :=
  invokeMethod_of_exec found (by rw [parameters]; rfl) ran

/-- A procedure that ends without a change of its local names does what its body does. -/
theorem invokeMethod_procedure {name parameter type : String}
    {implementation : Implementation Action Expr} {depth : Nat} {self : Address} {value : Value}
    (found : program.code.method? name = some implementation)
    (parameters : implementation.method.parameters = [⟨parameter, type⟩])
    (other : Text.sameLetters parameter "Result" = false)
    (ran : (execAll program (invokeMethod program depth) implementation.body
      (argumentFrame self parameter value)).on machine =
        (.ok (argumentFrame self parameter value), final)) :
    (invokeMethod program (depth + 1) self name [value]).on machine = (.ok .nil, final) := by
  have self_other : Text.sameLetters "Result" "Self" = false := by decide
  rw [invokeMethod_of_exec found (by rw [parameters]; rfl) ran]
  simp [Except.map, Frame.read?, argumentFrame, other, self_other]

/-- A function without parameters gives what its body assigns to the result. -/
theorem invokeMethod_function {name : String} {implementation : Implementation Action Expr}
    {depth : Nat} {self : Address} {value : Expr} {result : Value}
    (found : program.code.method? name = some implementation)
    (body : implementation.body = [assign (.localName "Result") value])
    (valueOf : (eval program (invokeMethod program depth) { self, locals := [] } value).on machine =
      (.ok result, middle)) :
    (invokeMethod program (depth + 1) self name []).on machine = (.ok result, middle) := by
  have ran : (execAll program (invokeMethod program depth) implementation.body
      { self, locals := [] }).on machine =
        (.ok { self, locals := [("Result", result)] }, middle) := by
    rw [body, execAll_singleton, exec_assign_local valueOf]
    rfl
  have self_other : Text.sameLetters "Result" "Self" = false := by decide
  rw [invokeMethod_of_exec found (List.zip_nil_right ..) ran]
  simp [Except.map, Frame.read?, self_other]

end ProtoPascal.Execution
