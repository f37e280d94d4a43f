import Scribe.Reading.Rule

/-! How the children of expressions are read. -/
namespace Scribe
namespace Reading
open Program

def stepConcatenation (parts : List Node) (child : Head) : Action (List Node) :=
  .expect (expression? child.kind) fun part => parts ++ [part]

/-- Adjacent literals are added up from the left. -/
def finishConcatenation : List Node → Ending Node
  | [] => .noParts
  | first :: rest =>
    .done (rest.foldl (fun sum part => .binaryExpression "+" sum (some part)) first)

/-- An operator between two operands. -/
structure OperatorSlots where
  left : Option Node := none
  operator : Option String := none
  right : Option Node := none

namespace OperatorSlots

def step (operators : List String) (s : OperatorSlots) (child : Head) : Action OperatorSlots :=
  if child.kind ∈ operators ∧ s.left.isSome ∧ s.operator.isNone then
    .keep { s with operator := some child.kind }
  else if s.left.isNone then
    .expect (expression? child.kind) fun e => { s with left := some e }
  else if s.operator.isSome ∧ s.right.isNone then
    .expect (expression? child.kind) fun e => { s with right := some e }
  else .reject

/-- A binary expression may lack its right operand. -/
def finishBinary (s : OperatorSlots) : Ending Node :=
  match s.left, s.operator with
  | some left, some operator =>
    if s.right.isNone then .lacksRight (.binaryExpression operator left none)
    else .done (.binaryExpression operator left s.right)
  | _, _ => .incomplete

def finishAssignment (s : OperatorSlots) : Ending Node :=
  match s.left, s.operator, s.right with
  | some left, some operator, some right => .done (.assignmentExpression left operator right)
  | _, _, _ => .incomplete

end OperatorSlots

structure UnarySlots where
  operator : Option String := none
  expression : Option Node := none

namespace UnarySlots

def step (s : UnarySlots) (child : Head) : Action UnarySlots :=
  if child.kind ∈ unaryOperators ∧ s.operator.isNone then
    .keep { s with operator := some child.kind }
  else if s.operator.isSome ∧ s.expression.isNone then
    .expect (expression? child.kind) fun e => { s with expression := some e }
  else .reject

def finish (s : UnarySlots) : Ending Node :=
  match s.operator, s.expression with
  | some operator, some e => .done (.unaryExpression operator e)
  | _, _ => .incomplete

end UnarySlots

structure UpdateSlots where
  operator : Option String := none
  expression : Option Node := none
  isPostfix : Bool := false

namespace UpdateSlots

/-- The operator stands behind the operand if the operand has been read before it. -/
def step (s : UpdateSlots) (child : Head) : Action UpdateSlots :=
  if child.kind ∈ updateOperators ∧ s.operator.isNone then
    .keep { s with operator := some child.kind, isPostfix := s.expression.isSome }
  else if s.expression.isNone then
    .expect (expression? child.kind) fun e => { s with expression := some e }
  else .reject

def finish (s : UpdateSlots) : Ending Node :=
  match s.operator, s.expression with
  | some operator, some e => .done (.updateExpression operator e s.isPostfix)
  | _, _ => .incomplete

end UpdateSlots

inductive ConditionalPlace where
  | test
  | success
  | failure
deriving DecidableEq

def conditionalPlaces : List ConditionalPlace := [.test, .success, .failure]

structure ConditionalSlots where
  /-- The position among the places. -/
  slot : Nat := 0
  test : Option Node := none
  success : Option Node := none
  failure : Option Node := none

namespace ConditionalSlots

def step (s : ConditionalSlots) (child : Head) : Action ConditionalSlots :=
  match conditionalPlaces[s.slot]? with
  | some .test =>
    if s.test.isNone then
      .expect (expression? child.kind) fun e => { s with test := some e }
    else if child.kind = "?" then .keep { s with slot := s.slot + 1 }
    else .reject
  | some .success =>
    if s.success.isNone then
      .expect (expression? child.kind) fun e => { s with success := some e }
    else if child.kind = ":" then .keep { s with slot := s.slot + 1 }
    else .reject
  | some .failure =>
    if s.failure.isNone then
      .expect (expression? child.kind) fun e => { s with failure := some e }
    else .reject
  | none => .overrun

def finish (s : ConditionalSlots) : Ending Node :=
  match s.test, s.success, s.failure with
  | some test, some success, some failure => .done (.conditionalExpression test success failure)
  | _, _, _ => .incomplete

end ConditionalSlots

structure CallSlots where
  callee : Option Node := none
  arguments : Option (List Node) := none

namespace CallSlots

def step (s : CallSlots) (child : Head) : Action CallSlots :=
  if child.kind = "argument_list" ∧ s.callee.isSome ∧ s.arguments.isNone then
    .descend (.direct .arguments fun arguments => { s with arguments := some arguments })
  else if s.callee.isNone then
    .expect (expression? child.kind) fun e => { s with callee := some e }
  else .reject

def finish (s : CallSlots) : Ending Node :=
  .ofOption .incomplete (s.callee.map fun callee => .callExpression callee (s.arguments.getD []))

end CallSlots

def stepArguments (arguments : List Node) (child : Head) : Action (List Node) :=
  if child.kind ∈ ["(", ")", ","] then .keep arguments
  else .expect (expression? child.kind) fun e => arguments ++ [e]

/-- The steps a path starts with; those of a path inside it come one by one. -/
def pathSteps : Node → List Node
  | .path steps => steps
  | n => [n]

structure FieldSlots where
  steps : List Node := []
  seenOperator : Bool := false

namespace FieldSlots

def step (s : FieldSlots) (child : Head) : Action FieldSlots :=
  if child.kind ∈ [".", "->"] ∧ !s.steps.isEmpty ∧ !s.seenOperator then
    .keep { s with seenOperator := true }
  else if s.steps.isEmpty then
    .expect (expression? child.kind) fun e => { s with steps := pathSteps e }
  else if s.seenOperator ∧ child.kind = "field_identifier" then
    .keep ⟨s.steps ++ [.reference child.text], false⟩
  else .reject

def finish (s : FieldSlots) : Ending Node :=
  if s.steps.isEmpty ∨ s.seenOperator then .incomplete
  else .check (.path s.steps) (pathProblem? s.steps)

end FieldSlots

structure SubscriptSlots where
  steps : List Node := []
  inBrackets : Bool := false

namespace SubscriptSlots

/-- The index stands in a list of its own or between bare brackets. -/
def step (s : SubscriptSlots) (child : Head) : Action SubscriptSlots :=
  if child.kind = "[" ∧ !s.steps.isEmpty ∧ !s.inBrackets then
    .keep { s with inBrackets := true }
  else if child.kind = "]" ∧ s.inBrackets then .keep { s with inBrackets := false }
  else if s.steps.isEmpty then
    .expect (expression? child.kind) fun e => { s with steps := pathSteps e }
  else if child.kind = "subscript_argument_list" ∧ !s.inBrackets then
    .descend (.nested (.operand ["[", "]"]) fun e => { s with steps := s.steps ++ [.index e] })
  else if s.inBrackets then
    .expect (expression? child.kind) fun e => { s with steps := s.steps ++ [.index e] }
  else .reject

def finish (s : SubscriptSlots) : Ending Node :=
  if s.steps.isEmpty then .incomplete
  else .check (.path s.steps) (pathProblem? s.steps)

end SubscriptSlots
end Reading
end Scribe
