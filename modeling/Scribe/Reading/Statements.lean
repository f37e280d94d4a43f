import Scribe.Reading.Rule

/-! How the children of statements are read. -/
namespace Scribe
namespace Reading
open Program

def stepStatements (statements : List Node) (child : Head) : Action (List Node) :=
  if child.kind ∈ ["\x7b", "\x7d"] then .keep statements
  else .expect (statement? child.kind) fun more => statements ++ more

def stepOperand (tokens : List String) (value : Option Node) (child : Head) :
    Action (Option Node) :=
  if child.kind ∈ tokens then .keep value
  else if value.isSome then .reject
  else .expect (expression? child.kind) some

structure IfSlots where
  condition : Option Node := none
  statements : List Node := []
  alternatives : Option (List Choice) := none
  inElse : Bool := false

namespace IfSlots

/-- The alternative stands in a clause of its own or behind a bare `else`, and ends the
statement. -/
def step (s : IfSlots) (child : Head) : Action IfSlots :=
  if child.kind ∈ ["if", "constexpr"] then .keep s
  else if s.alternatives.isSome then .reject
  else if child.kind = "condition_clause" ∧ s.condition.isNone then
    .descend (.nested (.operand ["(", ")"]) fun c => { s with condition := some c })
  else if s.condition.isNone then .reject
  else if child.kind = "else" ∧ !s.inElse then .keep { s with inElse := true }
  else if child.kind = "else_clause" ∧ !s.inElse then
    .descend (.nested .elseClause fun choices => { s with alternatives := some choices })
  else if s.inElse then
    .expect (alternative? child.kind) fun choices => { s with alternatives := some choices }
  else .expect (body? child.kind) fun more => { s with statements := s.statements ++ more }

def finish (s : IfSlots) : Ending (List Choice) :=
  match s.condition with
  | some c =>
    let choices := ⟨some c, s.statements⟩ :: s.alternatives.getD []
    .check choices (chainProblem? choices)
  | none => .incomplete

end IfSlots

def stepElse (alternatives : Option (List Choice)) (child : Head) :
    Action (Option (List Choice)) :=
  if child.kind = "else" then .keep alternatives
  else if alternatives.isSome then .reject
  else .expect (alternative? child.kind) some

/-- A clause with nothing in it is an empty last arm. -/
def finishElse (alternatives : Option (List Choice)) : Ending (List Choice) :=
  .done (alternatives.getD [⟨none, []⟩])

/-- The places in the head of a `for`, and its body. -/
inductive ForPlace where
  | init
  | test
  | update
  | body
deriving DecidableEq

def forPlaces : List ForPlace := [.init, .test, .update, .body]

structure ForSlots where
  /-- The position among the places. -/
  slot : Nat := 0
  init : List Node := []
  test : Option Node := none
  update : Option Node := none
  body : List Node := []

namespace ForSlots

/-- Semicolons and the closing parenthesis lead to the next place; a declaration brings
its semicolon along. -/
def step (s : ForSlots) (child : Head) : Action ForSlots :=
  if child.kind ∈ ["for", "("] then .keep s
  else match forPlaces[s.slot]? with
    | some .init =>
      if child.kind = ";" then .keep { s with slot := s.slot + 1 }
      else if child.kind = "declaration" then
        .expect (statement? child.kind) fun more =>
          { s with init := s.init ++ more, slot := s.slot + 1 }
      else if s.init.isEmpty then
        .expect (expression? child.kind) fun e => { s with init := [e] }
      else .reject
    | some .test =>
      if child.kind = ";" then .keep { s with slot := s.slot + 1 }
      else if s.test.isNone then
        .expect (expression? child.kind) fun e => { s with test := some e }
      else .reject
    | some .update =>
      if child.kind = ")" then .keep { s with slot := s.slot + 1 }
      else if s.update.isNone then
        .expect (expression? child.kind) fun e => { s with update := some e }
      else .reject
    | some .body => .expect (body? child.kind) fun more => { s with body := s.body ++ more }
    | none => .overrun

def finish (s : ForSlots) : Ending Node :=
  .done (.forStatement s.init s.test s.update s.body)

end ForSlots

structure WhileSlots where
  condition : Option Node := none
  statements : List Node := []

namespace WhileSlots

def step (s : WhileSlots) (child : Head) : Action WhileSlots :=
  if child.kind = "while" then .keep s
  else if child.kind = "condition_clause" ∧ s.condition.isNone then
    .descend (.nested (.operand ["(", ")"]) fun c => { s with condition := some c })
  else if s.condition.isSome then
    .expect (body? child.kind) fun more => { s with statements := s.statements ++ more }
  else .reject

def finish (s : WhileSlots) : Ending Node :=
  .ofOption .incomplete (s.condition.map fun c => .whileStatement c s.statements)

end WhileSlots

structure DoSlots where
  statements : Option (List Node) := none
  condition : Option Node := none
  seenWhile : Bool := false

namespace DoSlots

def step (s : DoSlots) (child : Head) : Action DoSlots :=
  if child.kind ∈ ["do", ";"] then .keep s
  else if child.kind = "while" ∧ s.statements.isSome then .keep { s with seenWhile := true }
  else if !s.seenWhile ∧ s.statements.isNone then
    .expect (body? child.kind) fun statements => { s with statements := some statements }
  else if s.seenWhile ∧ s.condition.isNone ∧ child.kind = "parenthesized_expression" then
    .descend (.nested (.operand ["(", ")"]) fun c => { s with condition := some c })
  else .reject

def finish (s : DoSlots) : Ending Node :=
  .ofOption .incomplete (s.condition.map fun c => .doStatement (s.statements.getD []) c)

end DoSlots

structure SwitchSlots where
  condition : Option Node := none
  statements : Option (List Node) := none

namespace SwitchSlots

def step (s : SwitchSlots) (child : Head) : Action SwitchSlots :=
  if child.kind = "switch" then .keep s
  else if child.kind = "condition_clause" ∧ s.condition.isNone then
    .descend (.nested (.operand ["(", ")"]) fun c => { s with condition := some c })
  else if child.kind = "compound_statement" ∧ s.condition.isSome ∧ s.statements.isNone then
    .descend (.nested .statements fun statements => { s with statements := some statements })
  else .reject

def finish (s : SwitchSlots) : Ending Node :=
  .ofOption .incomplete (s.condition.map fun c => .switchStatement c (s.statements.getD []))

end SwitchSlots

structure CaseSlots where
  isDefault : Bool := false
  test : Option Node := none
  statements : List Node := []
  seenColon : Bool := false

namespace CaseSlots

def step (s : CaseSlots) (child : Head) : Action CaseSlots :=
  if child.kind = "case" then .keep s
  else if child.kind = "default" ∧ !s.seenColon then .keep { s with isDefault := true }
  else if child.kind = ":" ∧ !s.seenColon then .keep { s with seenColon := true }
  else if !s.seenColon ∧ s.test.isNone ∧ !s.isDefault then
    .expect (expression? child.kind) fun e => { s with test := some e }
  else if s.seenColon then
    .expect (statement? child.kind) fun more => { s with statements := s.statements ++ more }
  else .reject

def finish (s : CaseSlots) : Ending Node :=
  .done (.caseStatement s.isDefault s.test s.statements)

end CaseSlots
end Reading
end Scribe
