import Scribe.Program.Kind

/-! Programs: the uniform form between parse trees and printed text. A program is a list
of nodes. Any node may stand in any place that takes a node; which places a well-formed
program leaves to which kinds is a matter of predicates on it. -/
namespace Scribe
namespace Program

mutual
inductive Node where
  | namespaceBlock (name : String) (body : List Node)
  | declaration (declarators : List Declarator)
  | functionDefinition (name : String) (parameters : List Parameter)
      (returnType : Option String) (body : List Node)
  | parameter (parameter : Parameter)
  | block (statements : List Node)
  | ifStatement (choices : List Choice)
  | forStatement (init : List Node) (test : Option Node) (update : Option Node)
      (body : List Node)
  | whileStatement (condition : Node) (statements : List Node)
  | doStatement (statements : List Node) (condition : Node)
  | switchStatement (condition : Node) (statements : List Node)
  | caseStatement (isDefault : Bool) (test : Option Node) (statements : List Node)
  | returnStatement (statement : Option Node)
  | throwStatement (expression : Node)
  | breakStatement
  | continueStatement
  | binaryExpression (operator : String) (left : Node) (right : Option Node)
  | unaryExpression (operator : String) (expression : Node)
  | updateExpression (operator : String) (expression : Node) (isPostfix : Bool)
  | conditionalExpression (test success failure : Node)
  | assignmentExpression (left : Node) (operator : String) (right : Node)
  | callExpression (callee : Node) (arguments : List Node)
  | parenthesizedExpression (value : Node)
  | path (steps : List Node)
  | index (expression : Node)
  | reference (name : String)
  | numberLiteral (value : String)
  | booleanLiteral (value : String)
  | nullLiteral
  | stringLiteral (value : String)
  | userDefinedLiteral (text : String)

/-- One variable of a declaration. -/
structure Declarator where
  name : String
  typeName : Option String
  init : Option Node
  isConst : Bool

structure Parameter where
  name : String
  typeName : Option String
  defaultValue : Option Node
  isConst : Bool
  isRef : Bool

/-- One arm of a chain of choices; the last arm may do without a condition. -/
structure Choice where
  condition : Option Node
  statements : List Node
end

namespace Node

def kind : Node → Kind
  | namespaceBlock .. => .namespaceBlock
  | declaration .. => .declaration
  | functionDefinition .. => .functionDefinition
  | parameter .. => .parameter
  | block .. => .block
  | ifStatement .. => .ifStatement
  | forStatement .. => .forStatement
  | whileStatement .. => .whileStatement
  | doStatement .. => .doStatement
  | switchStatement .. => .switchStatement
  | caseStatement .. => .caseStatement
  | returnStatement .. => .returnStatement
  | throwStatement .. => .throwStatement
  | breakStatement => .breakStatement
  | continueStatement => .continueStatement
  | binaryExpression .. => .binaryExpression
  | unaryExpression .. => .unaryExpression
  | updateExpression .. => .updateExpression
  | conditionalExpression .. => .conditionalExpression
  | assignmentExpression .. => .assignmentExpression
  | callExpression .. => .callExpression
  | parenthesizedExpression .. => .parenthesizedExpression
  | path .. => .path
  | index .. => .index
  | reference .. => .reference
  | numberLiteral .. => .numberLiteral
  | booleanLiteral .. => .booleanLiteral
  | nullLiteral => .nullLiteral
  | stringLiteral .. => .stringLiteral
  | userDefinedLiteral .. => .userDefinedLiteral

end Node

/-- A chain starts with a condition, and only its last arm may be without one. -/
inductive ChainFault where
  | noFirstCondition
  | earlyElse
deriving DecidableEq, Repr

/-- What is wrong with a chain of choices, if anything. -/
def chainFault? (choices : List Choice) : Option ChainFault :=
  match choices with
  | [] => some .noFirstCondition
  | first :: _ =>
    if first.condition.isNone then some .noFirstCondition
    else if choices.dropLast.any (·.condition.isNone) then some .earlyElse
    else none

end Program
end Scribe
