/-! The kinds of program nodes. -/
namespace Scribe
namespace Program

inductive Kind where
  | namespaceBlock
  | declaration
  | functionDefinition
  | parameter
  | block
  | ifStatement
  | forStatement
  | whileStatement
  | doStatement
  | switchStatement
  | caseStatement
  | returnStatement
  | throwStatement
  | breakStatement
  | continueStatement
  | binaryExpression
  | unaryExpression
  | updateExpression
  | conditionalExpression
  | assignmentExpression
  | callExpression
  | parenthesizedExpression
  | path
  | index
  | reference
  | numberLiteral
  | booleanLiteral
  | nullLiteral
  | stringLiteral
  | userDefinedLiteral
deriving DecidableEq, Repr

namespace Kind

/-- The name a kind has in documents and messages. -/
def name : Kind → String
  | namespaceBlock => "namespace"
  | declaration => "declaration"
  | functionDefinition => "function_definition"
  | parameter => "parameter"
  | block => "block"
  | ifStatement => "if_statement"
  | forStatement => "for_statement"
  | whileStatement => "while_statement"
  | doStatement => "do_statement"
  | switchStatement => "switch_statement"
  | caseStatement => "case_statement"
  | returnStatement => "return_statement"
  | throwStatement => "throw_statement"
  | breakStatement => "break_statement"
  | continueStatement => "continue_statement"
  | binaryExpression => "binary_expression"
  | unaryExpression => "unary_expression"
  | updateExpression => "update_expression"
  | conditionalExpression => "conditional_expression"
  | assignmentExpression => "assignment_expression"
  | callExpression => "call_expression"
  | parenthesizedExpression => "parenthesized_expression"
  | path => "path"
  | index => "index"
  | reference => "reference"
  | numberLiteral => "number_literal"
  | booleanLiteral => "boolean_literal"
  | nullLiteral => "null_literal"
  | stringLiteral => "string_literal"
  | userDefinedLiteral => "user_defined_literal"

/-- All kinds: declarations, statements, expressions, literals. -/
def all : List Kind :=
  [namespaceBlock, declaration, functionDefinition, parameter, block, ifStatement,
    forStatement, whileStatement, doStatement, switchStatement, caseStatement,
    returnStatement, throwStatement, breakStatement, continueStatement, binaryExpression,
    unaryExpression, updateExpression, conditionalExpression, assignmentExpression,
    callExpression, parenthesizedExpression, path, index, reference, numberLiteral,
    booleanLiteral, nullLiteral, stringLiteral, userDefinedLiteral]

theorem mem_all (k : Kind) : k ∈ all := by cases k <;> decide

def ofName? (s : String) : Option Kind := all.find? (·.name == s)

end Kind
end Program
end Scribe
