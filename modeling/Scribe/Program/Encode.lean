import Scribe.Json.Writer
import Scribe.Program.Node

/-! Programs as JSON documents: a node is an object that names its kind first and then all
its fields. -/
namespace Scribe
namespace Program
open Json (Value)

def encodeText : Option String → Value
  | none => .null
  | some s => .string s

def tag (kind : Kind) : String × Value := ("kind", .string kind.name)

mutual
def encode : Node → Value
  | .namespaceBlock name body =>
    .object [tag .namespaceBlock, ("name", .string name), ("body", .array (encodeAll body))]
  | .declaration declarators =>
    .object [tag .declaration, ("declarators", .array (encodeDeclarators declarators))]
  | .functionDefinition name parameters returnType body =>
    .object [tag .functionDefinition, ("name", .string name),
      ("parameters", .array (encodeParameters parameters)),
      ("return_type", encodeText returnType), ("body", .array (encodeAll body))]
  | .parameter ⟨name, typeName, defaultValue, isConst, isRef⟩ =>
    .object [tag .parameter, ("name", .string name), ("type_name", encodeText typeName),
      ("default", encodeOption defaultValue), ("is_const", .bool isConst),
      ("is_ref", .bool isRef)]
  | .block statements => .object [tag .block, ("statements", .array (encodeAll statements))]
  | .ifStatement choices =>
    .object [tag .ifStatement, ("choices", .array (encodeChoices choices))]
  | .forStatement init test update body =>
    .object [tag .forStatement, ("init", .array (encodeAll init)), ("test", encodeOption test),
      ("update", encodeOption update), ("body", .array (encodeAll body))]
  | .whileStatement condition statements =>
    .object [tag .whileStatement, ("condition", encode condition),
      ("statements", .array (encodeAll statements))]
  | .doStatement statements condition =>
    .object [tag .doStatement, ("statements", .array (encodeAll statements)),
      ("condition", encode condition)]
  | .switchStatement condition statements =>
    .object [tag .switchStatement, ("condition", encode condition),
      ("statements", .array (encodeAll statements))]
  | .caseStatement isDefault test statements =>
    .object [tag .caseStatement, ("is_default", .bool isDefault), ("test", encodeOption test),
      ("statements", .array (encodeAll statements))]
  | .returnStatement statement =>
    .object [tag .returnStatement, ("statement", encodeOption statement)]
  | .throwStatement expression =>
    .object [tag .throwStatement, ("expression", encode expression)]
  | .breakStatement => .object [tag .breakStatement]
  | .continueStatement => .object [tag .continueStatement]
  | .binaryExpression operator left right =>
    .object [tag .binaryExpression, ("operator", .string operator), ("left", encode left),
      ("right", encodeOption right)]
  | .unaryExpression operator expression =>
    .object [tag .unaryExpression, ("operator", .string operator),
      ("expression", encode expression)]
  | .updateExpression operator expression isPostfix =>
    .object [tag .updateExpression, ("operator", .string operator),
      ("expression", encode expression), ("is_postfix", .bool isPostfix)]
  | .conditionalExpression test success failure =>
    .object [tag .conditionalExpression, ("test", encode test), ("success", encode success),
      ("failure", encode failure)]
  | .assignmentExpression left operator right =>
    .object [tag .assignmentExpression, ("left", encode left), ("operator", .string operator),
      ("right", encode right)]
  | .callExpression callee arguments =>
    .object [tag .callExpression, ("object", encode callee),
      ("args", .array (encodeAll arguments))]
  | .parenthesizedExpression value =>
    .object [tag .parenthesizedExpression, ("value", encode value)]
  | .path steps => .object [tag .path, ("steps", .array (encodeAll steps))]
  | .index expression => .object [tag .index, ("expression", encode expression)]
  | .reference name => .object [tag .reference, ("name", .string name)]
  | .numberLiteral value => .object [tag .numberLiteral, ("value", .string value)]
  | .booleanLiteral value => .object [tag .booleanLiteral, ("value", .string value)]
  | .nullLiteral => .object [tag .nullLiteral]
  | .stringLiteral value => .object [tag .stringLiteral, ("value", .string value)]
  | .userDefinedLiteral text => .object [tag .userDefinedLiteral, ("text", .string text)]

def encodeOption : Option Node → Value
  | none => .null
  | some n => encode n

def encodeAll : List Node → List Value
  | [] => []
  | n :: ns => encode n :: encodeAll ns

def encodeDeclarators : List Declarator → List Value
  | [] => []
  | ⟨name, typeName, init, isConst⟩ :: rest =>
    .object [("name", .string name), ("type_name", encodeText typeName),
      ("init", encodeOption init), ("is_const", .bool isConst)] :: encodeDeclarators rest

def encodeParameters : List Parameter → List Value
  | [] => []
  | ⟨name, typeName, defaultValue, isConst, isRef⟩ :: rest =>
    .object [tag .parameter, ("name", .string name), ("type_name", encodeText typeName),
      ("default", encodeOption defaultValue), ("is_const", .bool isConst),
      ("is_ref", .bool isRef)] :: encodeParameters rest

def encodeChoices : List Choice → List Value
  | [] => []
  | ⟨condition, statements⟩ :: rest =>
    .object [("condition", encodeOption condition),
      ("statements", .array (encodeAll statements))] :: encodeChoices rest
end

/-- The document of a program. -/
def dump (program : List Node) : String := Json.render (.array (encodeAll program))

end Program
end Scribe
