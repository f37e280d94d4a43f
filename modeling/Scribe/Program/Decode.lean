import Scribe.Json.Binary
import Scribe.Json.Reader
import Scribe.Program.Checked

/-! Reading programs from JSON documents. Each value of a document is looked at in every
role that a field may give it; the field then takes the role it needs. -/
namespace Scribe
namespace Program
open Json (Value member?)

/-- A value of a document in all its roles. -/
structure View where
  isNull : Bool := false
  word? : Option String := none
  text : Checked String := .wrong .notText
  flag : Checked Bool := .wrong .notFlag
  node : Checked Node := .wrong .notNode
  declarator : Checked Declarator := .wrong .notRecord
  parameter : Checked Parameter := .wrong .notRecord
  choice : Checked Choice := .wrong .notRecord
  nodes : Checked (List Node) := .wrong .notList
  declarators : Checked (List Declarator) := .wrong .notList
  parameters : Checked (List Parameter) := .wrong .notList
  choices : Checked (List Choice) := .wrong .notList

namespace View

/-- A role that null can have too. -/
def orNull {α : Type} (role : View → Checked α) (v : View) : Checked (Option α) :=
  if v.isNull then .valid none else (role v).map some

end View

/-- The members of an object, looked at. -/
abbrev Members := List (String × View)

namespace Members
variable {α : Type}

def required (members : Members) (name : String) (role : View → Checked α) : Checked α :=
  match member? name members with
  | some v => (role v).within (.field name)
  | none => (Checked.wrong .missing).within (.field name)

def optional (members : Members) (name : String) (role : View → Checked α) (value : α) :
    Checked α :=
  match member? name members with
  | some v => (role v).within (.field name)
  | none => .valid value

def declarator (ms : Members) : Checked Declarator :=
  Declarator.mk <$> ms.required "name" View.text
    <*> ms.optional "type_name" (View.orNull View.text) none
    <*> ms.optional "init" (View.orNull View.node) none
    <*> ms.optional "is_const" View.flag false

/-- The kind of a parameter need not be said, but if it is it must be right. -/
def parameterKind (ms : Members) : Checked Unit :=
  match member? "kind" ms with
  | none => .valid ()
  | some v =>
    if v.word? = some Kind.parameter.name then .valid ()
    else (Checked.wrong .wrongKind).within (.field "kind")

def parameter (ms : Members) : Checked Parameter :=
  (fun _ name typeName value isConst isRef => Parameter.mk name typeName value isConst isRef)
    <$> ms.parameterKind
    <*> ms.required "name" View.text
    <*> ms.optional "type_name" (View.orNull View.text) none
    <*> ms.optional "default" (View.orNull View.node) none
    <*> ms.optional "is_const" View.flag false
    <*> ms.optional "is_ref" View.flag false

def choice (ms : Members) : Checked Choice :=
  Choice.mk <$> ms.optional "condition" (View.orNull View.node) none
    <*> ms.optional "statements" View.nodes []

/-- The chain of an `if` statement, which has to be in order. -/
def chain (ms : Members) : Checked (List Choice) :=
  (ms.required "choices" View.choices).ensure chainProblem?

/-- The steps of a path, of which there is at least one. -/
def steps (ms : Members) : Checked (List Node) :=
  (ms.required "steps" View.nodes).ensure pathProblem?

/-- A node of the given kind. -/
def fields (ms : Members) : Kind → Checked Node
  | .namespaceBlock =>
    Node.namespaceBlock <$> ms.required "name" View.text <*> ms.optional "body" View.nodes []
  | .declaration => Node.declaration <$> ms.optional "declarators" View.declarators []
  | .functionDefinition =>
    Node.functionDefinition <$> ms.required "name" View.text
      <*> ms.optional "parameters" View.parameters []
      <*> ms.optional "return_type" (View.orNull View.text) none
      <*> ms.optional "body" View.nodes []
  | .parameter => Node.parameter <$> ms.parameter
  | .block => Node.block <$> ms.optional "statements" View.nodes []
  | .ifStatement => Node.ifStatement <$> ms.chain
  | .forStatement =>
    Node.forStatement <$> ms.optional "init" View.nodes []
      <*> ms.optional "test" (View.orNull View.node) none
      <*> ms.optional "update" (View.orNull View.node) none
      <*> ms.optional "body" View.nodes []
  | .whileStatement =>
    Node.whileStatement <$> ms.required "condition" View.node
      <*> ms.optional "statements" View.nodes []
  | .doStatement =>
    Node.doStatement <$> ms.optional "statements" View.nodes []
      <*> ms.required "condition" View.node
  | .switchStatement =>
    Node.switchStatement <$> ms.required "condition" View.node
      <*> ms.optional "statements" View.nodes []
  | .caseStatement =>
    Node.caseStatement <$> ms.optional "is_default" View.flag false
      <*> ms.optional "test" (View.orNull View.node) none
      <*> ms.optional "statements" View.nodes []
  | .returnStatement =>
    Node.returnStatement <$> ms.optional "statement" (View.orNull View.node) none
  | .throwStatement => Node.throwStatement <$> ms.required "expression" View.node
  | .breakStatement => .valid .breakStatement
  | .continueStatement => .valid .continueStatement
  | .binaryExpression =>
    Node.binaryExpression <$> ms.required "operator" View.text
      <*> ms.required "left" View.node
      <*> ms.optional "right" (View.orNull View.node) none
  | .unaryExpression =>
    Node.unaryExpression <$> ms.required "operator" View.text
      <*> ms.required "expression" View.node
  | .updateExpression =>
    Node.updateExpression <$> ms.required "operator" View.text
      <*> ms.required "expression" View.node
      <*> ms.optional "is_postfix" View.flag true
  | .conditionalExpression =>
    Node.conditionalExpression <$> ms.required "test" View.node
      <*> ms.required "success" View.node
      <*> ms.required "failure" View.node
  | .assignmentExpression =>
    Node.assignmentExpression <$> ms.required "left" View.node
      <*> ms.required "operator" View.text
      <*> ms.required "right" View.node
  | .callExpression =>
    Node.callExpression <$> ms.required "object" View.node
      <*> ms.optional "args" View.nodes []
  | .parenthesizedExpression =>
    Node.parenthesizedExpression <$> ms.required "value" View.node
  | .path => Node.path <$> ms.steps
  | .index => Node.index <$> ms.required "expression" View.node
  | .reference => Node.reference <$> ms.required "name" View.text
  | .numberLiteral => Node.numberLiteral <$> ms.required "value" View.text
  | .booleanLiteral => Node.booleanLiteral <$> ms.required "value" View.text
  | .nullLiteral => .valid .nullLiteral
  | .stringLiteral => Node.stringLiteral <$> ms.required "value" View.text
  | .userDefinedLiteral => Node.userDefinedLiteral <$> ms.required "text" View.text

/-- A node of the kind that its members name. -/
def node (ms : Members) : Checked Node :=
  match member? "kind" ms with
  | none => .wrong .noKind
  | some v =>
    match v.word?.bind Kind.ofName? with
    | none => .wrong .unknownKind
    | some kind => (ms.fields kind).within (.field kind.name)

end Members

/-- Words that mean no, in any case of their letters. -/
def noWords : List String := ["0", "off", "f", "false", "n", "no"]

/-- Words that mean yes, in any case of their letters. -/
def yesWords : List String := ["1", "on", "t", "true", "y", "yes"]

def flagOfWord (s : String) : Checked Bool :=
  let lower := String.ofList (s.toList.map Char.toLower)
  if lower ∈ noWords then .valid false
  else if lower ∈ yesWords then .valid true
  else .wrong .unreadableFlag

/-- Zero is no and one is yes. -/
def flagOfNumber (n : Json.Number) : Checked Bool :=
  match n.int64? with
  | some 0 => .valid false
  | some 1 => .valid true
  | some _ => .wrong .unreadableFlag
  | none => .wrong .notFlag

namespace View

def ofElements (vs : List View) : View where
  nodes := .list 0 (vs.map View.node)
  declarators := .list 0 (vs.map View.declarator)
  parameters := .list 0 (vs.map View.parameter)
  choices := .list 0 (vs.map View.choice)

def ofMembers (ms : Members) : View where
  node := ms.node
  declarator := ms.declarator
  parameter := ms.parameter
  choice := ms.choice

end View

mutual
def view : Value → View
  | .null => { isNull := true }
  | .bool b => { flag := .valid b }
  | .number n => { flag := flagOfNumber n }
  | .string s => { word? := some s, text := .valid s, flag := flagOfWord s }
  | .array vs => .ofElements (viewAll vs)
  | .object ms => .ofMembers (viewMembers ms)

def viewAll : List Value → List View
  | [] => []
  | v :: vs => view v :: viewAll vs

def viewMembers : List (String × Value) → Members
  | [] => []
  | (key, v) :: rest => (key, view v) :: viewMembers rest
end

/-- The program that a value stands for. -/
def decode (v : Value) : Checked (List Node) := (view v).nodes

/-- The program of a document. -/
def load (document : String) : Checked (List Node) :=
  match Json.parse document with
  | some v => decode v
  | none => .wrong .invalidDocument

end Program
end Scribe
