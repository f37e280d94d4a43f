import Scribe.Reading.Kinds
import Scribe.Program.Checked
import Scribe.ParseTree
import Scribe.Text.Scoped

/-! The rules by which nodes of a parse tree are read, the results they give, and the
tables that say which kinds are read by which rule. -/
namespace Scribe
namespace Reading
open Program

/-- Each rule reads the children of one node from left to right. -/
inductive Rule where
  /-- The text of the node itself. -/
  | leaf
  | declaredName
  | functionDeclarator
  | wrappedFunction
  | parameterList
  | parameterDeclaration
  | namespaceDefinition
  | items
  | conditionalRegion
  | declaration
  | initDeclarator
  | functionDefinition
  | statements
  /-- At most one expression among tokens that are passed over. -/
  | optionalOperand (tokens : List String)
  /-- Exactly one expression among tokens that are passed over. -/
  | operand (tokens : List String)
  | ifChain
  | elseClause
  | forStatement
  | whileStatement
  | doStatement
  | switchStatement
  | caseStatement
  | concatenation
  | binaryExpression
  | unaryExpression
  | updateExpression
  | conditionalExpression
  | assignmentExpression
  | callExpression
  | arguments
  | fieldExpression
  | subscriptExpression

/-- The name and the parameters of a function. -/
structure Signature where
  name : String
  parameters : List Parameter

/-- A variable with its initial value, before its type is known. -/
structure Initialized where
  name : String
  init : Option Node

/-- A parameter as it is declared, perhaps without a name. -/
structure ParameterSlots where
  typeName : Option String := none
  name : Option String := none
  defaultValue : Option Node := none
  isConst : Bool := false
  isRef : Bool := false
  seenEquals : Bool := false

/-- The parameter at a position. A nameless one is named after its position, except that
a nameless one of type `void` is none. -/
def ParameterSlots.parameter? (s : ParameterSlots) (position : Nat) : Option Parameter :=
  match s.name with
  | some name => some ⟨name, s.typeName, s.defaultValue, s.isConst, s.isRef⟩
  | none =>
    if s.typeName = some "void" then none
    else some ⟨"arg" ++ toString position, s.typeName, s.defaultValue, s.isConst, s.isRef⟩

namespace Rule

/-- What a rule makes of a node. -/
def Result : Rule → Type
  | leaf => String
  | declaredName => String
  | functionDeclarator => Signature
  | wrappedFunction => Signature
  | parameterList => List Parameter
  | parameterDeclaration => ParameterSlots
  | namespaceDefinition => List Node
  | items => List Node
  | conditionalRegion => List Node
  | declaration => List Node
  | initDeclarator => Initialized
  | functionDefinition => Node
  | statements => List Node
  | optionalOperand _ => Option Node
  | operand _ => Node
  | ifChain => List Choice
  | elseClause => List Choice
  | forStatement => Node
  | whileStatement => Node
  | doStatement => Node
  | switchStatement => Node
  | caseStatement => Node
  | concatenation => Node
  | binaryExpression => Node
  | unaryExpression => Node
  | updateExpression => Node
  | conditionalExpression => Node
  | assignmentExpression => Node
  | callExpression => Node
  | arguments => List Node
  | fieldExpression => Node
  | subscriptExpression => Node

end Rule

/-- How a child is to be read: by which rule, and what to make of the result. A nested
child is read in a context of its own, the node around it; a direct one in the context that
this node is read in. -/
structure Plan (α : Type) where
  rule : Rule
  build : rule.Result → α
  isDirect : Bool

namespace Plan
variable {α β : Type}

abbrev nested (rule : Rule) (build : rule.Result → α) : Plan α := ⟨rule, build, false⟩

abbrev direct (rule : Rule) (build : rule.Result → α) : Plan α := ⟨rule, build, true⟩

def map (f : α → β) (p : Plan α) : Plan β := ⟨p.rule, f ∘ p.build, p.isDirect⟩

end Plan

/-- The kinds that declare a name, through any number of wrappers. -/
def nameRules : List (String × Plan String) :=
  [("identifier", .direct .leaf id),
    ("field_identifier", .direct .leaf id),
    ("qualified_identifier", .direct .leaf Text.flattenScopes),
    ("pointer_declarator", .direct .declaredName id),
    ("reference_declarator", .direct .declaredName id),
    ("array_declarator", .direct .declaredName id)]

def expressionRules : List (String × Plan Node) :=
  [("identifier", .nested .leaf .reference),
    ("field_identifier", .nested .leaf .reference),
    ("this", .nested .leaf .reference),
    ("qualified_identifier", .nested .leaf fun text => .reference (Text.flattenScopes text)),
    ("number_literal", .nested .leaf .numberLiteral),
    ("true", .nested .leaf fun _ => .booleanLiteral "true"),
    ("false", .nested .leaf fun _ => .booleanLiteral "false"),
    ("null", .nested .leaf fun _ => .nullLiteral),
    ("nullptr", .nested .leaf fun _ => .nullLiteral),
    ("string_literal", .nested .leaf .stringLiteral),
    ("char_literal", .nested .leaf .stringLiteral),
    ("raw_string_literal", .nested .leaf .stringLiteral),
    ("concatenated_string", .nested .concatenation id),
    ("user_defined_literal", .nested .leaf .userDefinedLiteral),
    ("binary_expression", .nested .binaryExpression id),
    ("unary_expression", .nested .unaryExpression id),
    ("update_expression", .nested .updateExpression id),
    ("parenthesized_expression", .nested (.operand ["(", ")"]) .parenthesizedExpression),
    ("conditional_expression", .nested .conditionalExpression id),
    ("assignment_expression", .nested .assignmentExpression id),
    ("call_expression", .nested .callExpression id),
    ("field_expression", .nested .fieldExpression id),
    ("subscript_expression", .nested .subscriptExpression id)]

/-- A statement may stand for several nodes, or for none. -/
def statementRules : List (String × Plan (List Node)) :=
  [("compound_statement", .nested .statements fun statements => [.block statements]),
    ("declaration", .nested .declaration id),
    ("expression_statement", .nested (.optionalOperand [";"]) Option.toList),
    ("if_statement", .nested .ifChain fun choices => [.ifStatement choices]),
    ("for_statement", .nested .forStatement List.singleton),
    ("while_statement", .nested .whileStatement List.singleton),
    ("do_statement", .nested .doStatement List.singleton),
    ("switch_statement", .nested .switchStatement List.singleton),
    ("case_statement", .nested .caseStatement List.singleton),
    ("return_statement",
      .nested (.optionalOperand ["return", ";"]) fun value => [.returnStatement value]),
    ("throw_statement", .nested (.operand ["throw", ";"]) fun value => [.throwStatement value]),
    ("break_statement", .nested .leaf fun _ => [.breakStatement]),
    ("continue_statement", .nested .leaf fun _ => [.continueStatement]),
    ("preproc_if", .nested .conditionalRegion id),
    ("preproc_ifdef", .nested .conditionalRegion id)]

/-- What only stands at the top of a file or in a namespace. -/
def itemRules : List (String × Plan (List Node)) :=
  [("namespace_definition", .nested .namespaceDefinition id),
    ("function_definition", .nested .functionDefinition List.singleton)]

/-- Every kind that is read by a rule of its own or left out as noise. -/
def handledKinds : List String :=
  expressionRules.map (·.1) ++ statementRules.map (·.1) ++ itemRules.map (·.1) ++ noiseKinds

def name? (kind : String) : Option (Plan String) := nameRules.lookup kind

def expression? (kind : String) : Option (Plan Node) := expressionRules.lookup kind

def statement? (kind : String) : Option (Plan (List Node)) := statementRules.lookup kind

def item? (kind : String) : Option (Plan (List Node)) :=
  match itemRules.lookup kind with
  | some plan => some plan
  | none => statement? kind

/-- The body of a control statement: its own braces are no block. -/
def body? (kind : String) : Option (Plan (List Node)) :=
  if kind = "compound_statement" then some (.nested .statements id) else statement? kind

/-- What follows an `else`: a further chain is spliced in, anything else is the last arm. -/
def alternative? (kind : String) : Option (Plan (List Choice)) :=
  if kind = "if_statement" then some (.nested .ifChain id)
  else (body? kind).map (Plan.map fun statements => [⟨none, statements⟩])

/-- A declarator that is known to declare a function. -/
def function (kind : String) : Plan Signature :=
  if kind = "function_declarator" then .direct .functionDeclarator id
  else .direct .wrappedFunction id

mutual
/-- Whether a function is declared, perhaps one that gives a pointer or a reference. -/
def declaresFunction : ParseTree → Bool
  | .node kind _ children =>
    kind == "function_declarator" ||
      decide (kind ∈ wrappingDeclarators) && anyDeclaresFunction children

def anyDeclaresFunction : List ParseTree → Bool
  | [] => false
  | c :: cs => declaresFunction c || anyDeclaresFunction cs
end

/-- What a rule may know of a child before it is read. -/
structure Head where
  kind : String
  text : String
  declaresFunction : Bool

def head (t : ParseTree) : Head := ⟨t.kind, t.text, declaresFunction t⟩

/-- What a rule does about a child, with a state of type `σ` to go on from. -/
inductive Action (σ : Type) where
  | keep (state : σ)
  | descend (plan : Plan σ)
  | reject
  /-- There is no place left that the child could stand in. -/
  | overrun

/-- Read the child if there is a plan for its kind. -/
def Action.expect {α σ : Type} (plan : Option (Plan α)) (build : α → σ) : Action σ :=
  match plan with
  | some p => .descend (p.map build)
  | none => .reject

/-- How a rule ends when there are no more children. -/
inductive Ending (α : Type) where
  | done (value : α)
  /-- Done, but the right operand of a binary expression is missing. -/
  | lacksRight (value : α)
  /-- Something that the node needs has not been found. -/
  | incomplete
  /-- A declarator declares no name. -/
  | nameless
  | noParts
  | noFunction
  /-- The value breaks a rule of its own. -/
  | invalid (problem : Problem)

namespace Ending
variable {α : Type}

/-- Done if there is a value. -/
def ofOption (otherwise : Ending α) : Option α → Ending α
  | some a => .done a
  | none => otherwise

/-- Done if there is no problem with the value. -/
def check (value : α) : Option Problem → Ending α
  | none => .done value
  | some problem => .invalid problem

end Ending

end Reading
end Scribe
