import Scribe.Reading.Outcome
import Scribe.Reading.Declarations
import Scribe.Reading.Statements
import Scribe.Reading.Expressions

/-! Reading parse trees. A rule goes over the children of a node from left to right with a
state of its own; a child is passed over, read by a further rule, or refused. A child that is
not read directly is read inside the node around it. Noise never reaches a rule. -/
namespace Scribe
namespace Reading
open Program

namespace Rule

/-- What a rule keeps in mind between two children. -/
def State : Rule → Type
  | leaf => Unit
  | declaredName => Option String
  | functionDeclarator => SignatureSlots
  | wrappedFunction => Option Signature
  | parameterList => List Parameter
  | parameterDeclaration => ParameterSlots
  | namespaceDefinition => NamespaceSlots
  | items => List Node
  | conditionalRegion => RegionSlots
  | declaration => DeclarationSlots
  | initDeclarator => InitSlots
  | functionDefinition => FunctionSlots
  | statements => List Node
  | optionalOperand _ => Option Node
  | operand _ => Option Node
  | ifChain => IfSlots
  | elseClause => Option (List Choice)
  | forStatement => ForSlots
  | whileStatement => WhileSlots
  | doStatement => DoSlots
  | switchStatement => SwitchSlots
  | caseStatement => CaseSlots
  | concatenation => List Node
  | binaryExpression => OperatorSlots
  | unaryExpression => UnarySlots
  | updateExpression => UpdateSlots
  | conditionalExpression => ConditionalSlots
  | assignmentExpression => OperatorSlots
  | callExpression => CallSlots
  | arguments => List Node
  | fieldExpression => FieldSlots
  | subscriptExpression => SubscriptSlots

def start : (rule : Rule) → rule.State
  | leaf => ()
  | declaredName => none
  | functionDeclarator => {}
  | wrappedFunction => none
  | parameterList => []
  | parameterDeclaration => {}
  | namespaceDefinition => {}
  | items => []
  | conditionalRegion => {}
  | declaration => {}
  | initDeclarator => {}
  | functionDefinition => {}
  | statements => []
  | optionalOperand _ => none
  | operand _ => none
  | ifChain => {}
  | elseClause => none
  | forStatement => {}
  | whileStatement => {}
  | doStatement => {}
  | switchStatement => {}
  | caseStatement => {}
  | concatenation => []
  | binaryExpression => {}
  | unaryExpression => {}
  | updateExpression => {}
  | conditionalExpression => {}
  | assignmentExpression => {}
  | callExpression => {}
  | arguments => []
  | fieldExpression => {}
  | subscriptExpression => {}

def step : (rule : Rule) → rule.State → Head → Action rule.State
  | leaf => fun s _ => .keep s
  | declaredName => stepDeclaredName
  | functionDeclarator => SignatureSlots.step
  | wrappedFunction => stepWrappedFunction
  | parameterList => stepParameterList
  | parameterDeclaration => ParameterSlots.step
  | namespaceDefinition => NamespaceSlots.step
  | items => stepItems
  | conditionalRegion => RegionSlots.step
  | declaration => DeclarationSlots.step
  | initDeclarator => InitSlots.step
  | functionDefinition => FunctionSlots.step
  | statements => stepStatements
  | optionalOperand tokens => stepOperand tokens
  | operand tokens => stepOperand tokens
  | ifChain => IfSlots.step
  | elseClause => stepElse
  | forStatement => ForSlots.step
  | whileStatement => WhileSlots.step
  | doStatement => DoSlots.step
  | switchStatement => SwitchSlots.step
  | caseStatement => CaseSlots.step
  | concatenation => stepConcatenation
  | binaryExpression => OperatorSlots.step binaryOperators
  | unaryExpression => UnarySlots.step
  | updateExpression => UpdateSlots.step
  | conditionalExpression => ConditionalSlots.step
  | assignmentExpression => OperatorSlots.step assignmentOperators
  | callExpression => CallSlots.step
  | arguments => stepArguments
  | fieldExpression => FieldSlots.step
  | subscriptExpression => SubscriptSlots.step

/-- The result for a node with the given text. -/
def finish (text : String) : (rule : Rule) → rule.State → Ending rule.Result
  | leaf => fun _ => .done text
  | declaredName => .ofOption .nameless
  | functionDeclarator => SignatureSlots.finish
  | wrappedFunction => .ofOption .noFunction
  | parameterList => .done
  | parameterDeclaration => .done
  | namespaceDefinition => NamespaceSlots.finish
  | items => .done
  | conditionalRegion => fun s => .done s.items
  | declaration => DeclarationSlots.finish
  | initDeclarator => InitSlots.finish
  | functionDefinition => FunctionSlots.finish
  | statements => .done
  | optionalOperand _ => .done
  | operand _ => .ofOption .incomplete
  | ifChain => IfSlots.finish
  | elseClause => finishElse
  | forStatement => ForSlots.finish
  | whileStatement => WhileSlots.finish
  | doStatement => DoSlots.finish
  | switchStatement => SwitchSlots.finish
  | caseStatement => CaseSlots.finish
  | concatenation => finishConcatenation
  | binaryExpression => OperatorSlots.finishBinary
  | unaryExpression => UnarySlots.finish
  | updateExpression => UpdateSlots.finish
  | conditionalExpression => ConditionalSlots.finish
  | assignmentExpression => OperatorSlots.finishAssignment
  | callExpression => CallSlots.finish
  | arguments => .done
  | fieldExpression => FieldSlots.finish
  | subscriptExpression => SubscriptSlots.finish

end Rule

/-- What ending a node comes to. A node that is not complete is reported in the innermost
context, a declarator without a name in the node that it stands in. -/
def Ending.outcome {α : Type} (kind text parent : String) (context : List String) :
    Ending α → Outcome α
  | .done a => .ok a
  | .lacksRight a => ⟨[text], .ok a⟩
  | .incomplete => .unsupported kind (context.head?.getD Unsupported.file)
  | .nameless => .unsupported kind parent
  | .noParts => .fail .noParts
  | .noFunction => .fail .noFunction
  | .invalid problem => .fail (.invalid problem)

mutual
/-- Read a node by a rule, where `parent` is the kind of the node that it stands in. -/
def visit (rule : Rule) (parent : String) : ParseTree → Reader rule.Result
  | .node kind text children =>
    (visitChildren rule kind rule.start children).bind fun state context =>
      ((rule.finish text state).outcome kind text parent context, context)

/-- Go over the children of a node of the given kind. -/
def visitChildren (rule : Rule) (kind : String) (state : rule.State) :
    List ParseTree → Reader rule.State
  | [] => .ok state
  | child :: rest =>
    if isNoise child.kind then visitChildren rule kind state rest
    else match rule.step state (head child) with
      | .keep next => visitChildren rule kind next rest
      | .descend plan =>
        let value := visit plan.rule kind child
        (if plan.isDirect then value else value.within kind).bind fun value =>
          visitChildren rule kind (plan.build value) rest
      | .reject => .fail (.unsupported ⟨child.kind, kind⟩)
      | .overrun => .fail .overrun
end

/-- What is read from a node by a rule, where `context` is all that there is around it. -/
def read (rule : Rule) (context : String) (tree : ParseTree) : Outcome rule.Result :=
  (visit rule context tree [context]).1

/-- The program of a whole file. -/
def readFile (root : ParseTree) : Outcome (List Node) :=
  if root.kind = "translation_unit" then read .items Unsupported.file root
  else .unsupported root.kind Unsupported.file

end Reading
end Scribe
