import Scribe.Printing.Document

/-! Writing nodes down. A printer writes to the segments of a document and to sheets of its
own, whose lines go into larger pieces. What has been written stays when the printer fails, but
the context of the nodes it is at work on is left in any case. -/
namespace Scribe
namespace Printing
open Program Text

/-- What lines are written to: a segment of the document, or a sheet of the printer. -/
inductive Body where
  | segment (position : Nat)
  | sheet (number : Nat)
deriving DecidableEq, Repr

structure Desk where
  segments : List Segment
  sheets : List (List String)
  /-- The kinds of the nodes that are being written, from the inside out. -/
  context : List Kind

namespace Desk

def write (desk : Desk) (lines : List String) : Body → Desk
  | .segment i => { desk with segments := desk.segments.modify i (· ++ lines) }
  | .sheet i => { desk with sheets := desk.sheets.modify i (· ++ lines) }

def read (desk : Desk) : Body → List String
  | .segment i => (desk.segments[i]?).getD []
  | .sheet i => (desk.sheets[i]?).getD []

def enter (desk : Desk) (kind : Kind) : Desk := { desk with context := kind :: desk.context }

def leave (desk : Desk) : Desk := { desk with context := desk.context.tail }

end Desk

/-- The name of the innermost node that is being written. -/
def contextName : List Kind → String
  | [] => Unsupported.file
  | kind :: _ => kind.name

abbrev Writing := EStateM Failure Desk

namespace Writing

/-- A new segment behind all others. -/
def newSegment : Writing Body :=
  modifyGet fun desk =>
    (.segment desk.segments.length, { desk with segments := desk.segments ++ [[]] })

def newSheet : Writing Body :=
  modifyGet fun desk => (.sheet desk.sheets.length, { desk with sheets := desk.sheets ++ [[]] })

def write (lines : List String) (body : Body) : Writing Unit := modify (·.write lines body)

def contents (body : Body) : Writing (List String) := return (← get).read body

/-- The lines that are written to an empty sheet. -/
def onSheet (action : Body → Writing Unit) : Writing (List String) := do
  let sheet ← newSheet
  action sheet
  contents sheet

/-- The same on one line. -/
def inline (action : Body → Writing Unit) : Writing String := return oneLine (← onSheet action)

/-- Work on a node of some kind. -/
def within (kind : Kind) (action : Writing Unit) : Writing Unit := do
  modify (·.enter kind)
  try action finally modify Desk.leave

/-- Something of this kind cannot be written. -/
def refuse (kind : String) : Writing Unit := do
  throw (.unsupported ⟨kind, contextName (← get).context⟩)

/-- A function inside another one is written where it stands, others in segments of their own. -/
def functionBody (place : Place) (body : Body) : Writing Body :=
  match place.scope with
  | .function => pure body
  | _ => newSegment

/-- Variables behind one keyword. -/
def listed (declared : Writing (List (List String))) : Writing String :=
  return "let " ++ join ", " ((← declared).map oneLine)

def putConditional (test success failure : List String) (body : Body) : Writing Unit :=
  match conditionalLines test success failure with
  | some lines => write lines body
  | none => throw .emptyPart

end Writing

open Writing

mutual
/-- Write a node at a place. -/
def put (place : Place) (n : Node) (body : Body) : Writing Unit :=
  within n.kind <| match n with
  | .namespaceBlock name members => putMembers (place.enter name) members
  | .declaration declarators => putDeclarators place declarators body
  | .functionDefinition name parameters returnType statements => do
    let target ← functionBody place body
    let parameters ← parameterTexts place parameters
    let statements ← onSheet (putAll place.inFunction statements)
    write (braced [signature (place.declare name) parameters returnType] statements) target
  | .parameter p => putParameter place p body
  | .block statements => do
    let lines ← onSheet (putAll place statements)
    write ("\x7b" :: indent 1 lines ++ ["\x7d"]) body
  | .ifStatement choices => do
    let arms ← armsLines place choices
    write (chainLines arms) body
  | .forStatement init test update statements => do
    let init ← initTexts place init
    let test ← optionLines place test
    let update ← optionLines place update
    let statements ← onSheet (putAll place statements)
    write (braced [forHead init (test.map oneLine) (update.map oneLine)] statements) body
  | .whileStatement condition statements => do
    let condition ← onSheet (put place condition)
    let statements ← onSheet (putAll place statements)
    write (braced (wrap "while (" condition ")") statements) body
  | .doStatement statements condition => do
    write ["do \x7b"] body
    let lines ← onSheet (putAll place statements)
    write (indent 1 lines) body
    let lines ← onSheet (put place condition)
    write (wrap "\x7d while (" lines ")") body
  | .switchStatement condition statements => do
    let condition ← onSheet (put place condition)
    let statements ← onSheet (putAll place statements)
    write (braced (wrap "switch (" condition ")") statements) body
  | .caseStatement isDefault test statements => do
    putLabel place isDefault test body
    let lines ← onSheet (putAll place statements)
    write (indent 1 lines) body
  | .returnStatement none => write ["return"] body
  | .returnStatement (some value) => do
    let lines ← onSheet (put place value)
    write (wrap "return " lines "") body
  | .throwStatement value => do
    let lines ← onSheet (put place value)
    write (wrap "throw " lines "") body
  | .breakStatement => write ["break"] body
  | .continueStatement => write ["continue"] body
  | .binaryExpression operator left none => do
    let left ← onSheet (put place left)
    write [operatorSign operator ++ oneLine left] body
  | .binaryExpression operator left (some right) => do
    let left ← onSheet (put place left)
    let right ← onSheet (put place right)
    write [oneLine left ++ " " ++ operatorSign operator ++ " " ++ oneLine right] body
  | .unaryExpression operator value => do
    let lines ← onSheet (put place value)
    write [operatorSign operator ++ oneLine lines] body
  | .updateExpression operator value isPostfix => do
    let lines ← onSheet (put place value)
    write [if isPostfix then oneLine lines ++ operator else operator ++ oneLine lines] body
  | .conditionalExpression test success failure => do
    let test ← onSheet (put place test)
    let success ← onSheet (put place success)
    let failure ← onSheet (put place failure)
    putConditional test success failure body
  | .assignmentExpression left operator right => do
    let left ← onSheet (put place left)
    let right ← onSheet (put place right)
    write (wrap (oneLine left ++ " " ++ operator ++ " ") right "") body
  | .callExpression callee arguments => do
    let callee ← onSheet (put place callee)
    let arguments ← linesEach place arguments
    write (callLines (tight callee) arguments) body
  | .parenthesizedExpression value => do
    let lines ← onSheet (put place value)
    write ["(" ++ oneLine lines ++ ")"] body
  | .path steps => do
    let texts ← stepTexts place true steps
    write [join "" texts] body
  | .index value => do
    let lines ← onSheet (put place value)
    write ["[" ++ oneLine lines ++ "]"] body
  | .reference name => write [name] body
  | .numberLiteral value => write [numeral value] body
  | .booleanLiteral value => write [value] body
  | .nullLiteral => write ["null"] body
  | .stringLiteral value => write [value] body
  | .userDefinedLiteral text => write [text] body

def putAll (place : Place) (ns : List Node) (body : Body) : Writing Unit :=
  match ns with
  | [] => pure ()
  | n :: ns => do
    put place n body
    putAll place ns body

/-- Each node in a new segment. -/
def putMembers (place : Place) (ns : List Node) : Writing Unit :=
  match ns with
  | [] => pure ()
  | n :: ns => do
    let segment ← newSegment
    put place n segment
    putMembers place ns

def linesEach (place : Place) (ns : List Node) : Writing (List (List String)) :=
  match ns with
  | [] => pure []
  | n :: ns => do
    let lines ← onSheet (put place n)
    let rest ← linesEach place ns
    return lines :: rest

def optionLines (place : Place) (o : Option Node) : Writing (Option (List String)) :=
  match o with
  | none => pure none
  | some n => do
    let lines ← onSheet (put place n)
    return some lines

/-- A variable with its initial value, without keyword. -/
def declaratorLines (place : Place) (d : Declarator) : Writing (List String) :=
  match d with
  | ⟨name, typeName, none, _⟩ => pure [TypeName.annotate (place.declare name) typeName]
  | ⟨name, typeName, some init, _⟩ => do
    let lines ← onSheet (put place init)
    return wrap (TypeName.annotate (place.declare name) typeName ++ " = ") lines ""

def putDeclarators (place : Place) (ds : List Declarator) (body : Body) : Writing Unit :=
  match ds with
  | [] => pure ()
  | d :: ds => do
    let lines ← declaratorLines place d
    write (declare d lines) body
    putDeclarators place ds body

def declaratorsLines (place : Place) (ds : List Declarator) : Writing (List (List String)) :=
  match ds with
  | [] => pure []
  | d :: ds => do
    let lines ← declaratorLines place d
    let rest ← declaratorsLines place ds
    return lines :: rest

def putParameter (place : Place) (p : Parameter) (body : Body) : Writing Unit :=
  match p with
  | ⟨name, typeName, none, _, _⟩ => write [TypeName.annotate name typeName] body
  | ⟨name, typeName, some value, _, _⟩ => do
    let lines ← onSheet (put place value)
    write [TypeName.annotate name typeName ++ " = " ++ oneLine lines] body

def parameterTexts (place : Place) (ps : List Parameter) : Writing (List String) :=
  match ps with
  | [] => pure []
  | p :: ps => do
    let text ← inline fun sheet => within .parameter (putParameter place p sheet)
    let rest ← parameterTexts place ps
    return text :: rest

/-- The statements of an arm are written before its condition. -/
def armLines (place : Place) (c : Choice) : Writing (Option (List String) × List String) :=
  match c with
  | ⟨condition, statements⟩ => do
    let statements ← onSheet (putAll place statements)
    let condition ← optionLines place condition
    return (condition, statements)

def armsLines (place : Place) (cs : List Choice) :
    Writing (List (Option (List String) × List String)) :=
  match cs with
  | [] => pure []
  | c :: cs => do
    let arm ← armLines place c
    let rest ← armsLines place cs
    return arm :: rest

/-- What stands first in the head of a `for`. -/
def initTexts (place : Place) (ns : List Node) : Writing (List String) :=
  match ns with
  | [] => pure []
  | .declaration declarators :: ns => do
    let text ← listed (declaratorsLines place declarators)
    let rest ← initTexts place ns
    return text :: rest
  | n :: ns => do
    let text ← inline (put place n)
    let rest ← initTexts place ns
    return text :: rest

def putLabel (place : Place) (isDefault : Bool) (test : Option Node) (body : Body) :
    Writing Unit :=
  match isDefault, test with
  | true, _ => write ["default:"] body
  | false, none => refuse "NoneType"
  | false, some test => do
    let lines ← onSheet (put place test)
    write (wrap "case " lines ":") body

/-- The steps of a path; a name is set off by a dot from what is in front of it. -/
def stepTexts (place : Place) (isFirst : Bool) (ns : List Node) : Writing (List String) :=
  match ns with
  | [] => pure []
  | .reference name :: ns => do
    let rest ← stepTexts place false ns
    return (if isFirst then name else "." ++ name) :: rest
  | n :: ns => do
    let text ← inline (put place n)
    let rest ← stepTexts place false ns
    return text :: rest
end

/-- What a printer is asked for: a node, or something of a kind that nothing is known about,
inside nodes of the kinds around it, from the inside out. -/
inductive Task where
  | node (n : Node)
  | unknown (around : List Kind) (kind : String)

def Task.put (place : Place) (body : Body) : Task → Writing Unit
  | .node n => Printing.put place n body
  | .unknown around kind =>
    around.foldl (fun action around => within around action) (refuse kind)

/-- A printer keeps nothing from one call to the next but its context. -/
structure Printer where
  context : List Kind

structure Call where
  document : Document
  position : Fin document.segments.length
  place : Place
  task : Task

/-- Print into a new segment behind all others. -/
def Call.atEnd (d : Document) (place : Place) (task : Task) : Call :=
  ⟨d.openSegment [], ⟨d.segments.length, by simp [Document.openSegment]⟩, place, task⟩

structure Reply where
  failure : Option Failure
  document : Document
  printer : Printer

namespace Printer

def fresh : Printer := ⟨[]⟩

/-- Print into a segment of a document. -/
def answer (printer : Printer) (call : Call) : Reply :=
  let desk : Desk := ⟨call.document.segments, [], printer.context⟩
  match (call.task.put call.place (.segment call.position)).run desk with
  | .ok _ desk => ⟨none, ⟨desk.segments⟩, ⟨desk.context⟩⟩
  | .error e desk => ⟨some e, ⟨desk.segments⟩, ⟨desk.context⟩⟩

/-- The printer after some calls. -/
def after (printer : Printer) (calls : List Call) : Printer :=
  calls.foldl (fun printer call => (printer.answer call).printer) printer

/-- Print the nodes of a program, each into a new segment at the top. -/
def program (printer : Printer) (d : Document) : List Node → Except Failure Document
  | [] => .ok d
  | n :: ns =>
    let reply := printer.answer (.atEnd d .top (.node n))
    match reply.failure with
    | none => reply.printer.program reply.document ns
    | some e => .error e

end Printer

end Printing
end Scribe
