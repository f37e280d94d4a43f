import Scribe.Printing.Draft
import Scribe.Printing.Place
import Scribe.Program.Node
import Scribe.Text.Lines
import Scribe.Text.Numeral
import Scribe.TypeName

/-! Printing programs. -/
namespace Scribe
namespace Printing
open Program Text

/-- Operators that are words in the source and signs in the output. -/
def operatorSigns : List (String × String) :=
  [("and", "&&"), ("or", "||"), ("not", "!"), ("bitand", "&"), ("bitor", "|"), ("xor", "^"),
    ("compl", "~")]

def operatorSign (operator : String) : String := (operatorSigns.lookup operator).getD operator

/-- A head and indented statements in braces. -/
def braced (head statements : List String) : List String :=
  wrap "" head " \x7b" ++ indent 1 statements ++ ["\x7d"]

/-- A variable behind its keyword; only an initialized one can be constant. -/
def declare (d : Declarator) (lines : List String) : List String :=
  wrap (if d.isConst && d.init.isSome then "const " else "let ") lines ""

def signature (name : String) (parameters : List String) (returnType : Option String) :
    String :=
  TypeName.annotate ("function " ++ name ++ "(" ++ join ", " parameters ++ ")") returnType

/-- The head of an arm, closing the arm before it. -/
def armHead (isFirst : Bool) : Option (List String) → List String
  | none => ["\x7d else \x7b"]
  | some condition => wrap (if isFirst then "if (" else "\x7d else if (") condition ") \x7b"

/-- A clause behind a space, or nothing. -/
def clause : Option String → String
  | some text => if text.isEmpty then "" else " " ++ text
  | none => ""

def forHead (init : List String) (test update : Option String) : String :=
  "for (" ++ join ", " init ++ ";" ++ clause test ++ ";" ++ clause update ++ ")"

/-- The three parts of a conditional expression, each with a first line. -/
def conditionalLines : List String → List String → List String → Option (List String)
  | t :: ts, s :: ss, f :: fs =>
    some (t :: indent 2 ts ++ (indentation 1 ++ "? " ++ s) :: indent 2 ss ++
      (indentation 1 ++ ": " ++ f) :: indent 2 fs)
  | _, _, _ => none

/-- Arguments on lines of their own, with commas between them. -/
def argumentLines : List (List String) → List String
  | [] => []
  | [argument] => indent 1 (wrap "" argument "")
  | argument :: next :: rest => indent 1 (wrap "" argument ",") ++ argumentLines (next :: rest)

/-- A call on one line, unless some argument does not have exactly one. -/
def callLines (callee : String) (arguments : List (List String)) : List String :=
  if arguments.all (·.length = 1) then
    [callee ++ "(" ++ join ", " arguments.flatten ++ ")"]
  else (callee ++ "(") :: argumentLines arguments ++ [")"]

/-- A step of a path; a name is set off by a dot from what is in front of it. -/
def stepText (isFirst : Bool) (step : Node) (printed : Printed) : Draft String :=
  match step with
  | .reference name => .ok (if isFirst then name else "." ++ name)
  | _ => printed.draft.map oneLine

/-- The steps of a path, each with its rendering. -/
def pathTexts : List (Node × Printed) → List (Draft String)
  | [] => []
  | (step, printed) :: rest =>
    stepText true step printed :: rest.map fun (step, printed) => stepText false step printed

/-- The arms of a chain, from their conditions and statements. -/
def chainLines : List (Option (List String) × List String) → List String
  | [] => ["\x7d"]
  | (condition, statements) :: rest =>
    armHead true condition ++ indent 1 statements ++
      rest.flatMap (fun (condition, statements) =>
        armHead false condition ++ indent 1 statements) ++ ["\x7d"]

mutual
/-- Print a node at a place. -/
def print (place : Place) : Node → Printed
  | .namespaceBlock name body =>
    .concat ((printAll (place.enter name) body).map Printed.inSegment)
  | .declaration declarators =>
    .concat (List.zipWith (fun d lines => (lines.map (declare d)).printed) declarators
      (printDeclarators place declarators))
  | .functionDefinition name parameters returnType body =>
    let lines := (Recorded.all (printParameters place parameters)).bind fun parameters =>
      (Printed.concat (printAll place.inFunction body)).draft.map
        (braced [signature (place.declare name) parameters returnType])
    match place.scope with
    | .function => lines.printed
    | _ => lines.printed.inSegment
  | .parameter ⟨name, typeName, none, _, _⟩ => .text [TypeName.annotate name typeName]
  | .parameter ⟨name, typeName, some value, _, _⟩ =>
    ((print place value).draft.map fun lines =>
      [TypeName.annotate name typeName ++ " = " ++ oneLine lines]).printed
  | .block statements =>
    ((Printed.concat (printAll place statements)).draft.map fun lines =>
      "\x7b" :: indent 1 lines ++ ["\x7d"]).printed
  | .ifStatement choices => ((Recorded.all (printChoices place choices)).map chainLines).printed
  | .forStatement init test update body =>
    ((Recorded.all (printInits place init)).bind fun init =>
      (Recorded.option (printOption place test)).bind fun test =>
        (Recorded.option (printOption place update)).bind fun update =>
          (Printed.concat (printAll place body)).draft.map
            (braced [forHead init (test.map oneLine) (update.map oneLine)])).printed
  | .whileStatement condition statements =>
    ((print place condition).draft.bind fun condition =>
      (Printed.concat (printAll place statements)).draft.map
        (braced (wrap "while (" condition ")"))).printed
  | .doStatement statements condition =>
    .concat [.text ["do \x7b"],
      ((Printed.concat (printAll place statements)).draft.map (indent 1)).printed,
      ((print place condition).draft.map fun lines => wrap "\x7d while (" lines ")").printed]
  | .switchStatement condition statements =>
    ((print place condition).draft.bind fun condition =>
      (Printed.concat (printAll place statements)).draft.map
        (braced (wrap "switch (" condition ")"))).printed
  | .caseStatement true _ statements =>
    .concat [.text ["default:"],
      ((Printed.concat (printAll place statements)).draft.map (indent 1)).printed]
  | .caseStatement false none _ => (Recorded.fail .missingTest).printed
  | .caseStatement false (some test) statements =>
    .concat [((print place test).draft.map fun lines => wrap "case " lines ":").printed,
      ((Printed.concat (printAll place statements)).draft.map (indent 1)).printed]
  | .returnStatement none => .text ["return"]
  | .returnStatement (some value) =>
    ((print place value).draft.map fun lines => wrap "return " lines "").printed
  | .throwStatement value =>
    ((print place value).draft.map fun lines => wrap "throw " lines "").printed
  | .breakStatement => .text ["break"]
  | .continueStatement => .text ["continue"]
  | .binaryExpression operator left none =>
    ((print place left).draft.map fun left => [operatorSign operator ++ oneLine left]).printed
  | .binaryExpression operator left (some right) =>
    ((print place left).draft.bind fun left =>
      (print place right).draft.map fun right =>
        [oneLine left ++ " " ++ operatorSign operator ++ " " ++ oneLine right]).printed
  | .unaryExpression operator value =>
    ((print place value).draft.map fun lines => [operatorSign operator ++ oneLine lines]).printed
  | .updateExpression operator value isPostfix =>
    ((print place value).draft.map fun lines =>
      [if isPostfix then oneLine lines ++ operator else operator ++ oneLine lines]).printed
  | .conditionalExpression test success failure =>
    ((print place test).draft.bind fun test =>
      (print place success).draft.bind fun success =>
        (print place failure).draft.bind fun failure =>
          match conditionalLines test success failure with
          | some lines => .ok lines
          | none => .fail .emptyPart).printed
  | .assignmentExpression left operator right =>
    ((print place left).draft.bind fun left =>
      (print place right).draft.map fun right =>
        wrap (oneLine left ++ " " ++ operator ++ " ") right "").printed
  | .callExpression callee arguments =>
    ((print place callee).draft.bind fun callee =>
      (Recorded.all ((printAll place arguments).map Printed.draft)).map
        (callLines (tight callee))).printed
  | .parenthesizedExpression value =>
    ((print place value).draft.map fun lines => ["(" ++ oneLine lines ++ ")"]).printed
  | .path steps =>
    ((Recorded.all (pathTexts (steps.zip (printAll place steps)))).map fun texts =>
      [join "" texts]).printed
  | .index value =>
    ((print place value).draft.map fun lines => ["[" ++ oneLine lines ++ "]"]).printed
  | .reference name => .text [name]
  | .numberLiteral value => .text [numeral value]
  | .booleanLiteral value => .text [value]
  | .nullLiteral => .text ["null"]
  | .stringLiteral value => .text [value]
  | .userDefinedLiteral text => .text [text]

def printAll (place : Place) : List Node → List Printed
  | [] => []
  | n :: ns => print place n :: printAll place ns

def printOption (place : Place) : Option Node → Option (Draft (List String))
  | none => none
  | some n => some (print place n).draft

/-- The variables of a declaration with their initial values, without keyword. -/
def printDeclarators (place : Place) : List Declarator → List (Draft (List String))
  | [] => []
  | ⟨name, typeName, none, _⟩ :: rest =>
    .ok [TypeName.annotate (place.declare name) typeName] :: printDeclarators place rest
  | ⟨name, typeName, some init, _⟩ :: rest =>
    ((print place init).draft.map fun lines =>
      wrap (TypeName.annotate (place.declare name) typeName ++ " = ") lines "") ::
        printDeclarators place rest

def printParameters (place : Place) : List Parameter → List (Draft String)
  | [] => []
  | ⟨name, typeName, none, _, _⟩ :: rest =>
    .ok (oneLine [TypeName.annotate name typeName]) :: printParameters place rest
  | ⟨name, typeName, some value, _, _⟩ :: rest =>
    ((print place value).draft.map fun lines =>
      oneLine [TypeName.annotate name typeName ++ " = " ++ oneLine lines]) ::
        printParameters place rest

/-- The arms of a chain; the statements of an arm are printed before its condition. -/
def printChoices (place : Place) :
    List Choice → List (Draft (Option (List String) × List String))
  | [] => []
  | ⟨condition, statements⟩ :: rest =>
    ((Printed.concat (printAll place statements)).draft.bind fun statements =>
      (Recorded.option (printOption place condition)).map fun condition =>
        (condition, statements)) :: printChoices place rest

/-- What stands first in the head of a `for`. -/
def printInits (place : Place) : List Node → List (Draft String)
  | [] => []
  | .declaration declarators :: rest =>
    ((Recorded.all (printDeclarators place declarators)).map fun texts =>
      "let " ++ join ", " (texts.map oneLine)) :: printInits place rest
  | n :: rest => (print place n).draft.map oneLine :: printInits place rest
end

end Printing
end Scribe
