import Scribe.Formatter
import Scribe.Printing.Document
import Scribe.Program.Encode
import Scribe.Program.Traversal
import Scribe.Reading.Reader
import Scribe.Text.Quoted

/-! Converting source texts: a parser gives the parse tree, which is read as a program and
printed. What happens on the way is recorded as events. -/
namespace Scribe
namespace Conversion
open Program

inductive Event where
  | converting (source : String)
  | normalizing (source : String)
  | parsed (language source : String)
  | lacksRight (text : String)
  | read (nodes : Nat)
  | counted (kinds : List (Kind × Nat))
  | printed (segments : Nat)
  | formatting (call : Formatter.Call)
  | wrote (file : String)

namespace Event

inductive Level where
  | debug
  | info
deriving DecidableEq, Repr

def level : Event → Level
  | converting _ => .info
  | normalizing _ => .info
  | wrote _ => .info
  | _ => .debug

/-- The part of the program that an event comes from. -/
def origin : Event → String
  | converting _ => "api"
  | normalizing _ => "api"
  | parsed _ _ => "parser"
  | lacksRight _ => "normalizer"
  | read _ => "normalizer"
  | counted _ => "api"
  | printed _ => "renderer"
  | formatting _ => "formatter"
  | wrote _ => "cli"

def countsText (kinds : List (Kind × Nat)) : String :=
  "\x7b" ++ Text.join ", " (kinds.map fun (kind, count) =>
    Text.quoted kind.name ++ ": " ++ toString count) ++ "\x7d"

def message : Event → String
  | converting source => "Converting source (" ++ toString source.length ++ " chars)"
  | normalizing source => "Normalizing source (" ++ toString source.length ++ " chars)"
  | parsed language source =>
    "Parsed " ++ toString source.utf8ByteSize ++ " bytes of " ++ language
  | lacksRight text => "binary_expression without right operand: " ++ Text.quoted text
  | read nodes => "Normalized " ++ toString nodes ++ " top-level nodes"
  | counted kinds => "Node kinds: " ++ countsText kinds
  | printed segments => "Rendered " ++ toString segments ++ " segments"
  | formatting call => "Running " ++ Text.join " " call.command
  | wrote file => "Wrote " ++ file

end Event

inductive Failure where
  /-- The parser broke off. -/
  | parsing (reason : String)
  | notUtf8
  | reading (cause : Reading.Failure)
  | printing (cause : Printing.Failure)
  | formatting (cause : Formatter.Failure)
deriving DecidableEq, Repr

namespace Failure

/-- The construct that could not be converted, if that was the cause. -/
def unsupported? : Failure → Option Unsupported
  | reading (.unsupported cause) => some cause
  | printing (.unsupported cause) => some cause
  | _ => none

/-- The words for a failure that is the input's or the formatter's fault; the others are
not expected and have none. -/
def message? : Failure → Option String
  | reading (.unsupported cause) => some cause.message
  | printing (.unsupported cause) => some cause.message
  | formatting cause => cause.message?
  | _ => none

end Failure

abbrev Job (α : Type) := Recorded Event Failure α

/-- What a parser makes of a text: a tree, unless it breaks off. -/
inductive Parsed where
  | tree (root : RawTree)
  | broken (reason : String)

namespace Parsed

instance : Coe RawTree Parsed := ⟨tree⟩

def node (kind : String) (text : Option ByteArray) (children : List RawTree) : Parsed :=
  tree (.node kind text children)

/-- The tree with its texts, if there is one and they are texts. -/
def decode? : Parsed → Option ParseTree
  | tree root => root.decode?
  | broken _ => none

end Parsed

/-- Parsers read a text in a language. -/
abbrev Parser := (language source : String) → Parsed

def language : String := "cpp"

def parseTree (parser : Parser) (language source : String) : Job ParseTree :=
  match parser language source with
  | .broken reason => .fail (.parsing reason)
  | .tree root => do
    .note (.parsed language source)
    match root.decode? with
    | some tree => return tree
    | none => .fail .notUtf8

theorem result_parseTree_of_tree {parser : Parser} {language source : String} {root : RawTree}
    (h : parser language source = .tree root) :
    (parseTree parser language source).result = root.decode?.elim (.error .notUtf8) .ok := by
  simp only [parseTree,h]
  cases root.decode? <;> rfl

theorem result_parseTree_of_broken {parser : Parser} {language source reason : String}
    (h : parser language source = .broken reason) :
    (parseTree parser language source).result = .error (.parsing reason) := by
  simp only [parseTree,h,Recorded.result_fail]

theorem Parsed.eq_tree_of_decode {parsed : Parsed} {tree : ParseTree}
    (h : parsed.decode? = some tree) : ∃ root, parsed = .tree root ∧ root.decode? = some tree := by
  cases parsed with
  | tree root => exact ⟨root,rfl,h⟩
  | broken reason => cases h

def readTree (tree : ParseTree) : Job (List Node) := do
  let program ← (Reading.readFile tree).relabel .lacksRight .reading
  .note (.read program.length)
  return program

theorem result_readTree (tree : ParseTree) :
    (readTree tree).result = (Reading.readFile tree).result.mapError .reading := by
  simp only [readTree,Recorded.result_do_bind,Recorded.result_relabel,Recorded.result_note,
    Recorded.result_pure]
  exact bind_pure _

def printNodes (program : List Node) : Job String :=
  match Printing.document program with
  | .ok document => do
    .note (.printed document.segments.length)
    return document.text
  | .error cause => .fail (.printing cause)

theorem result_printNodes (program : List Node) : (printNodes program).result =
    ((Printing.document program).map (·.text)).mapError .printing := by
  rw [printNodes]
  cases Printing.document program <;> rfl

def convertTree (tree : ParseTree) : Job String := do
  let program ← readTree tree
  .note (.counted (kindCounts program))
  printNodes program

theorem result_convertTree (tree : ParseTree) : (convertTree tree).result =
    (readTree tree).result >>= fun program => (printNodes program).result := by
  simp only [convertTree,Recorded.result_do_bind,Recorded.result_note]
  rfl

/-- The converted text. -/
def convert (parser : Parser) (source : String) : Job String := do
  .note (.converting source)
  convertTree (← parseTree parser language source)

theorem result_convert (parser : Parser) (source : String) : (convert parser source).result =
    (parseTree parser language source).result >>= fun tree => (convertTree tree).result := by
  simp only [convert,Recorded.result_do_bind,Recorded.result_note]
  rfl

/-- The program as a document. -/
def dump (parser : Parser) (source : String) : Job String := do
  .note (.normalizing source)
  let program ← readTree (← parseTree parser language source)
  return Program.dump program

theorem result_dump (parser : Parser) (source : String) : (dump parser source).result =
    (parseTree parser language source).result >>= fun tree =>
      (readTree tree).result >>= fun program => pure (Program.dump program) := by
  simp only [dump,Recorded.result_do_bind,Recorded.result_note,Recorded.result_pure]
  rfl

/-- Run a formatter on a text. -/
def format (command : List String) (run : Formatter.Call → Formatter.Reply) (text : String) :
    Job String := do
  let call : Formatter.Call := ⟨command, text⟩
  .note (.formatting call)
  match Formatter.result call (run call) with
  | .ok text => return text
  | .error cause => .fail (.formatting cause)

theorem result_format (command : List String) (run : Formatter.Call → Formatter.Reply)
    (text : String) : (format command run text).result =
      (Formatter.result ⟨command,text⟩ (run ⟨command,text⟩)).mapError .formatting := by
  rw [format]
  cases Formatter.result ⟨command,text⟩ (run ⟨command,text⟩) <;> rfl

/-- The converted text, formatted. -/
def pretty (parser : Parser) (run : Formatter.Call → Formatter.Reply) (source : String) :
    Job String := do
  format Formatter.defaultCommand run (← convert parser source)

theorem result_pretty (parser : Parser) (run : Formatter.Call → Formatter.Reply)
    (source : String) : (pretty parser run source).result =
      (convert parser source).result >>= fun text =>
        (format Formatter.defaultCommand run text).result :=
  Recorded.result_do_bind _ _

end Conversion
end Scribe
