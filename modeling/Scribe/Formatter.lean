import Scribe.Text.Blank

/-! External formatters: programs that take a text and give it back in better shape. -/
namespace Scribe
namespace Formatter

/-- A program that is run with arguments on an input. -/
structure Call where
  command : List String
  input : String

/-- What became of a call. -/
inductive Reply where
  | notStarted (reason : String)
  | exited (status : Int) (output errors : String)
  /-- What the program wrote is no text. -/
  | notText

inductive Failure where
  | notStarted (program reason : String)
  | refused (status : Int) (errors : String)
  /-- The command is empty, so that there is no program to name. -/
  | noProgram
  | notText
deriving DecidableEq, Repr

/-- The words for a failure that is expected; they are the formatter's own if it has any. -/
def Failure.message? : Failure → Option String
  | .notStarted program reason => some ("could not run " ++ program ++ ": " ++ reason)
  | .refused status errors =>
    let words := Text.trim errors
    some (if words.isEmpty then "exit status " ++ toString status else words)
  | .noProgram => none
  | .notText => none

def defaultProgram : List String := ["npx", "prettier", "--stdin-filepath", "out.ts"]

def defaultOptions : List String :=
  ["--no-semi", "--single-quote", "--trailing-comma=all", "--print-width=72", "--tab-width=2",
    "--arrow-parens=avoid", "--quote-props=as-needed", "--bracket-spacing",
    "--prose-wrap=always", "--end-of-line=lf", "--single-attribute-per-line"]

def defaultCommand : List String := defaultProgram ++ defaultOptions

/-- The formatted text, from the reply to a call. -/
def result (call : Call) : Reply → Except Failure String
  | .notStarted reason =>
    match call.command with
    | program :: _ => .error (.notStarted program reason)
    | [] => .error .noProgram
  | .exited status output errors =>
    if status = 0 then .ok output else .error (.refused status errors)
  | .notText => .error .notText

end Formatter
end Scribe
