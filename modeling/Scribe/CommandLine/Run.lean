import Scribe.CommandLine.Arguments
import Scribe.CommandLine.Folder
import Scribe.Conversion

/-! Runs of the command line. A run reads one file, converts it, and writes the result to
one place or fails without having written anything. -/
namespace Scribe
namespace CommandLine
open Conversion

/-- What a run has to work with. -/
structure World where
  /-- The content of the file at a path. -/
  read : (path : String) → Except FileFault ByteArray
  /-- The name of the file that writing to a path writes. -/
  target : (path : String) → Except FileFault String
  parser : Parser
  formatter : Formatter.Call → Formatter.Reply

/-- Causes that end a run without an exit status. -/
inductive Crash where
  | file (fault : FileFault)
  | conversion (cause : Failure)
deriving DecidableEq, Repr

inductive Ending where
  | exit (status : Nat)
  | crash (cause : Crash)
deriving DecidableEq, Repr

structure Run where
  ending : Ending
  output : String := ""
  errors : String := ""
  /-- The file that was written, by name. -/
  written : Option (String × String) := none
  events : List Event := []

/-- Line ends of other systems become plain ones. -/
def plainLines : List Char → List Char
  | [] => []
  | '\r' :: '\n' :: cs => '\n' :: plainLines cs
  | '\r' :: cs => '\n' :: plainLines cs
  | c :: cs => c :: plainLines cs

/-- The text of a file. -/
def readText (world : World) (path : String) : Except Crash String :=
  match world.read path with
  | .error fault => .error (.file fault)
  | .ok bytes =>
    match String.fromUTF8? bytes with
    | none => .error (.conversion .notUtf8)
    | some s => .ok (String.ofList (plainLines s.toList))

/-- The result that the options ask for; the tree goes before the formatted text. -/
def result (world : World) (options : Options) (source : String) : Job String :=
  if options.tree then dump world.parser source
  else if options.pretty then pretty world.parser world.formatter source
  else convert world.parser source

/-- The lines that a verbose run writes about events. -/
def eventLines (options : Options) (events : List Event) : String :=
  if options.verbose then
    Text.join "" ((events.filter (·.level = .info)).map (·.message ++ "\n"))
  else ""

/-- The end of a run that has a result. -/
def deliver (world : World) (options : Options) (events : List Event) (text : String) : Run :=
  match options.output with
  | none => toOutput
  | some path =>
    if path.isEmpty then toOutput
    else match world.target path with
      | .error fault =>
        { ending := .crash (.file fault), errors := eventLines options events, events }
      | .ok name =>
        let events := events ++ [.wrote path]
        { ending := .exit 0, errors := eventLines options events,
          written := some (name, text ++ "\n"), events }
where
  toOutput : Run :=
    { ending := .exit 0, output := text ++ "\n", errors := eventLines options events, events }

/-- A run with options that could be understood. -/
def runOptions (world : World) (options : Options) : Run :=
  match readText world options.file with
  | .error cause => { ending := .crash cause }
  | .ok source =>
    let job := result world options source
    match job.result with
    | .ok text => deliver world options job.record text
    | .error cause =>
      let errors := eventLines options job.record
      match cause.message? with
      | some message =>
        { ending := .exit 1, errors := errors ++ "error: " ++ message ++ "\n",
          events := job.record }
      | none => { ending := .crash (.conversion cause), errors, events := job.record }

def run (world : World) (arguments : List String) : Run :=
  match parse arguments with
  | .ok .help => { ending := .exit 0, output := helpText }
  | .ok (.run options) => runOptions world options
  | .error e => { ending := .exit 2, errors := usage ++ "cpp2ts: error: " ++ e.message ++ "\n" }

end CommandLine
end Scribe
