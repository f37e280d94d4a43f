import Scribe.CommandLine.Run
import Scribe.Json.Reader
import Scribe.ParseTree.Document

/-! The command line. The source file is given by its path; the parse tree that a parser
made of it is read from standard input, as a JSON document. -/
open Scribe CommandLine

/-- The content of the file that the arguments name, or why there is none. -/
def readSource (arguments : List String) : IO (Except FileFault ByteArray) := do
  match parse arguments with
  | .ok (.run options) =>
    try
      return .ok (← IO.FS.readBinFile options.file)
    catch _ => return .error .missing
  | _ => return .error .missing

/-- The tree on standard input; anything else counts as a tree without a kind. -/
def readTree : IO RawTree := do
  let text ← (← IO.getStdin).readToEnd
  return ((Json.parse text).bind RawTree.ofValue?).getD (.node "" none [])

def main (arguments : List String) : IO UInt32 := do
  let source ← readSource arguments
  let tree ← match source with
    | .ok _ => readTree
    | .error _ => pure (.node "" none [])
  let run := CommandLine.run
    { read := fun _ => source
      target := .ok
      parser := fun _ _ => tree
      formatter := fun _ => .notStarted "no other programs are run" } arguments
  if let some (file, text) := run.written then
    IO.FS.writeFile file text
  IO.print run.output
  IO.eprint run.errors
  match run.ending with
  | .exit status => return status.toUInt32
  | .crash _ => throw (IO.userError "the file cannot be read or converted")
