import Scribe.Text.Blank
import Scribe.Text.Digit
import Scribe.Text.Quoted

/-! Arguments of the command line: one file, and options in long and short spellings that
stand anywhere before a double dash.

The grammar of attached text is the earlier of the two that parsers of such options have
had. In it, an attached double dash is no value (`--output=--` writes to no file), an equals
sign counts only behind the first of several short options and is text behind a later one
(`-v=o z` writes to `z`, `-vo=z` to `=z`), and a letter that is no option refuses all that is
attached (`-vx` is refused for a value `x` of `-v`). The later grammar writes to `--`, refuses
`-v=o` for a value of `-v`, writes `-vo=z` to `z`, and refuses `-vx` for an unknown `-x`. -/
namespace Scribe
namespace CommandLine

inductive Flag where
  | help
  | output
  | pretty
  | tree
  | verbose
deriving DecidableEq, Repr

namespace Flag

/-- Only the output takes a value. -/
def takesValue (flag : Flag) : Bool := flag = output

def spellings : List (String × Flag) :=
  [("-h", help), ("--help", help), ("--output", output), ("-o", output), ("--pretty", pretty),
    ("--tree", tree), ("--verbose", verbose), ("-v", verbose)]

def ofSpelling? (s : String) : Option Flag := spellings.lookup s

/-- All spellings of an option, as messages give them. -/
def name (flag : Flag) : String :=
  Text.join "/" ((spellings.filter (·.2 = flag)).map (·.1))

end Flag

inductive UsageError where
  | fileRequired
  | unrecognized (arguments : List String)
  | valueRequired (flag : Flag)
  | valueIgnored (flag : Flag) (value : String)
  | ambiguous (argument : String) (spellings : List String)
deriving DecidableEq, Repr

def UsageError.message : UsageError → String
  | .fileRequired => "the following arguments are required: file"
  | .unrecognized arguments => "unrecognized arguments: " ++ Text.join " " arguments
  | .valueRequired flag => "argument " ++ flag.name ++ ": expected one argument"
  | .valueIgnored flag value =>
    "argument " ++ flag.name ++ ": ignored explicit argument " ++ Text.quoted value
  | .ambiguous argument spellings =>
    "ambiguous option: " ++ argument ++ " could match " ++ Text.join ", " spellings

/-- An argument by its form. -/
inductive Token where
  | word (text : String)
  /-- An option; `attached` is what stands in the same argument behind it. -/
  | flag (flag : Flag) (isLong : Bool) (attached : Option (List Char))
  | unknown (text : String)
  /-- The first double dash, behind which there are only words. -/
  | doubleDash

/-- A negative number, perhaps with a fraction, in the digits of any script; one line
break may follow it. -/
def isNegativeNumber (cs : List Char) : Bool :=
  match cs with
  | '-' :: rest =>
    let rest := if rest.getLast? = some '\n' then rest.dropLast else rest
    let whole := rest.takeWhile Text.isDecimalDigit
    match rest.drop whole.length with
    | [] => !whole.isEmpty
    | '.' :: fraction => !fraction.isEmpty && fraction.all Text.isDecimalDigit
    | _ => false
  | _ => false

/-- What stands before the first equals sign, and what behind it if there is one. -/
def cutEquals : List Char → List Char × Option (List Char)
  | [] => ([], none)
  | '=' :: cs => ([], some cs)
  | c :: cs =>
    let (before, behind) := cutEquals cs
    (c :: before, behind)

/-- An argument that is no option of any spelling. -/
def otherToken (s : String) : Token :=
  if isNegativeNumber s.toList || ' ' ∈ s.toList then .word s else .unknown s

/-- The form of an argument. A long option may be cut short as long as it can only mean
one; a short one may have a value or further short ones attached. -/
def token (s : String) : Except UsageError Token :=
  match s.toList with
  | '-' :: second :: rest =>
    match Flag.ofSpelling? s with
    | some flag => .ok (.flag flag (second = '-') none)
    | none =>
      let (before, behind) := cutEquals s.toList
      match behind, Flag.ofSpelling? (String.ofList before) with
      | some value, some flag => .ok (.flag flag (second = '-') (some value))
      | _, _ =>
        if second = '-' then
          match Flag.spellings.filter (before.isPrefixOf ·.1.toList) with
          | [] => .ok (otherToken s)
          | [(_, flag)] => .ok (.flag flag true behind)
          | several => .error (.ambiguous s (several.map (·.1)))
        else
          match Flag.ofSpelling? (String.ofList ['-', second]) with
          | some flag => .ok (.flag flag false (some rest))
          | none => .ok (otherToken s)
  | _ => .ok (.word s)

/-- The forms of all arguments. -/
def tokens : List String → Except UsageError (List Token)
  | [] => .ok []
  | s :: rest =>
    if s = "--" then .ok (.doubleDash :: rest.map .word)
    else do
      let t ← token s
      return t :: (← tokens rest)

/-- What one argument asks for. -/
inductive Request where
  | set (flag : Flag)
  | write (file : Option String)
  /-- The value of the output is the next argument. -/
  | writeNext
  | leave (argument : String)

def request (flag : Flag) : Request := if flag.takesValue then .writeNext else .set flag

/-- The output goes to the file that is attached to the option; a double dash is no file
in the earlier grammar, and takes back the one that was given before. -/
def writeAttached (cs : List Char) : Request :=
  .write (if cs = ['-', '-'] then none else some (String.ofList cs))

/-- Take a short option apart from what is attached to it: its value, or further short
options. An equals sign is cut off by `token` alone, so in here it is a letter like others. -/
def cluster (flag : Flag) : List Char → Except UsageError (List Request)
  | [] =>
    if flag.takesValue then .ok [writeAttached []] else .error (.valueIgnored flag "")
  | c :: rest =>
    if flag.takesValue then .ok [writeAttached (c :: rest)]
    else
      match Flag.ofSpelling? (String.ofList ['-', c]), rest with
      | none, _ => .error (.valueIgnored flag (String.ofList (c :: rest)))
      | some next, [] => .ok [.set flag, request next]
      | some next, d :: rest => return .set flag :: (← cluster next (d :: rest))

/-- All that an option with its attached text asks for. -/
def requests (flag : Flag) (isLong : Bool) :
    Option (List Char) → Except UsageError (List Request)
  | none => .ok [request flag]
  | some attached =>
    if !isLong then cluster flag attached
    else if flag.takesValue then .ok [writeAttached attached]
    else .error (.valueIgnored flag (String.ofList attached))

structure Options where
  file : String
  output : Option String
  pretty : Bool
  tree : Bool
  verbose : Bool
deriving DecidableEq, Repr

/-- What has been gathered from the arguments so far. -/
structure Gathered where
  file : Option String := none
  output : Option String := none
  pretty : Bool := false
  tree : Bool := false
  verbose : Bool := false
  help : Bool := false
  leftover : List String := []
  /-- The argument before this one was taken as the file. -/
  justFile : Bool := false

namespace Gathered

def set (g : Gathered) : Flag → Gathered
  | .help => { g with help := true }
  | .pretty => { g with pretty := true }
  | .tree => { g with tree := true }
  | .verbose => { g with verbose := true }
  | .output => g

def apply (g : Gathered) : Request → Gathered
  | .set flag => g.set flag
  | .write file => { g with output := file }
  | .writeNext => g
  | .leave argument => { g with leftover := g.leftover ++ [argument] }

def applyAll (g : Gathered) (rs : List Request) : Gathered :=
  rs.foldl apply { g with justFile := false }

/-- A word is the file, unless there is one. -/
def word (g : Gathered) (text : String) : Gathered :=
  match g.file with
  | none => { g with file := some text, justFile := true }
  | some _ => { g with leftover := g.leftover ++ [text], justFile := false }

/-- A double dash next to the file is passed over. -/
def doubleDash (g : Gathered) : Gathered :=
  if g.file.isNone || g.justFile then { g with justFile := false }
  else { g with leftover := g.leftover ++ ["--"] }

end Gathered

def awaitsValue (rs : List Request) : Bool :=
  match rs.getLast? with
  | some .writeNext => true
  | _ => false

/-- Go over the arguments from left to right. A request for help ends this. -/
def gather (g : Gathered) : List Token → Except UsageError Gathered
  | [] => .ok g
  | .word text :: rest => gather (g.word text) rest
  | .doubleDash :: rest => gather g.doubleDash rest
  | .unknown text :: rest => gather (g.applyAll [.leave text]) rest
  | .flag flag isLong attached :: rest =>
    match requests flag isLong attached with
    | .error e => .error e
    | .ok rs =>
      if awaitsValue rs then
        match rest with
        | .word text :: rest =>
          let g := g.applyAll (rs ++ [.write (some text)])
          if g.help then .ok g else gather g rest
        | _ => .error (.valueRequired .output)
      else
        let g := g.applyAll rs
        if g.help then .ok g else gather g rest

inductive Command where
  | help
  | run (options : Options)
deriving DecidableEq, Repr

def Gathered.command (g : Gathered) : Except UsageError Command :=
  if g.help then .ok .help
  else match g.file with
    | none => .error .fileRequired
    | some file =>
      if g.leftover.isEmpty then .ok (.run ⟨file, g.output, g.pretty, g.tree, g.verbose⟩)
      else .error (.unrecognized g.leftover)

def parse (arguments : List String) : Except UsageError Command := do
  (← gather {} (← tokens arguments)).command

def usage : String :=
  "usage: cpp2ts [-h] [--output OUTPUT] [--pretty] [--tree] [--verbose] file\n"

def helpText : String :=
  usage ++ "\nConvert C++ source to TypeScript\n\npositional arguments:\n" ++
  "  file                  C++ source file to convert\n\noptions:\n" ++
  "  -h, --help            show this help message and exit\n" ++
  "  --output OUTPUT, -o OUTPUT\n" ++
  "                        Write the result here instead of stdout\n" ++
  "  --pretty              Run the output through prettier\n" ++
  "  --tree                Print the normalized tree as JSON instead\n" ++
  "  --verbose, -v         Log pipeline progress\n"

end CommandLine
end Scribe
