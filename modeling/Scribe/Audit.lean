import Scribe.Conversion
import Scribe.Text.WordSet

/-! Audits: which kinds of parse tree nodes occur in a file that no rule is for, and what
conversion fails on first. -/
namespace Scribe
namespace Audit

/-- Nodes whose children are read one after the other. -/
def blockKinds : List String :=
  ["translation_unit", "declaration_list", "compound_statement", "case_statement"]

/-- The kinds of the named nodes. -/
def namedKinds (root : ParseTree) : List String :=
  Text.wordSet ((root.walk.filter (·.isNamed)).map (·.kind))

/-- The kinds of the nodes that stand directly in a block. -/
def kindsInBlocks (root : ParseTree) : List String :=
  (root.walk.filter (·.kind ∈ blockKinds)).flatMap fun block => block.children.map (·.kind)

structure Findings where
  totalKinds : Nat
  handledCount : Nat
  /-- Kinds without a rule that only stand where their parent expects them. -/
  structural : List String
  /-- Kinds without a rule that stand in a block. -/
  substantive : List String
  firstFailure : Option Unsupported

def findings (root : ParseTree) (firstFailure : Option Unsupported) : Findings :=
  let kinds := namedKinds root
  let unhandled := kinds.filter (· ∉ Reading.handledKinds)
  let inBlocks := kindsInBlocks root
  { totalKinds := kinds.length
    handledCount := (kinds.filter (· ∈ Reading.handledKinds)).length
    structural := unhandled.filter (· ∉ inBlocks)
    substantive := unhandled.filter (· ∈ inBlocks)
    firstFailure }

/-- Audit a parse tree. A failure other than an unsupported construct is no finding. -/
def auditTree (root : ParseTree) : Except Conversion.Failure Findings :=
  match (Conversion.convertTree root).result with
  | .ok _ => .ok (findings root none)
  | .error cause =>
    match cause.unsupported? with
    | some u => .ok (findings root (some u))
    | none => .error cause

/-- Audit a file. -/
def audit (parser : Conversion.Parser) (source : String) :
    Except Conversion.Failure Findings := do
  auditTree (← (Conversion.parseTree parser Conversion.language source).result)

/-- A number in at least three columns. -/
def column (n : Nat) : String :=
  let digits := (toString n).toList
  String.ofList (List.replicate (3 - digits.length) ' ' ++ digits)

def report (name : String) (f : Findings) : List String :=
  ["", "=== AUDIT: " ++ name ++ " ===", "", "Pass 1 -- Dispatch table coverage:",
    "  CST kinds found in source:       " ++ column f.totalKinds,
    "  Handled (dispatch+noise):        " ++ column f.handledCount,
    "    Structural (slot-consumed):    " ++ column f.structural.length,
    "    Substantive (block-reachable): " ++ column f.substantive.length] ++
  f.substantive.map ("      - " ++ ·) ++
  ["", "Pass 2 -- Runtime conversion:",
    match f.firstFailure with
    | none => "  converted cleanly"
    | some u => "  " ++ u.message]

end Audit
end Scribe
