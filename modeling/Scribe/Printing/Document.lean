import Scribe.Printing.Printer

/-! Documents: the segments that printing fills and opens, in order. -/
namespace Scribe
namespace Printing
open Program

structure Document where
  segments : List Segment

namespace Document

def empty : Document := ⟨[]⟩

/-- The lines of the segments that have any. -/
def text (d : Document) : String :=
  Text.join "\n" ((d.segments.filter (!·.isEmpty)).map (Text.join "\n"))

def openSegment (d : Document) (lines : List String) : Document := ⟨d.segments ++ [lines]⟩

/-- Add what was printed to the segment at a position. -/
def add (d : Document) (position : Nat) (p : Printed) : Document :=
  ⟨d.segments.modify position (· ++ p.lines) ++ p.opened⟩

end Document

/-- What a program is printed as: each of its nodes in a new segment at the top. -/
def printProgram (program : List Node) : Printed :=
  .concat ((printAll .top program).map Printed.inSegment)

/-- A node of a kind that nothing is known about cannot be printed. -/
def printUnknown (kind context : String) : Printed :=
  (Recorded.fail (.unsupported ⟨kind, context⟩)).printed

/-- The document of a program. -/
def document (program : List Node) : Except Failure Document :=
  let p := printProgram program
  match p.failure with
  | none => .ok ⟨p.opened⟩
  | some e => .error e

end Printing
end Scribe
