import Scribe.Recorded
import Scribe.Unsupported

/-! What printing gives. Lines go to the segment that is being written; functions and the
members of namespaces open segments of their own. A failure takes nothing back that has
been written or opened. -/
namespace Scribe
namespace Printing

inductive Failure where
  | unsupported (cause : Unsupported)
  /-- A part of a conditional expression has no lines. -/
  | emptyPart
deriving DecidableEq, Repr

/-- A label without a value to test for, which is not the default one. -/
def Failure.missingTest : Failure := .unsupported ⟨"NoneType", "case_statement"⟩

abbrev Segment := List String

/-- A value worked out from printed parts; recorded are the segments opened meanwhile. -/
abbrev Draft (α : Type) := Recorded Segment Failure α

/-- What printing a node adds: lines to the segment that is being written, and segments
behind all others. -/
structure Printed where
  lines : List String
  opened : List Segment
  failure : Option Failure

namespace Printed

def none : Printed := ⟨[], [], .none⟩

def text (lines : List String) : Printed := ⟨lines, [], .none⟩

/-- One after the other, unless the first fails. -/
def append (x y : Printed) : Printed :=
  match x.failure with
  | .none => ⟨x.lines ++ y.lines, x.opened ++ y.opened, y.failure⟩
  | .some _ => x

def concat : List Printed → Printed
  | [] => none
  | x :: xs => x.append (concat xs)

/-- The lines for use in a larger piece, so that nothing of them stays after a failure. -/
def draft (x : Printed) : Draft (List String) :=
  match x.failure with
  | .none => ⟨x.opened, .ok x.lines⟩
  | .some e => ⟨x.opened, .error e⟩

/-- The same printed into a new segment. -/
def inSegment (x : Printed) : Printed := ⟨[], x.lines :: x.opened, x.failure⟩

end Printed

end Printing

/-- The lines are added all at once, or not at all. -/
def Recorded.printed (x : Printing.Draft (List String)) : Printing.Printed :=
  match x.result with
  | .ok lines => ⟨lines, x.record, .none⟩
  | .error e => ⟨[], x.record, .some e⟩

end Scribe
