import Scribe.Text.Blank

/-! Groups of lines: indenting a group, gluing texts onto its two ends, and collapsing
it onto one line. -/
namespace Scribe
namespace Text

def indentation (levels : Nat) : String := String.ofList (List.replicate (2 * levels) ' ')

/-- Each line moved two columns to the right per level. -/
def indent (levels : Nat) (lines : List String) : List String :=
  lines.map (indentation levels ++ ·)

/-- Glue `suffix` onto the last line. -/
def closeWith (suffix : String) : List String → List String
  | [] => []
  | [line] => [line ++ suffix]
  | line :: next :: rest => line :: closeWith suffix (next :: rest)

theorem closeWith_empty (lines : List String) : closeWith "" lines = lines := by
  fun_induction closeWith "" lines with
  | case1 => rfl
  | case2 line => rw [String.append_empty]
  | case3 line next rest ih => rw [ih]

/-- Glue `opening` onto the first line and `suffix` onto the last one; a group without
lines becomes one line of the two. -/
def wrap (opening : String) (lines : List String) (suffix : String) : List String :=
  match lines with
  | [] => [opening ++ suffix]
  | first :: rest => closeWith suffix ((opening ++ first) :: rest)

def endsWithChar (c : Char) (s : String) : Bool := s.toList.getLast? == some c

def startsWithChar (c : Char) (s : String) : Bool := s.toList.head? == some c

/-- Put a trimmed line behind a text: after one space, but directly at the start, after
an opening parenthesis and before a closing one. -/
def glue (text line : String) : String :=
  if text.isEmpty || endsWithChar '(' text || startsWithChar ')' line then text ++ line
  else text ++ " " ++ line

/-- The group on one line. -/
def oneLine (lines : List String) : String := (lines.map trim).foldl glue ""

/-- The lines put behind one another, each without the blanks at its ends. -/
def tight (lines : List String) : String := join "" (lines.map trim)

end Text
end Scribe
