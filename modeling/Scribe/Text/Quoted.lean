import Scribe.Text.Hidden

/-! Texts in quotes, as they stand in messages. -/
namespace Scribe
namespace Text

def hexDigit (n : Nat) : Char :=
  if n < 10 then Char.ofNat (48 + n) else Char.ofNat (87 + n)

/-- The last `width` digits of `n` in base sixteen. -/
def hex : Nat → Nat → List Char
  | 0, _ => []
  | width + 1, n => hex width (n / 16) ++ [hexDigit (n % 16)]

/-- A character between quotes of the form `quote`. -/
def quotedChar (quote c : Char) : List Char :=
  if c = quote || c = '\\' then ['\\', c]
  else if c = '\n' then ['\\', 'n']
  else if c = '\r' then ['\\', 'r']
  else if c = '\t' then ['\\', 't']
  else if isHidden c then
    if c.toNat < 0x100 then '\\' :: 'x' :: hex 2 c.toNat
    else if c.toNat < 0x10000 then '\\' :: 'u' :: hex 4 c.toNat
    else '\\' :: 'U' :: hex 8 c.toNat
  else [c]

/-- The text in single quotes, or in double quotes when it holds single ones and no
double ones; hidden characters are written as escapes. -/
def quoted (s : String) : String :=
  let cs := s.toList
  let quote := if '\x27' ∈ cs && !decide ('"' ∈ cs) then '"' else '\x27'
  String.ofList (quote :: cs.flatMap (quotedChar quote) ++ [quote])

end Text
end Scribe
