/-! Numerals of the source language, respelled for the target language. -/
namespace Scribe
namespace Text

/-- The text without the characters of `letters` at its end; they are also found in
front of one final line break, which stays. -/
def dropLetters (letters : List Char) (cs : List Char) : List Char :=
  match cs.reverse with
  | '\n' :: rest => (rest.dropWhile (· ∈ letters)).reverse ++ ['\n']
  | rest => (rest.dropWhile (· ∈ letters)).reverse

def isOctalDigit (c : Char) : Bool := '0' ≤ c && c ≤ '7'

/-- The digits of an octal numeral: a zero, at most one separator, then octal digits
and separators, of which the first is a digit. -/
def octalDigits? : List Char → Option (List Char)
  | '0' :: '_' :: d :: ds => digits d ds
  | '0' :: d :: ds => digits d ds
  | _ => none
where
  digits (d : Char) (ds : List Char) : Option (List Char) :=
    if isOctalDigit d && ds.all (fun c => isOctalDigit c || c = '_') then some (d :: ds) else none

/-- Whether a base is written out in front: sixteen or two. -/
def hasBase : List Char → Bool
  | '0' :: c :: _ => c ∈ ['x', 'X', 'b', 'B']
  | _ => false

def numeralChars (cs : List Char) : List Char :=
  let cs := cs.map fun c => if c = '\x27' then '_' else c
  let cs :=
    if hasBase cs then dropLetters ['u', 'U', 'l', 'L', 'z', 'Z'] cs
    else
      let cs := dropLetters ['u', 'U', 'l', 'L', 'f', 'F', 'z', 'Z'] cs
      match octalDigits? cs with
      | some ds => '0' :: 'o' :: ds
      | none => cs
  match cs with
  | '.' :: _ => '0' :: cs
  | _ => cs

/-- Type letters at the end go, digits are separated by underscores, a fraction gets
its leading zero, and the base of an octal numeral is written out. -/
def numeral (s : String) : String := String.ofList (numeralChars s.toList)

end Text
end Scribe
