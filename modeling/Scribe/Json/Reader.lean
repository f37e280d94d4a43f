import Scribe.Json.Value
import Scribe.Json.Escape

/-! Reading JSON documents. -/
namespace Scribe
namespace Json

def isSpace (c : Char) : Bool := c = ' ' || c = '\t' || c = '\n' || c = '\r'

def skipSpace (cs : List Char) : List Char := cs.dropWhile isSpace

def digitsValue (ds : List Char) : Nat := ds.foldl (fun n d => 10 * n + (d.toNat - 48)) 0

/-- The text behind `word`, if the text starts with it. -/
def afterWord? (word : List Char) (cs : List Char) : Option (List Char) :=
  if word.isPrefixOf cs then some (cs.drop word.length) else none

/-- Digits, at least one, and what follows them. -/
def readDigits (cs : List Char) : Option (List Char × List Char) :=
  let ds := cs.takeWhile Char.isDigit
  if ds.isEmpty then none else some (ds, cs.drop ds.length)

/-- The digits behind a point, if there is one. -/
def readFraction : List Char → Option (Option (List Char) × List Char)
  | '.' :: rest => (readDigits rest).map fun (ds, rest) => (some ds, rest)
  | rest => some (none, rest)

/-- The value behind an exponent mark, if there is one. -/
def readExponent : List Char → Option (Option Int × List Char)
  | c :: rest =>
    if c = 'e' || c = 'E' then
      match rest with
      | '-' :: rest => (readDigits rest).map fun (ds, rest) => (some (-(digitsValue ds : Int)), rest)
      | '+' :: rest => (readDigits rest).map fun (ds, rest) => (some (digitsValue ds : Int), rest)
      | rest => (readDigits rest).map fun (ds, rest) => (some (digitsValue ds : Int), rest)
    else some (none, c :: rest)
  | [] => some (none, [])

/-- Numbers with more digits than this before the fraction and the exponent are refused. -/
def maxIntegerDigits : Nat := 4300

/-- A number without its sign. A zero in front stands alone. -/
def readMagnitude (negative : Bool) (cs : List Char) : Option (Number × List Char) :=
  match afterWord? "Infinity".toList cs with
  | some rest => some (.infinity negative, rest)
  | none =>
    match readDigits cs with
    | none => none
    | some (ds, rest) =>
      if ds.head? = some '0' && ds.length ≠ 1 then none
      else if maxIntegerDigits < ds.length then none
      else
        match readFraction rest with
        | none => none
        | some (fraction, rest) =>
          match readExponent rest with
          | none => none
          | some (exponent, rest) =>
            match fraction, exponent with
            | none, none =>
              let n : Int := digitsValue ds
              some (.integer (if negative then -n else n), rest)
            | _, _ =>
              let fs := fraction.getD []
              some (.decimal negative (digitsValue (ds ++ fs)) (exponent.getD 0 - fs.length), rest)

def readNumber (cs : List Char) : Option (Number × List Char) :=
  match cs with
  | '-' :: rest => readMagnitude true rest
  | _ =>
    match afterWord? "NaN".toList cs with
    | some rest => some (.undefined, rest)
    | none => readMagnitude false cs

mutual
/-- Read a value; `fuel` bounds the number of steps. -/
def readValue : Nat → List Char → Option (Value × List Char)
  | 0, _ => none
  | fuel + 1, cs =>
    match skipSpace cs with
    | 'n' :: 'u' :: 'l' :: 'l' :: rest => some (.null, rest)
    | 't' :: 'r' :: 'u' :: 'e' :: rest => some (.bool true, rest)
    | 'f' :: 'a' :: 'l' :: 's' :: 'e' :: rest => some (.bool false, rest)
    | '"' :: rest => (readString rest).map fun (s, rest) => (.string (String.ofList s), rest)
    | '[' :: rest =>
      match skipSpace rest with
      | ']' :: rest => some (.array [], rest)
      | rest => (readElements fuel rest).map fun (vs, rest) => (.array vs, rest)
    | '\x7b' :: rest =>
      match skipSpace rest with
      | '\x7d' :: rest => some (.object [], rest)
      | rest => (readMembers fuel rest).map fun (ms, rest) => (.object ms, rest)
    | cs => (readNumber cs).map fun (n, rest) => (.number n, rest)

/-- Read the elements of an array, at least one, up to the closing bracket. -/
def readElements : Nat → List Char → Option (List Value × List Char)
  | 0, _ => none
  | fuel + 1, cs =>
    match readValue fuel cs with
    | none => none
    | some (v, rest) =>
      match skipSpace rest with
      | ',' :: rest => (readElements fuel rest).map fun (vs, rest) => (v :: vs, rest)
      | ']' :: rest => some ([v], rest)
      | _ => none

/-- Read the members of an object, at least one, up to the closing brace. -/
def readMembers : Nat → List Char → Option (List (String × Value) × List Char)
  | 0, _ => none
  | fuel + 1, cs =>
    match skipSpace cs with
    | '"' :: rest =>
      match readString rest with
      | none => none
      | some (key, rest) =>
        match skipSpace rest with
        | ':' :: rest =>
          match readValue fuel rest with
          | none => none
          | some (v, rest) =>
            match skipSpace rest with
            | ',' :: rest =>
              (readMembers fuel rest).map fun (ms, rest) => ((String.ofList key, v) :: ms, rest)
            | '\x7d' :: rest => some ([(String.ofList key, v)], rest)
            | _ => none
        | _ => none
    | _ => none
end

def parseChars (cs : List Char) : Option Value :=
  match readValue (2 * cs.length + 2) cs with
  | some (v, rest) => if (skipSpace rest).isEmpty then some v else none
  | none => none

/-- The value of a document that holds exactly one. -/
def parse (s : String) : Option Value := parseChars s.toList

end Json
end Scribe
