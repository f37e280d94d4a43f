import Scribe.Json.Value
import Scribe.Json.Escape

/-! Writing JSON documents: elements and members on lines of their own, two columns to the
right of what they belong to. -/
namespace Scribe
namespace Json

def newline (level : Nat) : List Char := '\n' :: List.replicate (2 * level) ' '

def intChars (n : Int) : List Char := (toString n).toList

def sign (negative : Bool) : List Char := if negative then ['-'] else []

def Number.chars : Number → List Char
  | .integer value => intChars value
  | .decimal negative mantissa exponent =>
    sign negative ++ (toString mantissa).toList ++ 'e' :: intChars exponent
  | .infinity negative => sign negative ++ "Infinity".toList
  | .undefined => "NaN".toList

mutual
def write (level : Nat) : Value → List Char
  | .null => "null".toList
  | .bool true => "true".toList
  | .bool false => "false".toList
  | .number n => n.chars
  | .string s => escape s
  | .array [] => ['[', ']']
  | .array (v :: vs) => '[' :: writeElements (level + 1) (v :: vs) ++ newline level ++ [']']
  | .object [] => ['\x7b', '\x7d']
  | .object (m :: ms) => '\x7b' :: writeMembers (level + 1) (m :: ms) ++ newline level ++ ['\x7d']

def writeElements (level : Nat) : List Value → List Char
  | [] => []
  | [v] => newline level ++ write level v
  | v :: w :: rest => newline level ++ write level v ++ ',' :: writeElements level (w :: rest)

def writeMembers (level : Nat) : List (String × Value) → List Char
  | [] => []
  | [(key, v)] => newline level ++ escape key ++ ':' :: ' ' :: write level v
  | (key, v) :: m :: rest =>
    newline level ++ escape key ++ ':' :: ' ' :: write level v ++
      ',' :: writeMembers level (m :: rest)
end

def render (v : Value) : String := String.ofList (write 0 v)

end Json
end Scribe
