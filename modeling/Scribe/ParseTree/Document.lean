import Scribe.Json.Escape
import Scribe.Json.Value
import Scribe.ParseTree
import Scribe.Program.Checked

/-! Parse trees in JSON documents. A token is a string; any other node is an array of its
kind, its text and its children, where null stands for a missing text and bytes are given
in hexadecimal. -/
namespace Scribe
open Program
open Json (Value member?)

namespace RawTree

def bytesOfHex? : List Char → Option (List UInt8)
  | [] => some []
  | a :: b :: rest =>
    match Json.hexValue? a, Json.hexValue? b, bytesOfHex? rest with
    | some a, some b, some bytes => some ((16 * a + b).toUInt8 :: bytes)
    | _, _, _ => none
  | [_] => none

/-- The bytes of a text, if it is one. -/
def bytes? : Value → Option ByteArray
  | .string s => some s.toUTF8
  | .object ms =>
    match member? "hex" ms with
    | some (.string s) => (bytesOfHex? s.toList).map fun bytes => ⟨bytes.toArray⟩
    | _ => none
  | _ => none

mutual
def ofValue? : Value → Option RawTree
  | .string s => some (.node s (some s.toUTF8) [])
  | .array (.string kind :: .null :: children) => (ofValues? children).map (.node kind none)
  | .array (.string kind :: text :: children) =>
    match bytes? text, ofValues? children with
    | some bytes, some children => some (.node kind (some bytes) children)
    | _, _ => none
  | _ => none

def ofValues? : List Value → Option (List RawTree)
  | [] => some []
  | v :: vs =>
    match ofValue? v, ofValues? vs with
    | some t, some ts => some (t :: ts)
    | _, _ => none
end

end RawTree

namespace ParseTree

/-- A field that has to be a text. -/
def textField (name : String) : Value → Checked String
  | .string s => .valid s
  | _ => (Checked.wrong .notText).within (.field name)

/-- A node whose kind and text are given by values. -/
def checked (kind text : Value) (children : List ParseTree) : Checked ParseTree :=
  node <$> textField "kind" kind <*> textField "text" text <*> .valid children

/-- A node without children; a text that is not given is the kind. -/
def checkedLeaf (kind text : Value) : Checked ParseTree :=
  match text with
  | .null => checked kind kind []
  | _ => checked kind text []

end ParseTree
end Scribe
