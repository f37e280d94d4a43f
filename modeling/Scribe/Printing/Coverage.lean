import Scribe.Program.Kind
import Scribe.Text.Quoted
import Scribe.Text.Blank
import Scribe.Text.WordSet

/-! Whether a table of printers covers exactly the kinds of nodes. -/
namespace Scribe
namespace Printing
open Program

/-- Kinds that a table lacks, and entries of it that are no kinds, in order. -/
structure Mismatch where
  lacking : List String
  unexpected : List String
deriving DecidableEq, Repr

def quotedList (words : List String) : String :=
  "[" ++ Text.join ", " (words.map Text.quoted) ++ "]"

def Mismatch.message (m : Mismatch) : String :=
  "Renderer dispatch missing " ++ quotedList m.lacking ++ ", unexpected " ++
    quotedList m.unexpected

/-- What is wrong with a table that has the given entries, if anything. -/
def mismatch? (entries : List String) : Option Mismatch :=
  let kinds := Kind.all.map Kind.name
  let m : Mismatch :=
    ⟨Text.wordSet (kinds.filter (· ∉ entries)), Text.wordSet (entries.filter (· ∉ kinds))⟩
  if m.lacking.isEmpty && m.unexpected.isEmpty then none else some m

end Printing
end Scribe
