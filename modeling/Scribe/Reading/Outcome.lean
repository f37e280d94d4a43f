import Scribe.Program.Checked
import Scribe.Recorded
import Scribe.Unsupported

/-! What comes of reading a parse tree. -/
namespace Scribe
namespace Reading

inductive Failure where
  | unsupported (cause : Unsupported)
  /-- A concatenation of string literals has none in it. -/
  | noParts
  /-- There is no function below a declarator that was taken to declare one. -/
  | noFunction
  /-- The places of a node have been left behind before its children ended. -/
  | overrun
  /-- A node was put together that breaks a rule of its own. -/
  | invalid (problem : Program.Problem)
deriving DecidableEq, Repr

/-- A value or a failure; recorded are the texts of binary expressions that were read
without a right operand. -/
abbrev Outcome (α : Type) := Recorded String Failure α

def Outcome.unsupported {α : Type} (kind context : String) : Outcome α :=
  .fail (.unsupported ⟨kind, context⟩)

/-- Work on a parse tree in a context, which is made up of the kinds of the nodes around,
from the inside out. It comes to an outcome, and to the context as it is then. -/
def Reader (α : Type) := List String → Outcome α × List String

namespace Reader
variable {α β : Type}

def ok (a : α) : Reader α := fun context => (.ok a, context)

def fail (e : Failure) : Reader α := fun context => (.fail e, context)

def bind (x : Reader α) (f : α → Reader β) : Reader β := fun context =>
  match x context with
  | (⟨record, .ok a⟩, after) =>
    let (rest, last) := f a after
    (⟨record ++ rest.record, rest.result⟩, last)
  | (⟨record, .error e⟩, after) => (⟨record, .error e⟩, after)

/-- Work inside a node of some kind. The node is left again, also after a failure. -/
def within (kind : String) (x : Reader α) : Reader α := fun context =>
  let (outcome, after) := x (kind :: context)
  (outcome, after.tail)

end Reader

end Reading
end Scribe
