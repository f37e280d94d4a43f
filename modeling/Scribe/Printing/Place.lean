import Scribe.Text.Blank

/-! Where a node is printed, and what that means for the names it declares. -/
namespace Scribe
namespace Printing

inductive Scope where
  | none
  | namespaceMember
  | function
deriving DecidableEq, Repr

structure Place where
  /-- The names of the namespaces around, from the outside in. -/
  path : List String
  scope : Scope

namespace Place

def top : Place := ⟨[], .none⟩

def enter (place : Place) (name : String) : Place :=
  ⟨place.path ++ [name], .namespaceMember⟩

def inFunction (place : Place) : Place := ⟨place.path, .function⟩

/-- The name under which something is declared: a member of a namespace carries the names
of the namespaces in front. -/
def declare (place : Place) (name : String) : String :=
  match place.scope with
  | .namespaceMember => Text.join "_" (place.path ++ [name])
  | _ => name

end Place
end Printing
end Scribe
