import Scribe.Program.Node

/-! Values that were checked: they are valid, or there is a list of all that is wrong. -/
namespace Scribe
namespace Program

/-- A step on the way from a document to a place in it. -/
inductive Step where
  | index (position : Nat)
  | field (name : String)
deriving DecidableEq, Repr

inductive Problem where
  | invalidDocument
  | notList
  | notNode
  | notRecord
  | noKind
  | unknownKind
  | wrongKind
  | missing
  | notText
  | notFlag
  | unreadableFlag
  | brokenChain (fault : ChainFault)
  | emptyPath
deriving DecidableEq, Repr

namespace Problem

def code : Problem → String
  | invalidDocument => "json_invalid"
  | notList => "list_type"
  | notNode => "dict_type"
  | notRecord => "model_type"
  | noKind => "union_tag_not_found"
  | unknownKind => "union_tag_invalid"
  | wrongKind => "literal_error"
  | missing => "missing"
  | notText => "string_type"
  | notFlag => "bool_type"
  | unreadableFlag => "bool_parsing"
  | brokenChain _ => "value_error"
  | emptyPath => "value_error"

/-- The rule that a value with valid fields breaks. -/
def message? : Problem → Option String
  | brokenChain .noFirstCondition =>
    some "Value error, an if statement starts with a conditioned choice"
  | brokenChain .earlyElse =>
    some "Value error, an unconditioned else must be the last choice"
  | emptyPath => some "Value error, a path needs at least one step"
  | _ => none

end Problem

/-- What is wrong with the chain of an `if` statement. -/
def chainProblem? (choices : List Choice) : Option Problem :=
  (chainFault? choices).map .brokenChain

/-- A path has at least one step. -/
def pathProblem? (steps : List Node) : Option Problem :=
  if steps.isEmpty then some .emptyPath else none

theorem chainProblem?_eq_none {choices : List Choice} :
    chainProblem? choices = none ↔ chainFault? choices = none :=
  Option.map_eq_none_iff

theorem pathProblem?_eq_none {steps : List Node} : pathProblem? steps = none ↔ steps ≠ [] := by
  cases steps <;> simp [pathProblem?]

structure Fault where
  location : List Step
  problem : Problem
deriving DecidableEq, Repr

inductive Checked (α : Type) where
  | valid (value : α)
  | faulty (faults : List Fault)

namespace Checked
variable {α β : Type}

/-- Something is wrong right here. -/
def wrong (problem : Problem) : Checked α := .faulty [⟨[], problem⟩]

def map (f : α → β) : Checked α → Checked β
  | valid a => valid (f a)
  | faulty faults => faulty faults

/-- Both have to be valid; the faults of the first come first. -/
def and (f : Checked (α → β)) (x : Checked α) : Checked β :=
  match f, x with
  | valid f, valid a => valid (f a)
  | valid _, faulty faults => faulty faults
  | faulty faults, valid _ => faulty faults
  | faulty faults, faulty more => faulty (faults ++ more)

instance : Functor Checked where
  map := map

instance : Seq Checked where
  seq f x := f.and (x ())

/-- The same, a step further into the document. -/
def within (step : Step) : Checked α → Checked α
  | valid a => valid a
  | faulty faults => faulty (faults.map fun f => ⟨step :: f.location, f.problem⟩)

/-- A further condition on a valid value. -/
def ensure (problem? : α → Option Problem) : Checked α → Checked α
  | valid a =>
    match problem? a with
    | none => valid a
    | some problem => wrong problem
  | faulty faults => faulty faults

/-- Elements of a list, the first of which has the given position. -/
def list (position : Nat) : List (Checked α) → Checked (List α)
  | [] => valid []
  | x :: xs => ((x.within (.index position)).map List.cons).and (list (position + 1) xs)

end Checked
end Program
end Scribe
