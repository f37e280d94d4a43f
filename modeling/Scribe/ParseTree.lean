/-! Parse trees of source files: each node has a kind, the text it covers and its children
in order. Tokens such as punctuation and keywords are nodes whose kind is the token. -/
namespace Scribe

inductive ParseTree where
  | node (kind : String) (text : String) (children : List ParseTree)

namespace ParseTree

def kind : ParseTree → String
  | node k _ _ => k

def text : ParseTree → String
  | node _ t _ => t

def children : ParseTree → List ParseTree
  | node _ _ cs => cs

@[simp] theorem kind_node (k t : String) (cs : List ParseTree) : (node k t cs).kind = k := rfl
@[simp] theorem text_node (k t : String) (cs : List ParseTree) : (node k t cs).text = t := rfl
@[simp] theorem children_node (k t : String) (cs : List ParseTree) :
    (node k t cs).children = cs := rfl

/-- What holds of a tree as soon as it holds of all its children holds of all trees. -/
theorem induct_children {motive : ParseTree → Prop}
    (step : ∀ t : ParseTree, (∀ c ∈ t.children, motive c) → motive t) (t : ParseTree) : motive t :=
  step t fun c hc =>
    have hlt : sizeOf c < sizeOf t := by
      cases t with
      | node kind text children =>
        have hmem : sizeOf c < sizeOf children := List.sizeOf_lt_of_mem hc
        rw [ParseTree.node.sizeOf_spec]
        omega
    induct_children step c
termination_by sizeOf t
decreasing_by exact hlt

/-- Anonymous tokens are spelled by their own kind. -/
def isNamed (t : ParseTree) : Bool := t.kind != t.text

mutual
/-- The tree and all below it, each node before its children. -/
def walk : ParseTree → List ParseTree
  | node k t cs => node k t cs :: walkAll cs

def walkAll : List ParseTree → List ParseTree
  | [] => []
  | c :: cs => walk c ++ walkAll cs
end

end ParseTree

/-- A parse tree as the parser gives it: texts are bytes, and may be missing. -/
inductive RawTree where
  | node (kind : String) (text : Option ByteArray) (children : List RawTree)

namespace RawTree

mutual
/-- The tree with its texts decoded as UTF-8; a missing text is empty. There is no such
tree if some text is not UTF-8. -/
def decode? : RawTree → Option ParseTree
  | node k none cs => (decodeAll? cs).map (.node k "")
  | node k (some bytes) cs =>
    match String.fromUTF8? bytes with
    | some t => (decodeAll? cs).map (.node k t)
    | none => none

def decodeAll? : List RawTree → Option (List ParseTree)
  | [] => some []
  | c :: cs =>
    match decode? c with
    | some t => (decodeAll? cs).map (t :: ·)
    | none => none
end

end RawTree
end Scribe
