import Mathlib.Logic.Function.Iterate
import Scribe.Program.Traversal

/-! The order of a walk. The nodes of a program in recursive preorder, in the order of the fields
they stand in, are the nodes that the walk with a stack meets: at every step the nodes met and
those below the parts on the stack, from the top down, make up the same sequence. The walk ends
because every step takes one part off the stack for good. -/
namespace Scribe
namespace Program

mutual
/-- The nodes inside a node, at every depth: each before the nodes inside it, field by field. -/
def Node.inside : Node → List Node
  | .namespaceBlock _ body => preorder body
  | .declaration declarators => preorderDeclarators declarators
  | .functionDefinition _ parameters _ body => preorderParameters parameters ++ preorder body
  | .parameter ⟨_, _, defaultValue, _, _⟩ => preorderOption defaultValue
  | .block statements => preorder statements
  | .ifStatement choices => preorderChoices choices
  | .forStatement init test update body =>
    preorder init ++ (preorderOption test ++ (preorderOption update ++ preorder body))
  | .whileStatement condition statements => condition :: (condition.inside ++ preorder statements)
  | .doStatement statements condition => preorder statements ++ condition :: condition.inside
  | .switchStatement condition statements => condition :: (condition.inside ++ preorder statements)
  | .caseStatement _ test statements => preorderOption test ++ preorder statements
  | .returnStatement statement => preorderOption statement
  | .throwStatement expression => expression :: expression.inside
  | .breakStatement => []
  | .continueStatement => []
  | .binaryExpression _ left right => left :: (left.inside ++ preorderOption right)
  | .unaryExpression _ expression => expression :: expression.inside
  | .updateExpression _ expression _ => expression :: expression.inside
  | .conditionalExpression test success failure =>
    test :: (test.inside ++ success :: (success.inside ++ failure :: failure.inside))
  | .assignmentExpression left _ right => left :: (left.inside ++ right :: right.inside)
  | .callExpression callee arguments => callee :: (callee.inside ++ preorder arguments)
  | .parenthesizedExpression value => value :: value.inside
  | .path steps => preorder steps
  | .index expression => expression :: expression.inside
  | .reference _ => []
  | .numberLiteral _ => []
  | .booleanLiteral _ => []
  | .nullLiteral => []
  | .stringLiteral _ => []
  | .userDefinedLiteral _ => []

/-- The nodes of a program in preorder. -/
def preorder : List Node → List Node
  | [] => []
  | n :: ns => n :: (n.inside ++ preorder ns)

def preorderOption : Option Node → List Node
  | none => []
  | some n => n :: n.inside

/-- A variable is no node, but its initial value is. -/
def preorderDeclarators : List Declarator → List Node
  | [] => []
  | ⟨_, _, init, _⟩ :: rest => preorderOption init ++ preorderDeclarators rest

/-- A parameter is a node. -/
def preorderParameters : List Parameter → List Node
  | [] => []
  | ⟨name, typeName, defaultValue, isConst, isRef⟩ :: rest =>
    .parameter ⟨name, typeName, defaultValue, isConst, isRef⟩ ::
      (preorderOption defaultValue ++ preorderParameters rest)

/-- An arm is no node, but its condition and its statements are. -/
def preorderChoices : List Choice → List Node
  | [] => []
  | ⟨condition, statements⟩ :: rest =>
    preorderOption condition ++ (preorder statements ++ preorderChoices rest)
end

theorem inside_parameter (p : Parameter) :
    (Node.parameter p).inside = preorderOption p.defaultValue := by
  cases p
  rw [Node.inside]

theorem preorderDeclarators_cons (d : Declarator) (ds : List Declarator) :
    preorderDeclarators (d :: ds) = preorderOption d.init ++ preorderDeclarators ds := by
  cases d
  rw [preorderDeclarators]

theorem preorderParameters_cons (p : Parameter) (ps : List Parameter) :
    preorderParameters (p :: ps) =
      .parameter p :: (preorderOption p.defaultValue ++ preorderParameters ps) := by
  cases p
  rw [preorderParameters]

theorem preorderChoices_cons (c : Choice) (cs : List Choice) :
    preorderChoices (c :: cs) =
      preorderOption c.condition ++ (preorder c.statements ++ preorderChoices cs) := by
  cases c
  rw [preorderChoices]

theorem preorder_append (xs ys : List Node) : preorder (xs ++ ys) = preorder xs ++ preorder ys := by
  induction xs with
  | nil => simp [preorder]
  | cons x xs ih => simp [preorder,ih]

theorem preorder_toList (o : Option Node) : preorder o.toList = preorderOption o := by
  cases o <;> simp [preorder,preorderOption]

namespace Part

/-- The nodes of a part in preorder. -/
def preorder : Part → List Node
  | node n => n :: n.inside
  | declarator d => preorderOption d.init
  | choice c => preorderOption c.condition ++ Program.preorder c.statements

theorem flatMap_preorder_nodes (ns : List Node) :
    (ns.map node).flatMap preorder = Program.preorder ns := by
  induction ns with
  | nil => simp [Program.preorder]
  | cons n ns ih => simp [Program.preorder,preorder,ih]

theorem flatMap_preorder_declarators (ds : List Declarator) :
    (ds.map declarator).flatMap preorder = preorderDeclarators ds := by
  induction ds with
  | nil => simp [preorderDeclarators]
  | cons d ds ih => simp [preorderDeclarators_cons,preorder,ih]

theorem flatMap_preorder_parameters (ps : List Parameter) :
    (ps.map (node ∘ .parameter)).flatMap preorder = preorderParameters ps := by
  induction ps with
  | nil => simp [preorderParameters]
  | cons p ps ih => simp [preorderParameters_cons,preorder,inside_parameter,ih]

theorem flatMap_preorder_choices (cs : List Choice) :
    (cs.map choice).flatMap preorder = preorderChoices cs := by
  induction cs with
  | nil => simp [preorderChoices]
  | cons c cs ih => simp [preorderChoices_cons,preorder,ih]

theorem preorder_eq (p : Part) : p.preorder = p.node?.toList ++ p.parts.flatMap preorder := by
  cases p with
  | declarator d => simp [preorder,node?,parts,flatMap_preorder_nodes,preorder_toList]
  | choice c => simp [preorder,node?,parts,flatMap_preorder_nodes,preorder_toList]
  | node n =>
    cases n <;>
      simp [preorder,node?,parts,Node.inside,inside_parameter,flatMap_preorder_nodes,
        preorder_toList,flatMap_preorder_declarators,flatMap_preorder_parameters,
        flatMap_preorder_choices]

end Part

namespace Walk

/-- What a walk meets on the whole, if it goes on: the nodes met so far and those of the parts
that wait. -/
def outlook (w : Walk) : List Node := w.met.toList ++ w.stack.toList.reverse.flatMap Part.preorder

theorem outlook_start (program : List Node) : (start program).outlook = preorder program := by
  simp [outlook,start,Part.flatMap_preorder_nodes]

/-- A turn takes the node at the top of the stack over to those met, and the rest of what is below
it stays ahead in the same order. -/
theorem outlook_turn (w : Walk) : w.turn.outlook = w.outlook := by
  obtain ⟨stack,met⟩ := w
  by_cases hempty : stack = #[]
  · rw [hempty]
    rfl
  · -- The part on top is replaced by the parts inside it, of which the first comes to lie on top.
    obtain ⟨below,top,rfl⟩ := Array.exists_push_of_ne_empty hempty
    rw [turn_push]
    simp [outlook,Part.preorder_eq top]

theorem outlook_of_empty {w : Walk} (h : w.stack = #[]) : w.outlook = w.met.toList := by
  simp [outlook,h]

theorem toList_finish (w : Walk) : w.finish.toList = w.outlook := by
  fun_induction finish w with
  | case1 w hempty => rw [outlook_of_empty (Array.isEmpty_iff.1 hempty)]
  | case2 w _ ih => rw [ih,outlook_turn]

theorem outlook_turns (w : Walk) (turns : Nat) : (turn^[turns] w).outlook = w.outlook := by
  induction turns generalizing w with
  | zero => rfl
  | succ turns ih => rw [Function.iterate_succ_apply,ih,outlook_turn]

theorem stack_eq_empty_iff {w : Walk} : w.stack = #[] ↔ Part.total w.stack.toList = 0 := by
  constructor
  · intro hempty
    simp [hempty,Part.total]
  · intro htotal
    by_contra hne
    have hturn := total_turn hne
    omega

theorem total_turns (w : Walk) (turns : Nat) :
    Part.total (turn^[turns] w).stack.toList = Part.total w.stack.toList - turns := by
  induction turns generalizing w with
  | zero => rfl
  | succ turns ih =>
    rw [Function.iterate_succ_apply,ih]
    by_cases hempty : w.stack = #[]
    · have hturn : w.turn = w := by simp [turn,hempty]
      have htotal := stack_eq_empty_iff.1 hempty
      rw [hturn]
      omega
    · have hturn := total_turn hempty
      omega

/-- A walk through a program takes as many turns as the program has parts. -/
theorem stack_turns_eq_empty_iff {program : List Node} {turns : Nat} :
    (turn^[turns] (start program)).stack = #[] ↔ sizeAll program ≤ turns := by
  have hstart : Part.total (start program).stack.toList = sizeAll program := by
    simp only [start,Part.total_reverse,Part.total_nodes]
  rw [stack_eq_empty_iff,total_turns,hstart]
  omega

theorem met_turns {program : List Node} {turns : Nat} (h : sizeAll program ≤ turns) :
    (turn^[turns] (start program)).met.toList = preorder program := by
  rw [← outlook_of_empty (stack_turns_eq_empty_iff.2 h),outlook_turns,outlook_start]

end Walk

theorem walk_eq_preorder (program : List Node) : walk program = preorder program := by
  rw [walk,Walk.toList_finish,Walk.outlook_start]

end Program
end Scribe
