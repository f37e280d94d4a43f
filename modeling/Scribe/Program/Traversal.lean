import Scribe.Program.Node

/-! Walking through programs: the nodes in order, and how often each kind occurs. The walk keeps
a stack, so it needs no recursion over the program. -/
namespace Scribe
namespace Program

/-- What a program is made of: nodes, and the variables and arms inside them. -/
inductive Part where
  | node (node : Node)
  | declarator (declarator : Declarator)
  | choice (choice : Choice)

namespace Part

/-- The parts directly inside a part, in the order of its fields. -/
def parts : Part → List Part
  | node (.namespaceBlock _ body) => body.map node
  | node (.declaration declarators) => declarators.map declarator
  | node (.functionDefinition _ parameters _ body) =>
    parameters.map (node ∘ .parameter) ++ body.map node
  | node (.parameter p) => p.defaultValue.toList.map node
  | node (.block statements) => statements.map node
  | node (.ifStatement choices) => choices.map choice
  | node (.forStatement init test update body) =>
    init.map node ++ (test.toList.map node ++ (update.toList.map node ++ body.map node))
  | node (.whileStatement condition statements) => node condition :: statements.map node
  | node (.doStatement statements condition) => statements.map node ++ [node condition]
  | node (.switchStatement condition statements) => node condition :: statements.map node
  | node (.caseStatement _ test statements) => test.toList.map node ++ statements.map node
  | node (.returnStatement statement) => statement.toList.map node
  | node (.throwStatement expression) => [node expression]
  | node .breakStatement => []
  | node .continueStatement => []
  | node (.binaryExpression _ left right) => node left :: right.toList.map node
  | node (.unaryExpression _ expression) => [node expression]
  | node (.updateExpression _ expression _) => [node expression]
  | node (.conditionalExpression test success failure) => [node test, node success, node failure]
  | node (.assignmentExpression left _ right) => [node left, node right]
  | node (.callExpression callee arguments) => node callee :: arguments.map node
  | node (.parenthesizedExpression value) => [node value]
  | node (.path steps) => steps.map node
  | node (.index expression) => [node expression]
  | node (.reference _) => []
  | node (.numberLiteral _) => []
  | node (.booleanLiteral _) => []
  | node .nullLiteral => []
  | node (.stringLiteral _) => []
  | node (.userDefinedLiteral _) => []
  | declarator d => d.init.toList.map node
  | choice c => c.condition.toList.map node ++ c.statements.map node

end Part

mutual
/-- The number of parts a node is made of, itself included. -/
def Node.size : Node → Nat
  | .namespaceBlock _ body => sizeAll body + 1
  | .declaration declarators => sizeDeclarators declarators + 1
  | .functionDefinition _ parameters _ body => sizeParameters parameters + sizeAll body + 1
  | .parameter ⟨_, _, none, _, _⟩ => 1
  | .parameter ⟨_, _, some value, _, _⟩ => value.size + 1
  | .block statements => sizeAll statements + 1
  | .ifStatement choices => sizeChoices choices + 1
  | .forStatement init test update body =>
    sizeAll init + sizeOption test + sizeOption update + sizeAll body + 1
  | .whileStatement condition statements => condition.size + sizeAll statements + 1
  | .doStatement statements condition => sizeAll statements + condition.size + 1
  | .switchStatement condition statements => condition.size + sizeAll statements + 1
  | .caseStatement _ test statements => sizeOption test + sizeAll statements + 1
  | .returnStatement statement => sizeOption statement + 1
  | .throwStatement expression => expression.size + 1
  | .breakStatement => 1
  | .continueStatement => 1
  | .binaryExpression _ left right => left.size + sizeOption right + 1
  | .unaryExpression _ expression => expression.size + 1
  | .updateExpression _ expression _ => expression.size + 1
  | .conditionalExpression test success failure =>
    test.size + success.size + failure.size + 1
  | .assignmentExpression left _ right => left.size + right.size + 1
  | .callExpression callee arguments => callee.size + sizeAll arguments + 1
  | .parenthesizedExpression value => value.size + 1
  | .path steps => sizeAll steps + 1
  | .index expression => expression.size + 1
  | .reference _ => 1
  | .numberLiteral _ => 1
  | .booleanLiteral _ => 1
  | .nullLiteral => 1
  | .stringLiteral _ => 1
  | .userDefinedLiteral _ => 1

def sizeOption : Option Node → Nat
  | none => 0
  | some n => n.size

def sizeAll : List Node → Nat
  | [] => 0
  | n :: ns => n.size + sizeAll ns

def sizeDeclarators : List Declarator → Nat
  | [] => 0
  | ⟨_, _, init, _⟩ :: rest => sizeOption init + 1 + sizeDeclarators rest

def sizeParameters : List Parameter → Nat
  | [] => 0
  | ⟨_, _, value, _, _⟩ :: rest => sizeOption value + 1 + sizeParameters rest

def sizeChoices : List Choice → Nat
  | [] => 0
  | ⟨condition, statements⟩ :: rest =>
    sizeOption condition + sizeAll statements + 1 + sizeChoices rest
end

namespace Part

def size : Part → Nat
  | node n => n.size
  | declarator d => sizeOption d.init + 1
  | choice c => sizeOption c.condition + sizeAll c.statements + 1

/-- The number of parts in a list of parts, with all inside them. -/
def total : List Part → Nat
  | [] => 0
  | p :: ps => p.size + total ps

theorem total_append (ps qs : List Part) : total (ps ++ qs) = total ps + total qs := by
  induction ps with
  | nil => simp [total]
  | cons p ps ih => simp [total,ih,Nat.add_assoc]

theorem total_reverse (ps : List Part) : total ps.reverse = total ps := by
  induction ps with
  | nil => rfl
  | cons p ps ih =>
    rw [List.reverse_cons,total_append,ih]
    simp only [total]
    omega

theorem total_nodes (ns : List Node) : total (ns.map node) = sizeAll ns := by
  induction ns with
  | nil => rfl
  | cons n ns ih => simp [total,sizeAll,size,ih]

@[simp] theorem sizeAll_toList (o : Option Node) : sizeAll o.toList = sizeOption o := by
  cases o <;> simp [sizeAll,sizeOption]

theorem total_declarators (ds : List Declarator) :
    total (ds.map declarator) = sizeDeclarators ds := by
  induction ds with
  | nil => rfl
  | cons d ds ih =>
    rcases d with ⟨name,typeName,init,isConst⟩
    simp [total,sizeDeclarators,size,ih]

theorem total_parameters (ps : List Parameter) :
    total (ps.map (node ∘ .parameter)) = sizeParameters ps := by
  induction ps with
  | nil => rfl
  | cons p ps ih =>
    rcases p with ⟨name,typeName,value,isConst,isRef⟩
    cases value <;> simp_all [total,sizeParameters,size,Node.size,sizeOption]

theorem total_choices (cs : List Choice) : total (cs.map choice) = sizeChoices cs := by
  induction cs with
  | nil => rfl
  | cons c cs ih =>
    rcases c with ⟨condition,statements⟩
    simp [total,sizeChoices,size,ih]

/-- A part is one more than what is inside it. -/
theorem total_parts (p : Part) : total p.parts + 1 = p.size := by
  cases p with
  | declarator d => simp [parts,size,total_nodes]
  | choice c => simp [parts,size,total_append,total_nodes]
  | node n =>
    cases n with
    | parameter p =>
      rcases p with ⟨name,typeName,value,isConst,isRef⟩
      cases value <;> simp [parts,size,Node.size,total]
    | _ =>
      simp [parts,size,Node.size,total,total_append,total_nodes,
        total_declarators,total_parameters,total_choices,Nat.add_assoc]

end Part

/-- The node met at a part; variables and arms are only passed through. -/
def Part.node? : Part → Option Node
  | .node n => some n
  | .declarator _ => none
  | .choice _ => none

/-- A walk on its way: a stack of the parts that wait, with the next one on top, which is at
the end, and the nodes met so far. -/
structure Walk where
  stack : Array Part
  met : Array Node

namespace Walk

/-- The walk before its first step; the first node is on top. -/
def start (program : List Node) : Walk := ⟨(program.map .node).reverse.toArray, #[]⟩

/-- Take the top off the stack, and put the parts inside it there, the first one on top. -/
def turn (w : Walk) : Walk :=
  match w.stack.back? with
  | none => w
  | some top => ⟨w.stack.pop ++ top.parts.reverse, w.met ++ top.node?.toList⟩

theorem turn_push (below : Array Part) (top : Part) (met : Array Node) :
    turn ⟨below.push top, met⟩ = ⟨below ++ top.parts.reverse, met ++ top.node?.toList⟩ := by
  simp [turn]

/-- Every turn takes one part off the stack for good. -/
theorem total_turn {w : Walk} (h : w.stack ≠ #[]) :
    Part.total w.turn.stack.toList + 1 = Part.total w.stack.toList := by
  obtain ⟨stack,met⟩ := w
  obtain ⟨below,top,rfl⟩ := Array.exists_push_of_ne_empty h
  have hparts := Part.total_parts top
  simp only [turn_push,Array.toList_appendList,Array.toList_push,Part.total_append,
    Part.total_reverse,Part.total]
  omega

/-- Take turns until the stack is empty. -/
def finish (w : Walk) : Array Node :=
  if w.stack.isEmpty then w.met else w.turn.finish
termination_by Part.total w.stack.toList
decreasing_by
  rename_i hsome
  have hne : w.stack ≠ #[] := by simpa using hsome
  have hturn := total_turn hne
  omega

end Walk

/-- All nodes of a program, each before those inside it. -/
def walk (program : List Node) : List Node := (Walk.start program).finish.toList

/-- Add one to the number of times a kind has occurred; new kinds go to the end. -/
def tally (kind : Kind) : List (Kind × Nat) → List (Kind × Nat)
  | [] => [(kind, 1)]
  | (k, n) :: rest => if k = kind then (k, n + 1) :: rest else (k, n) :: tally kind rest

def tallyAll (counts : List (Kind × Nat)) (kinds : List Kind) : List (Kind × Nat) :=
  kinds.foldl (fun counts kind => tally kind counts) counts

/-- How often each kind occurs, in the order of first occurrence. -/
def kindCounts (program : List Node) : List (Kind × Nat) :=
  tallyAll [] ((walk program).map Node.kind)

end Program
end Scribe
