import Scribe.Proofs.Preorder

/-! The places of a node that hold other nodes, and the walk through a program in terms of
them. Declarators and choices are looked through. -/
namespace Scribe
namespace Program

/-- What a node is there for in the node around it. -/
inductive Role where
  | expression
  /-- In front of the first semicolon of a `for`. -/
  | init
  /-- One of several statements or declarations. -/
  | member
  /-- The first step of a path. -/
  | head
  /-- A later step of a path. -/
  | step
  | parameter
deriving DecidableEq, Repr

namespace Node

/-- The nodes directly inside a node, in the order of its fields. -/
def slots : Node → List (Role × Node)
  | namespaceBlock _ body => body.map (.member, ·)
  | declaration declarators => declarators.flatMap fun d => d.init.toList.map (.expression, ·)
  | functionDefinition _ parameters _ body =>
    parameters.map (.parameter, .parameter ·) ++ body.map (.member, ·)
  | parameter p => p.defaultValue.toList.map (.expression, ·)
  | block statements => statements.map (.member, ·)
  | ifStatement choices => choices.flatMap fun c =>
    c.condition.toList.map (.expression, ·) ++ c.statements.map (.member, ·)
  | forStatement init test update body =>
    init.map (.init, ·) ++ (test.toList.map (.expression, ·) ++
      (update.toList.map (.expression, ·) ++ body.map (.member, ·)))
  | whileStatement condition statements =>
    (.expression, condition) :: statements.map (.member, ·)
  | doStatement statements condition =>
    statements.map (.member, ·) ++ [(.expression, condition)]
  | switchStatement condition statements =>
    (.expression, condition) :: statements.map (.member, ·)
  | caseStatement _ test statements =>
    test.toList.map (.expression, ·) ++ statements.map (.member, ·)
  | returnStatement statement => statement.toList.map (.expression, ·)
  | throwStatement value => [(.expression, value)]
  | binaryExpression _ left right => (.expression, left) :: right.toList.map (.expression, ·)
  | unaryExpression _ value => [(.expression, value)]
  | updateExpression _ value _ => [(.expression, value)]
  | conditionalExpression test success failure =>
    [(.expression, test), (.expression, success), (.expression, failure)]
  | assignmentExpression left _ right => [(.expression, left), (.expression, right)]
  | callExpression callee arguments => (.expression, callee) :: arguments.map (.expression, ·)
  | parenthesizedExpression value => [(.expression, value)]
  | path [] => []
  | path (head :: rest) => (.head, head) :: rest.map (.step, ·)
  | index value => [(.expression, value)]
  | breakStatement | continueStatement | reference _ | numberLiteral _ | booleanLiteral _
  | nullLiteral | stringLiteral _ | userDefinedLiteral _ => []

def children (n : Node) : List Node := n.slots.map (·.2)

theorem mem_children {n c : Node} : c ∈ n.children ↔ ∃ role, (role, c) ∈ n.slots := by
  simp [children]

theorem children_declaration (ds : List Declarator) :
    (declaration ds).children = ds.flatMap (·.init.toList) := by
  change (ds.flatMap fun d => d.init.toList.map (Role.expression, ·)).map (·.2) = _
  simp [List.map_flatMap,Function.comp_def]

theorem children_ifStatement (cs : List Choice) :
    (ifStatement cs).children = cs.flatMap fun c => c.condition.toList ++ c.statements := by
  change (cs.flatMap fun c => c.condition.toList.map (Role.expression, ·) ++
    c.statements.map (Role.member, ·)).map (·.2) = _
  simp [List.map_flatMap,Function.comp_def]

theorem children_path (steps : List Node) : (path steps).children = steps := by
  cases steps with
  | nil => rfl
  | cons head rest =>
    change head :: (rest.map (Role.step, ·)).map (·.2) = head :: rest
    simp [Function.comp_def]

section Inside
variable {P : Node → Prop}

theorem forall_children_declaration {ds : List Declarator} :
    (∀ c ∈ (declaration ds).children, P c) ↔ ∀ d ∈ ds, ∀ n ∈ d.init, P n := by
  simp only [children_declaration,List.forall_mem_flatMap,Option.mem_toList,Option.mem_def]

theorem forall_children_functionDefinition {name : String} {ps : List Parameter}
    {returnType : Option String} {body : List Node} :
    (∀ c ∈ (functionDefinition name ps returnType body).children, P c) ↔
      (∀ p ∈ ps, P (.parameter p)) ∧ ∀ n ∈ body, P n := by
  change (∀ c ∈ (ps.map (Role.parameter, Node.parameter ·) ++ body.map (Role.member, ·)).map (·.2),
    P c) ↔ _
  simp only [List.map_append,List.map_map,List.forall_mem_append,List.forall_mem_map,
    Function.comp_def]

theorem forall_children_parameter {p : Parameter} :
    (∀ c ∈ (parameter p).children, P c) ↔ ∀ n ∈ p.defaultValue, P n := by
  change (∀ c ∈ (p.defaultValue.toList.map (Role.expression, ·)).map (·.2), P c) ↔ _
  simp only [List.map_map,List.forall_mem_map,Function.comp_def,Option.mem_toList,Option.mem_def]

theorem forall_children_ifStatement {cs : List Choice} :
    (∀ c ∈ (ifStatement cs).children, P c) ↔
      ∀ c ∈ cs, (∀ n ∈ c.condition, P n) ∧ ∀ n ∈ c.statements, P n := by
  simp only [children_ifStatement,List.forall_mem_flatMap,List.forall_mem_append,
    Option.mem_toList,Option.mem_def]

theorem forall_children_forStatement {init : List Node} {test update : Option Node}
    {body : List Node} :
    (∀ c ∈ (forStatement init test update body).children, P c) ↔
      (∀ n ∈ init, P n) ∧ (∀ n ∈ test, P n) ∧ (∀ n ∈ update, P n) ∧ ∀ n ∈ body, P n := by
  change (∀ c ∈ (init.map (Role.init, ·) ++ (test.toList.map (Role.expression, ·) ++
    (update.toList.map (Role.expression, ·) ++ body.map (Role.member, ·)))).map (·.2), P c) ↔ _
  simp only [List.map_append,List.map_map,List.forall_mem_append,List.forall_mem_map,
    Function.comp_def,Option.mem_toList,Option.mem_def]

theorem forall_children_caseStatement {isDefault : Bool} {test : Option Node}
    {statements : List Node} :
    (∀ c ∈ (caseStatement isDefault test statements).children, P c) ↔
      (∀ n ∈ test, P n) ∧ ∀ n ∈ statements, P n := by
  change (∀ c ∈ (test.toList.map (Role.expression, ·) ++ statements.map (Role.member, ·)).map (·.2),
    P c) ↔ _
  simp only [List.map_append,List.map_map,List.forall_mem_append,List.forall_mem_map,
    Function.comp_def,Option.mem_toList,Option.mem_def]

theorem forall_children_doStatement {statements : List Node} {condition : Node} :
    (∀ c ∈ (doStatement statements condition).children, P c) ↔
      (∀ n ∈ statements, P n) ∧ P condition := by
  simp [children,slots,or_imp,forall_and]

theorem forall_children_conditionalExpression {test success failure : Node} :
    (∀ c ∈ (conditionalExpression test success failure).children, P c) ↔
      P test ∧ P success ∧ P failure := by
  simp [children,slots]

theorem forall_children_callExpression {callee : Node} {arguments : List Node} :
    (∀ c ∈ (callExpression callee arguments).children, P c) ↔
      P callee ∧ ∀ n ∈ arguments, P n := by
  simp [children,slots]

end Inside

end Node

theorem sizeAll_append (xs ys : List Node) : sizeAll (xs ++ ys) = sizeAll xs + sizeAll ys := by
  simp only [← Part.total_nodes,List.map_append,Part.total_append]

theorem size_le_of_mem {n : Node} {ns : List Node} (h : n ∈ ns) : n.size ≤ sizeAll ns := by
  obtain ⟨xs,ys,rfl⟩ := List.append_of_mem h
  simp only [sizeAll_append,sizeAll]
  omega

theorem sizeAll_inits_le (ds : List Declarator) :
    sizeAll (ds.flatMap (·.init.toList)) ≤ sizeDeclarators ds := by
  induction ds with
  | nil => simp [sizeAll,sizeDeclarators]
  | cons d ds ih =>
    rcases d with ⟨name,typeName,init,isConst⟩
    simp only [List.flatMap_cons,sizeAll_append,Part.sizeAll_toList,sizeDeclarators]
    omega

theorem sizeAll_parameters (ps : List Parameter) :
    sizeAll (ps.map .parameter) = sizeParameters ps := by
  rw [← Part.total_nodes,List.map_map,Part.total_parameters]

theorem sizeAll_arms_le (cs : List Choice) :
    sizeAll (cs.flatMap fun c => c.condition.toList ++ c.statements) ≤ sizeChoices cs := by
  induction cs with
  | nil => simp [sizeAll,sizeChoices]
  | cons c cs ih =>
    rcases c with ⟨condition,statements⟩
    simp only [List.flatMap_cons,sizeAll_append,Part.sizeAll_toList,sizeChoices]
    omega

theorem sizeAll_children_lt (n : Node) : sizeAll n.children < n.size := by
  cases n with
  | declaration ds =>
    have h := sizeAll_inits_le ds
    rw [Node.children_declaration,Node.size]
    omega
  | ifStatement cs =>
    have h := sizeAll_arms_le cs
    rw [Node.children_ifStatement,Node.size]
    omega
  | parameter p =>
    rcases p with ⟨name,typeName,value,isConst,isRef⟩
    cases value <;> simp [Node.children,Node.slots,Node.size,sizeAll]
  | path steps =>
    rw [Node.children_path,Node.size]
    omega
  | _ =>
    simp [Node.children,Node.slots,Node.size,Function.comp_def,sizeAll_append,
      sizeAll_parameters,sizeAll] <;> omega

theorem Node.induct_children {motive : Node → Prop}
    (step : ∀ n : Node, (∀ c ∈ n.children, motive c) → motive n) (n : Node) : motive n := by
  induction hs : n.size using Nat.strongRecOn generalizing n with
  | ind size ih =>
    apply step n
    intro c hc
    have hlt : c.size < size := by
      have h := size_le_of_mem hc
      have h' := sizeAll_children_lt n
      omega
    exact ih c.size hlt c rfl

/-- The same with what is inside those nodes at hand, for steps that look two levels down. -/
theorem Node.induct_inside {motive : Node → Prop}
    (step : ∀ n : Node, (∀ c ∈ n.children, motive c) →
      (∀ c ∈ n.children, ∀ m ∈ c.children, motive m) → motive n) (n : Node) : motive n := by
  have hboth : motive n ∧ ∀ c ∈ n.children, motive c := by
    induction n using Node.induct_children with
    | step n ih =>
      have hdirect := fun c hc => (ih c hc).1
      exact ⟨step n hdirect fun c hc => (ih c hc).2,hdirect⟩
  exact hboth.1

theorem preorderDeclarators_eq (ds : List Declarator) :
    preorderDeclarators ds = preorder (ds.flatMap (·.init.toList)) := by
  induction ds with
  | nil => simp [preorderDeclarators,preorder]
  | cons d ds ih => simp [preorderDeclarators_cons,preorder_append,preorder_toList,ih]

theorem preorderParameters_eq (ps : List Parameter) :
    preorderParameters ps = preorder (ps.map .parameter) := by
  induction ps with
  | nil => simp [preorderParameters,preorder]
  | cons p ps ih => simp [preorderParameters_cons,preorder,inside_parameter,ih]

theorem preorderChoices_eq (cs : List Choice) :
    preorderChoices cs = preorder (cs.flatMap fun c => c.condition.toList ++ c.statements) := by
  induction cs with
  | nil => simp [preorderChoices,preorder]
  | cons c cs ih => simp [preorderChoices_cons,preorder_append,preorder_toList,ih]

theorem inside_eq_preorder (n : Node) : n.inside = preorder n.children := by
  cases n with
  | declaration ds => rw [Node.children_declaration,Node.inside,preorderDeclarators_eq]
  | ifStatement cs => rw [Node.children_ifStatement,Node.inside,preorderChoices_eq]
  | path steps => rw [Node.children_path,Node.inside]
  | _ =>
    simp [Node.inside,inside_parameter,Node.children,Node.slots,Function.comp_def,preorder,
      preorder_append,preorder_toList,preorderParameters_eq]

@[simp] theorem walk_nil : walk [] = [] := by simp [walk_eq_preorder,preorder]

@[simp] theorem walk_append (xs ys : List Node) : walk (xs ++ ys) = walk xs ++ walk ys := by
  simp only [walk_eq_preorder,preorder_append]

theorem walk_cons (n : Node) (ns : List Node) :
    walk (n :: ns) = n :: (walk n.children ++ walk ns) := by
  simp only [walk_eq_preorder,preorder,inside_eq_preorder]

/-- A property of all nodes of a program, at every depth. -/
def Everywhere (P : Node → Prop) (program : List Node) : Prop := ∀ n ∈ walk program, P n

section Everywhere
variable {P : Node → Prop}

theorem Everywhere.mono {Q : Node → Prop} {ns : List Node} (h : Everywhere P ns)
    (hPQ : ∀ n, P n → Q n) : Everywhere Q ns := fun n hn => hPQ n (h n hn)

@[simp] theorem everywhere_nil : Everywhere P [] := by simp [Everywhere]

@[simp] theorem everywhere_append {xs ys : List Node} :
    Everywhere P (xs ++ ys) ↔ Everywhere P xs ∧ Everywhere P ys := by
  simp only [Everywhere,walk_append,List.mem_append,or_imp,forall_and]

theorem everywhere_cons {n : Node} {ns : List Node} :
    Everywhere P (n :: ns) ↔ (P n ∧ Everywhere P n.children) ∧ Everywhere P ns := by
  simp only [Everywhere,walk_cons,List.mem_cons,List.mem_append,or_imp,forall_and,forall_eq,
    and_assoc]

theorem everywhere_singleton {n : Node} :
    Everywhere P [n] ↔ P n ∧ Everywhere P n.children := by
  simp [everywhere_cons]

theorem everywhere_iff {ns : List Node} : Everywhere P ns ↔ ∀ n ∈ ns, Everywhere P [n] := by
  induction ns with
  | nil => simp
  | cons n ns ih => simp only [everywhere_cons,everywhere_nil,and_true,ih,List.forall_mem_cons]

/-- Induction over the nodes in which a property holds everywhere. -/
theorem Everywhere.induct {motive : Node → Prop}
    (step : ∀ n : Node, P n → (∀ c ∈ n.children, P c) → (∀ c ∈ n.children, motive c) →
      (∀ c ∈ n.children, ∀ m ∈ c.children, motive m) → motive n)
    {n : Node} (h : Everywhere P [n]) : motive n := by
  induction n using Node.induct_inside with
  | step n ih ihinside =>
    obtain ⟨hself,hinside⟩ := everywhere_singleton.1 h
    have hchildren := everywhere_iff.1 hinside
    refine step n hself (fun c hc => (everywhere_singleton.1 (hchildren c hc)).1)
      (fun c hc => ih c hc (hchildren c hc)) fun c hc m hm => ihinside c hc m hm ?_
    exact everywhere_iff.1 (everywhere_singleton.1 (hchildren c hc)).2 m hm

theorem everywhere_flatMap {α : Type} {xs : List α} {f : α → List Node} :
    Everywhere P (xs.flatMap f) ↔ ∀ x ∈ xs, Everywhere P (f x) := by
  induction xs with
  | nil => simp
  | cons x xs ih => rw [List.flatMap_cons,everywhere_append,ih,List.forall_mem_cons]

theorem Everywhere.inside {n : Node} (h : Everywhere P [n]) :
    Everywhere (fun m => Everywhere P [m]) [n] := by
  induction n using Node.induct_children with
  | step n ih =>
    refine everywhere_singleton.2 ⟨h,everywhere_iff.2 fun c hc => ih c hc ?_⟩
    exact everywhere_iff.1 (everywhere_singleton.1 h).2 c hc

theorem Everywhere.of_mem {program : List Node} {n : Node}
    (h : Everywhere P program) (hn : n ∈ walk program) : Everywhere P [n] := by
  have hall : Everywhere (fun m => Everywhere P [m]) program :=
    everywhere_iff.2 fun m hm => (everywhere_iff.1 h m hm).inside
  exact hall n hn

end Everywhere

end Program
end Scribe
