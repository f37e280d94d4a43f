import Scribe.Printing.Printer
import Scribe.Proofs.ExpressionTokens
import Scribe.Proofs.Sorts

/-! Grouping of expressions. An operation is an expression that needs parentheses as the operand of
a sign, as a callee or at the head of a path. No parentheses are added on the way from parse trees
to programs, so an expression is grouped exactly if no operation of the parse tree stands there
bare; and adjacent string literals are an operation, though the grammar lets them stand there. -/
namespace Scribe

namespace Program

/-- An operator between operands. -/
def Node.isOperation (n : Node) : Bool :=
  n.kind ∈ [Kind.binaryExpression, .assignmentExpression, .conditionalExpression]

/-- The nodes inside a node that bind to it more tightly than an operation would. -/
def Node.tightParts : Node → List Node
  | .path steps => steps.take 1
  | .callExpression callee _ => [callee]
  | .unaryExpression _ value => [value]
  | .updateExpression _ value _ => [value]
  | _ => []

/-- No operation stands in a tight place without parentheses. -/
def Node.Grouped (n : Node) : Prop := ∀ m ∈ n.tightParts, ¬m.isOperation

theorem everywhere_grouped_iff {n : Node} : Everywhere Node.Grouped [n] ↔
    (∀ m ∈ n.tightParts, ¬m.isOperation) ∧ ∀ c ∈ n.children, Everywhere Node.Grouped [c] := by
  rw [everywhere_singleton,everywhere_iff,Node.Grouped]

end Program

namespace Reading
open Program

def operatorKinds : List String :=
  ["binary_expression", "assignment_expression", "conditional_expression"]

/-- A path or a call, which starts with an expression. -/
def headedKinds : List String := ["field_expression", "subscript_expression", "call_expression"]

def signedKinds : List String := ["unary_expression", "update_expression"]

/-- The kinds that are put together from what their children are read as. -/
def compoundKinds : List String :=
  operatorKinds ++ headedKinds ++ signedKinds ++
    ["concatenated_string", "parenthesized_expression", "argument_list", "subscript_argument_list"]

mutual
/-- An operator between operands, or adjacent literals, which are added up. -/
def isOperation : ParseTree → Bool
  | .node kind _ children =>
    decide (kind ∈ operatorKinds) || kind == "concatenated_string" && isSum children

/-- Several literals are a sum, and a single one is what it is by itself. -/
def isSum : List ParseTree → Bool
  | [] => false
  | c :: cs => if isNoise c.kind then isSum cs else isOperation c || !(heard cs).isEmpty
end

mutual
/-- The nodes of an expression that are read, itself included. -/
def subexpressions : ParseTree → List ParseTree
  | .node kind text children =>
    .node kind text children ::
      if kind ∈ compoundKinds then subexpressionsHeard children else []

def subexpressionsHeard : List ParseTree → List ParseTree
  | [] => []
  | c :: cs =>
    if isNoise c.kind then subexpressionsHeard cs else subexpressions c ++ subexpressionsHeard cs
end

/-- The head of a path, a callee, or the operand of a sign. -/
def tightOperands (t : ParseTree) : List ParseTree :=
  if t.kind ∈ headedKinds then (heard t.children).take 1
  else if t.kind ∈ signedKinds then
    (heard t.children).filter fun c => (expression? c.kind).isSome
  else []

/-- Nowhere in an expression does an operation stand bare in a tight place. -/
def Clear (t : ParseTree) : Prop := ∀ u ∈ subexpressions t, ∀ c ∈ tightOperands u, ¬isOperation c

section Trees
variable {t : ParseTree}

theorem isOperation_of_operator (h : t.kind ∈ operatorKinds) : isOperation t := by
  cases t with
  | node kind text children => simp [isOperation,show kind ∈ operatorKinds from h]

theorem isOperation_concatenation (h : t.kind = "concatenated_string") :
    isOperation t = isSum t.children := by
  have hother : "concatenated_string" ∉ operatorKinds := by decide
  cases t with
  | node kind text children =>
    obtain rfl : kind = "concatenated_string" := h
    simp [isOperation,hother,ParseTree.children]

theorem kind_of_isOperation (h : isOperation t) :
    t.kind ∈ operatorKinds ++ ["concatenated_string"] := by
  cases t with
  | node kind text children =>
    have hkind : kind ∈ operatorKinds ∨ kind = "concatenated_string" ∧ isSum children := by
      simpa [isOperation] using h
    rw [List.mem_append,List.mem_singleton]
    exact hkind.imp_right And.left

theorem isSum_of_heard {children : List ParseTree} {part : ParseTree} {parts : List ParseTree}
    (h : heard children = part :: parts) :
    isSum children = (isOperation part || !parts.isEmpty) := by
  induction children with
  | nil => simp [heard] at h
  | cons c cs ih =>
    by_cases hnoise : isNoise c.kind
    · rw [heard_cons_of_noise hnoise] at h
      rw [isSum,if_pos hnoise,ih h]
    · rw [heard_cons hnoise] at h
      obtain ⟨rfl,rfl⟩ : c = part ∧ heard cs = parts := by simpa using h
      rw [isSum,if_neg hnoise]

theorem subexpressionsHeard_eq (cs : List ParseTree) :
    subexpressionsHeard cs = (heard cs).flatMap subexpressions := by
  induction cs with
  | nil => simp [subexpressionsHeard]
  | cons c cs ih =>
    rw [subexpressionsHeard]
    by_cases hnoise : isNoise c.kind
    · rw [if_pos hnoise,heard_cons_of_noise hnoise,ih]
    · rw [if_neg hnoise,heard_cons hnoise,ih,List.flatMap_cons]

theorem subexpressions_eq (t : ParseTree) : subexpressions t =
    t :: if t.kind ∈ compoundKinds then (heard t.children).flatMap subexpressions else [] := by
  cases t with
  | node kind text children =>
    rw [subexpressions,subexpressionsHeard_eq]
    rfl

theorem clear_iff (h : t.kind ∈ compoundKinds) :
    Clear t ↔ (∀ c ∈ tightOperands t, ¬isOperation c) ∧ ∀ c ∈ heard t.children, Clear c := by
  have hparts : (∀ u ∈ (heard t.children).flatMap subexpressions, ∀ c ∈ tightOperands u,
      ¬isOperation c) ↔ ∀ c ∈ heard t.children, Clear c := by
    simp only [List.forall_mem_flatMap,Clear]
  rw [← hparts,Clear,subexpressions_eq,if_pos h,List.forall_mem_cons]

theorem tightOperands_eq_nil (h : t.kind ∉ headedKinds ++ signedKinds) : tightOperands t = [] := by
  rw [List.mem_append,not_or] at h
  rw [tightOperands,if_neg h.1,if_neg h.2]

theorem tightOperands_head (h : t.kind ∈ headedKinds) :
    tightOperands t = (heard t.children).take 1 :=
  if_pos h

theorem tightOperands_sign (h : t.kind ∈ signedKinds) :
    tightOperands t = (heard t.children).filter fun c => (expression? c.kind).isSome := by
  have hother : ∀ kind ∈ signedKinds, kind ∉ headedKinds := by decide
  rw [tightOperands,if_neg (hother _ h),if_pos h]

theorem clear_of_kind (h : t.kind ∉ compoundKinds) : Clear t := by
  have hnone : tightOperands t = [] := by
    apply tightOperands_eq_nil
    intro hkind
    have hall : ∀ kind ∈ headedKinds ++ signedKinds, kind ∈ compoundKinds := by decide
    exact h (hall _ hkind)
  rw [Clear,subexpressions_eq,if_neg h,List.forall_mem_singleton,hnone]
  simp

theorem not_isOperation_of_kind (h : t.kind ∉ operatorKinds ++ ["concatenated_string"]) :
    ¬isOperation t :=
  fun hoperation => h (kind_of_isOperation hoperation)

theorem not_isOperation_of_not_compound (h : t.kind ∉ compoundKinds) : ¬isOperation t := by
  have hall : ∀ kind ∈ operatorKinds ++ ["concatenated_string"], kind ∈ compoundKinds := by decide
  exact not_isOperation_of_kind fun hkind => h (hall _ hkind)

theorem clear_of_punctuation (h : t.kind ∈ ParseTree.punctuation) : Clear t := by
  have hall : ∀ kind ∈ ParseTree.punctuation, kind ∉ compoundKinds := by decide
  exact clear_of_kind (hall _ h)

theorem forall_expression_iff {children : List ParseTree} :
    (∀ c ∈ children.filter fun c => (expression? c.kind).isSome, ¬isOperation c) ↔
      ∀ c ∈ children, ¬isOperation c := by
  have hexpression : ∀ kind ∈ operatorKinds ++ ["concatenated_string"],
      (expression? kind).isSome := by decide
  constructor
  · intro h c hc hoperation
    have hsome := hexpression _ (kind_of_isOperation hoperation)
    exact h c (List.mem_filter.2 ⟨hc,hsome⟩) hoperation
  · exact fun h c hc => h c (List.mem_filter.1 hc).1

end Trees

/-- An expression is an operation exactly if the tree is that it was read from, and grouped exactly
if no operation stands bare in the tree. -/
structure Mirrors (t : ParseTree) (e : Node) : Prop where
  operation : e.isOperation ↔ isOperation t
  grouped : Everywhere Node.Grouped [e] ↔ Clear t
  ne_path : e ≠ .path []

/-- All of some nodes have a property exactly if all of the children have another. -/
def Agree (P : Node → Prop) (Q : ParseTree → Prop) (before : List ParseTree) (ns : List Node) :
    Prop :=
  (∀ n ∈ ns, P n) ↔ ∀ c ∈ before, Q c

section Agree
variable {P : Node → Prop} {Q : ParseTree → Prop} {before : List ParseTree} {ns : List Node}
  {child : ParseTree}

theorem Agree.skip (h : Agree P Q before ns) (hchild : Q child) :
    Agree P Q (before ++ [child]) ns := by
  rw [Agree,List.forall_mem_append,List.forall_mem_singleton]
  exact h.trans (and_iff_left hchild).symm

theorem Agree.add {e : Node} {more : List Node} (h : Agree P Q before ns) (he : P e ↔ Q child)
    (hmore : ∀ n, n ∈ more ↔ n ∈ ns ∨ n = e) : Agree P Q (before ++ [child]) more := by
  have hall : (∀ n ∈ more, P n) ↔ (∀ n ∈ ns, P n) ∧ P e := by
    simp only [hmore,or_imp,forall_and,forall_eq]
  rw [Agree,List.forall_mem_append,List.forall_mem_singleton,hall]
  exact and_congr h he

theorem Agree.append {more : List Node} (h : Agree P Q before ns)
    (hmore : (∀ n ∈ more, P n) ↔ Q child) : Agree P Q (before ++ [child]) (ns ++ more) := by
  rw [Agree,List.forall_mem_append,List.forall_mem_append,List.forall_mem_singleton]
  exact and_congr h hmore

end Agree

/-- The nodes that have been read are grouped exactly if the children are clear. -/
def GroupedAlike : List ParseTree → List Node → Prop :=
  Agree (fun n => Everywhere Node.Grouped [n]) Clear

/-- None of the nodes that have been read is an operation exactly if none of the children is. -/
def PlainAlike : List ParseTree → List Node → Prop :=
  Agree (fun n => ¬n.isOperation) (fun c => ¬isOperation c)

/-- The operand of a sign that has been read up to a child. -/
def SignedAlike (before : List ParseTree) (operand : Option Node) : Prop :=
  GroupedAlike before operand.toList ∧ PlainAlike before operand.toList

/-- A path that has been read up to a child. -/
def PathAlike (before : List ParseTree) (steps : List Node) : Prop :=
  (steps = [] ↔ before = []) ∧
    ((∀ n ∈ steps.take 1, ¬n.isOperation) ∧ (∀ n ∈ steps, Everywhere Node.Grouped [n]) ↔
      (∀ c ∈ before.take 1, ¬isOperation c) ∧ ∀ c ∈ before, Clear c)

/-- What the state of a rule for expressions has in common with the children so far. -/
def mirroredState : (rule : Rule) → List ParseTree → rule.State → Prop
  | .operand skipped => fun before (value : Option Node) =>
    (∀ k ∈ skipped, k ∈ ParseTree.punctuation) → GroupedAlike before value.toList
  | .concatenation => fun before (parts : List Node) => List.Forall₂ Mirrors before parts
  | .binaryExpression => fun before (s : OperatorSlots) =>
    GroupedAlike before (s.left.toList ++ s.right.toList)
  | .assignmentExpression => fun before (s : OperatorSlots) =>
    GroupedAlike before (s.left.toList ++ s.right.toList)
  | .unaryExpression => fun before (s : UnarySlots) => SignedAlike before s.expression
  | .updateExpression => fun before (s : UpdateSlots) => SignedAlike before s.expression
  | .conditionalExpression => fun before (s : ConditionalSlots) =>
    GroupedAlike before (s.test.toList ++ (s.success.toList ++ s.failure.toList))
  | .callExpression => fun before (s : CallSlots) =>
    GroupedAlike before (s.callee.toList ++ s.arguments.getD []) ∧
      PlainAlike (before.take 1) s.callee.toList ∧ (s.callee = none ↔ before = [])
  | .arguments => fun before (arguments : List Node) => GroupedAlike before arguments
  | .fieldExpression => fun before (s : FieldSlots) => PathAlike before s.steps
  | .subscriptExpression => fun before (s : SubscriptSlots) =>
    (s.inBrackets → s.steps ≠ []) ∧ PathAlike before s.steps
  | _ => fun _ _ => True

def mirroredResult : (rule : Rule) → ParseTree → rule.Result → Prop
  | .operand skipped => fun tree (n : Node) => tree.kind ∈ compoundKinds →
    (∀ k ∈ skipped, k ∈ ParseTree.punctuation) → (Everywhere Node.Grouped [n] ↔ Clear tree)
  | .concatenation => fun tree (n : Node) => Mirrors tree n
  | .binaryExpression => fun tree (n : Node) => Mirrors tree n
  | .assignmentExpression => fun tree (n : Node) => Mirrors tree n
  | .unaryExpression => fun tree (n : Node) => Mirrors tree n
  | .updateExpression => fun tree (n : Node) => Mirrors tree n
  | .conditionalExpression => fun tree (n : Node) => Mirrors tree n
  | .callExpression => fun tree (n : Node) => Mirrors tree n
  | .arguments => fun tree (ns : List Node) =>
    (∀ n ∈ ns, Everywhere Node.Grouped [n]) ↔ Clear tree
  | .fieldExpression => fun tree (n : Node) => Mirrors tree n
  | .subscriptExpression => fun tree (n : Node) => Mirrors tree n
  | _ => fun _ _ => True

theorem mirrors_of_leaf {t : ParseTree} {e : Node} (hkind : t.kind ∉ compoundKinds)
    (hoperation : e.isOperation = false) (hslots : e.slots = []) (htight : e.tightParts = [])
    (hpath : e ≠ .path []) : Mirrors t e := by
  have hchildren : e.children = [] := by simp [Node.children,hslots]
  have hgrouped : Everywhere Node.Grouped [e] := by
    rw [everywhere_grouped_iff,htight,hchildren]
    simp
  exact ⟨by simp [hoperation,not_isOperation_of_not_compound hkind],
    iff_of_true hgrouped (clear_of_kind hkind),hpath⟩

theorem mirrors_of_parts {t : ParseTree} {e : Node} (hkind : t.kind ∈ compoundKinds)
    (hoperation : e.isOperation ↔ isOperation t)
    (htight : (∀ m ∈ e.tightParts, ¬m.isOperation) ↔ ∀ c ∈ tightOperands t, ¬isOperation c)
    (hparts : GroupedAlike (heard t.children) e.children) (hpath : e ≠ .path []) :
    Mirrors t e := by
  refine ⟨hoperation,?_,hpath⟩
  rw [everywhere_grouped_iff,clear_iff hkind]
  exact and_congr htight hparts

theorem mirrors_parenthesized {t : ParseTree} (hkind : t.kind = "parenthesized_expression")
    {n : Node} (h : Everywhere Node.Grouped [n] ↔ Clear t) :
    Mirrors t (.parenthesizedExpression n) := by
  have hplain : ¬isOperation t := not_isOperation_of_kind (by rw [hkind]; decide)
  refine ⟨by simp [Node.isOperation,Node.kind,hplain],?_,by simp⟩
  rw [everywhere_grouped_iff,← h]
  simp [Node.tightParts,Node.children,Node.slots]

theorem spelledOperands_plain : ∀ entry ∈ spelledOperands, entry.1 ∉ compoundKinds ∧
    ∀ text, (entry.2 text).isOperation = false ∧ (entry.2 text).slots = [] ∧
      (entry.2 text).tightParts = [] ∧ entry.2 text ≠ .path [] := by
  have hkinds : ∀ entry ∈ spelledOperands, entry.1 ∉ compoundKinds := by decide
  have hparts : ∀ entry ∈ spelledOperands, ∀ text, (entry.2 text).isOperation = false ∧
      (entry.2 text).slots = [] ∧ (entry.2 text).tightParts = [] ∧ entry.2 text ≠ .path [] := by
    simp [spelledOperands,Node.isOperation,Node.kind,Node.slots,Node.tightParts]
  exact fun entry hentry => ⟨hkinds entry hentry,hparts entry hentry⟩

theorem ExpressionEntry.mirrors_build {kind : String} {plan : Plan Node}
    (hentry : ExpressionEntry kind plan) {t : ParseTree} (hkind : t.kind = kind)
    {value : plan.rule.Result} (h : mirroredResult plan.rule t value) :
    Mirrors t (plan.build value) := by
  cases hentry with
  | spelled hspelled =>
    obtain ⟨hplain,hparts⟩ := spelledOperands_plain _ hspelled
    obtain ⟨hoperation,hslots,htight,hpath⟩ := hparts value
    exact mirrors_of_leaf (hkind ▸ hplain) hoperation hslots htight hpath
  | qualified => exact mirrors_of_leaf (by rw [hkind]; decide) rfl rfl rfl (by simp)
  | boolean hkeyword =>
    have hplain : ∀ k ∈ ["true","false"], k ∉ compoundKinds := by decide
    exact mirrors_of_leaf (hkind ▸ hplain _ hkeyword) rfl rfl rfl (by simp)
  | null hnull =>
    have hplain : ∀ k ∈ ["null","nullptr"], k ∉ compoundKinds := by decide
    exact mirrors_of_leaf (hkind ▸ hplain _ hnull) rfl rfl rfl (by simp)
  | parenthesized =>
    have hcompound : t.kind ∈ compoundKinds := by
      rw [hkind]
      decide
    exact mirrors_parenthesized hkind (h hcompound (by decide))
  | concatenation | binary | unary | update | conditional | assignment | call | field
  | subscript => exact h

def mirroredBy (child : ParseTree) (rule : Rule) (value : rule.Result) : Prop :=
  child.kind ∈ rule.kinds ∧ mirroredResult rule child value

theorem leads_mirrored {σ : Type} {P : σ → Prop} {child : ParseTree} {build : Node → σ}
    (h : ∀ e : Node, Mirrors child e → P (build e)) :
    (Action.expect (expression? (head child).kind) build).Leads (mirroredBy child) P := by
  refine leads_of_expect fun plan hplan value hvalue => h _ ?_
  exact (entry_of_expression? hplan).mirrors_build rfl hvalue.2

section Steps
variable {before : List ParseTree} {child : ParseTree}

theorem stepOperand_mirrored {skipped : List String}
    (hskipped : ∀ k ∈ skipped, k ∈ ParseTree.punctuation) {value : Option Node}
    (h : GroupedAlike before value.toList) :
    (stepOperand skipped value (head child)).Leads (mirroredBy child)
      fun value => GroupedAlike (before ++ [child]) value.toList := by
  apply leads_stepOperand
  · exact fun hskip => h.skip (clear_of_punctuation (hskipped _ hskip))
  · exact fun hnone => leads_mirrored fun e he => h.add he.grouped (by simp [hnone])

theorem OperatorSlots.step_mirrored {operators : List String}
    (hoperators : ∀ k ∈ operators, k ∉ compoundKinds) {s : OperatorSlots}
    (h : GroupedAlike before (s.left.toList ++ s.right.toList)) :
    (s.step operators (head child)).Leads (mirroredBy child)
      fun s => GroupedAlike (before ++ [child]) (s.left.toList ++ s.right.toList) := by
  apply leads_step
  · exact fun hsign _ _ => h.skip (clear_of_kind (hoperators _ hsign))
  · exact fun hnone => leads_mirrored fun e he => h.add he.grouped (by simp [hnone,or_comm])
  · exact fun _ hnone => leads_mirrored fun e he => h.add he.grouped (by simp [hnone])

theorem SignedAlike.skip {operand : Option Node} (h : SignedAlike before operand)
    (hkind : child.kind ∉ compoundKinds) : SignedAlike (before ++ [child]) operand :=
  ⟨h.1.skip (clear_of_kind hkind),h.2.skip (not_isOperation_of_not_compound hkind)⟩

theorem SignedAlike.add {e : Node} (h : SignedAlike before none) (he : Mirrors child e) :
    SignedAlike (before ++ [child]) (some e) :=
  ⟨h.1.add he.grouped (by simp),h.2.add (not_congr he.operation) (by simp)⟩

theorem UnarySlots.step_mirrored {s : UnarySlots} (h : SignedAlike before s.expression) :
    (s.step (head child)).Leads (mirroredBy child)
      fun s => SignedAlike (before ++ [child]) s.expression := by
  have hsigns : ∀ k ∈ unaryOperators, k ∉ compoundKinds := by decide
  apply leads_step
  · exact fun hsign _ => h.skip (hsigns _ hsign)
  · intro _ hnone
    rw [hnone] at h
    exact leads_mirrored fun e he => h.add he

theorem UpdateSlots.step_mirrored {s : UpdateSlots} (h : SignedAlike before s.expression) :
    (s.step (head child)).Leads (mirroredBy child)
      fun s => SignedAlike (before ++ [child]) s.expression := by
  have hsigns : ∀ k ∈ updateOperators, k ∉ compoundKinds := by decide
  apply leads_step
  · exact fun hsign _ => h.skip (hsigns _ hsign)
  · intro hnone
    rw [hnone] at h
    exact leads_mirrored fun e he => h.add he

theorem ConditionalSlots.step_mirrored {s : ConditionalSlots}
    (h : GroupedAlike before (s.test.toList ++ (s.success.toList ++ s.failure.toList))) :
    (s.step (head child)).Leads (mirroredBy child) fun s => GroupedAlike (before ++ [child])
      (s.test.toList ++ (s.success.toList ++ s.failure.toList)) := by
  have hmark : ∀ k ∈ ["?",":"], child.kind = k → Clear child := by
    have hmarks : ∀ k ∈ ["?",":"], k ∈ ParseTree.punctuation := by decide
    exact fun k hk hkind => clear_of_punctuation (hkind ▸ hmarks k hk)
  apply leads_step
  · exact fun _ hnone => leads_mirrored fun e he => h.add he.grouped (by simp [hnone,or_comm])
  · exact fun _ hkind => h.skip (hmark "?" (by simp) hkind)
  · intro _ hnone
    refine leads_mirrored fun e he => h.add he.grouped ?_
    simp [hnone,or_comm,or_left_comm]
  · exact fun _ hkind => h.skip (hmark ":" (by simp) hkind)
  · exact fun _ hnone => leads_mirrored fun e he => h.add he.grouped (by simp [hnone,or_assoc])

theorem CallSlots.step_mirrored {s : CallSlots}
    (h : GroupedAlike before (s.callee.toList ++ s.arguments.getD []) ∧
      PlainAlike (before.take 1) s.callee.toList ∧ (s.callee = none ↔ before = [])) :
    (s.step (head child)).Leads (mirroredBy child) fun s =>
      GroupedAlike (before ++ [child]) (s.callee.toList ++ s.arguments.getD []) ∧
        PlainAlike ((before ++ [child]).take 1) s.callee.toList ∧
          (s.callee = none ↔ before ++ [child] = []) := by
  obtain ⟨hgrouped,hplain,hempty⟩ := h
  apply leads_step
  · rintro - hcallee hnone arguments ⟨-,harguments⟩
    have hbefore : before ≠ [] := fun hb => hcallee (hempty.2 hb)
    have harguments : (∀ n ∈ arguments, Everywhere Node.Grouped [n]) ↔ Clear child := harguments
    refine ⟨?_,?_,by simp [hcallee]⟩
    · have hall : GroupedAlike (before ++ [child])
          ((s.callee.toList ++ s.arguments.getD []) ++ arguments) := hgrouped.append harguments
      simpa [hnone] using hall
    · rw [List.take_append_of_le_length (List.length_pos_iff.2 hbefore)]
      exact hplain
  · intro hnone
    have hbefore := hempty.1 hnone
    subst hbefore
    refine leads_mirrored fun e he => ⟨hgrouped.add he.grouped (by simp [hnone,or_comm]),?_,by simp⟩
    have hfirst : PlainAlike ([] ++ [child]) [e] :=
      hplain.add (not_congr he.operation) (by simp [hnone])
    exact hfirst

theorem stepArguments_mirrored {arguments : List Node} (h : GroupedAlike before arguments) :
    (stepArguments arguments (head child)).Leads (mirroredBy child)
      fun arguments => GroupedAlike (before ++ [child]) arguments := by
  apply leads_stepArguments
  · have hmarks : ∀ k ∈ ["(",")",","], k ∈ ParseTree.punctuation := by decide
    exact fun hskip => h.skip (clear_of_punctuation (hmarks _ hskip))
  · exact leads_mirrored fun e he => h.add he.grouped (by simp)

theorem PathAlike.add {steps : List Node} {e : Node} (h : PathAlike before steps)
    (hsteps : steps ≠ []) (he : Everywhere Node.Grouped [e] ↔ Clear child) :
    PathAlike (before ++ [child]) (steps ++ [e]) := by
  obtain ⟨hempty,hagree⟩ := h
  have hbefore : before ≠ [] := fun hb => hsteps (hempty.2 hb)
  refine ⟨by simp,?_⟩
  rw [List.take_append_of_le_length (List.length_pos_iff.2 hbefore),
    List.take_append_of_le_length (List.length_pos_iff.2 hsteps),List.forall_mem_append,
    List.forall_mem_append,List.forall_mem_singleton,List.forall_mem_singleton,← and_assoc,
    ← and_assoc]
  exact and_congr hagree he

theorem PathAlike.skip {steps : List Node} (h : PathAlike before steps) (hsteps : steps ≠ [])
    (hchild : Clear child) : PathAlike (before ++ [child]) steps := by
  obtain ⟨hempty,hagree⟩ := h
  have hbefore : before ≠ [] := fun hb => hsteps (hempty.2 hb)
  refine ⟨by simp [hsteps],?_⟩
  rw [List.take_append_of_le_length (List.length_pos_iff.2 hbefore),List.forall_mem_append,
    List.forall_mem_singleton,← and_assoc]
  exact hagree.trans (and_iff_left hchild).symm

theorem pathAlike_head {e : Node} (he : Mirrors child e) : PathAlike [child] (pathSteps e) := by
  have hplain : ¬e.isOperation ↔ ¬isOperation child := not_congr he.operation
  have hgrouped := he.grouped
  have hpath := he.ne_path
  unfold PathAlike
  simp only [List.take_succ_cons,List.take_zero,List.forall_mem_singleton]
  cases e with
  | path steps =>
    -- A path is never an operation, and its steps stay the same in the longer one.
    have hsteps : steps ≠ [] := by simpa using hpath
    have hclear : ¬isOperation child := hplain.1 (by simp [Node.isOperation,Node.kind])
    rw [everywhere_grouped_iff,Node.children_path] at hgrouped
    exact ⟨by simp [pathSteps,hsteps],hgrouped.trans (and_iff_right hclear).symm⟩
  | _ =>
    refine ⟨by simp [pathSteps],?_⟩
    rw [← hplain,← hgrouped]
    simp [pathSteps]

theorem FieldSlots.step_mirrored {s : FieldSlots} (h : PathAlike before s.steps) :
    (s.step (head child)).Leads (mirroredBy child)
      fun s => PathAlike (before ++ [child]) s.steps := by
  apply leads_step
  · have hmarks : ∀ k ∈ [".","->"], k ∈ ParseTree.punctuation := by decide
    exact fun hdot hsteps => h.skip hsteps (clear_of_punctuation (hmarks _ hdot))
  · intro hnone
    have hbefore := h.1.1 hnone
    subst hbefore
    exact leads_mirrored fun e he => pathAlike_head he
  · intro hsteps hname
    have hkind : child.kind ∉ compoundKinds := by
      rw [show child.kind = "field_identifier" from hname]
      decide
    have hmember : Mirrors child (.reference child.text) :=
      mirrors_of_leaf hkind rfl rfl rfl (by simp)
    exact h.add hsteps hmember.grouped

theorem SubscriptSlots.step_mirrored {s : SubscriptSlots}
    (h : (s.inBrackets → s.steps ≠ []) ∧ PathAlike before s.steps) :
    (s.step (head child)).Leads (mirroredBy child) fun s =>
      (s.inBrackets → s.steps ≠ []) ∧ PathAlike (before ++ [child]) s.steps := by
  obtain ⟨hbrackets,h⟩ := h
  have hmark : ∀ k ∈ ["[","]"], child.kind = k → Clear child := by
    have hmarks : ∀ k ∈ ["[","]"], k ∈ ParseTree.punctuation := by decide
    exact fun k hk hkind => clear_of_punctuation (hkind ▸ hmarks k hk)
  have hindex : ∀ e : Node, (Everywhere Node.Grouped [e] ↔ Clear child) → s.steps ≠ [] →
      PathAlike (before ++ [child]) (s.steps ++ [.index e]) := by
    intro e he hsteps
    refine h.add hsteps ?_
    rw [everywhere_grouped_iff,← he]
    simp [Node.tightParts,Node.children,Node.slots]
  apply leads_step
  · exact fun hopen hsteps => ⟨fun _ => hsteps,h.skip hsteps (hmark "[" (by simp) hopen)⟩
  · intro hclose hin
    have hsteps := hbrackets hin
    exact ⟨fun _ => hsteps,h.skip hsteps (hmark "]" (by simp) hclose)⟩
  · intro hnone
    have hbefore := h.1.1 hnone
    subst hbefore
    exact leads_mirrored fun e he =>
      ⟨fun hin => absurd hnone (hbrackets hin),pathAlike_head he⟩
  · intro hsteps hlist e he
    have hkind : child.kind ∈ compoundKinds := by
      rw [show child.kind = "subscript_argument_list" from hlist]
      decide
    exact ⟨by simp,hindex e (he.2 hkind (by decide)) hsteps⟩
  · exact fun hsteps => leads_mirrored fun e he => ⟨by simp,hindex e he.grouped hsteps⟩

end Steps

theorem step_mirrored (rule : Rule) (before : List ParseTree) (s : rule.State) (child : ParseTree)
    (h : mirroredState rule before s) :
    (rule.step s (head child)).Leads (mirroredBy child)
      (mirroredState rule (before ++ [child])) := by
  cases rule with
  | operand skipped =>
    by_cases hskipped : ∀ k ∈ skipped, k ∈ ParseTree.punctuation
    · exact (stepOperand_mirrored hskipped (h hskipped)).mono fun _ hvalue _ => hvalue
    · exact (leads_true _).mono fun _ _ hall => absurd hall hskipped
  | concatenation =>
    refine leads_mirrored fun e he => ?_
    exact List.rel_append h (.cons he .nil)
  | binaryExpression => exact OperatorSlots.step_mirrored (by decide) h
  | assignmentExpression => exact OperatorSlots.step_mirrored (by decide) h
  | unaryExpression => exact UnarySlots.step_mirrored h
  | updateExpression => exact UpdateSlots.step_mirrored h
  | conditionalExpression => exact ConditionalSlots.step_mirrored h
  | callExpression => exact CallSlots.step_mirrored h
  | arguments => exact stepArguments_mirrored h
  | fieldExpression => exact FieldSlots.step_mirrored h
  | subscriptExpression => exact SubscriptSlots.step_mirrored h
  | _ => exact leads_true _

section Endings
variable {tree : ParseTree}

theorem everywhere_grouped_sum (rest : List Node) (first : Node) :
    Everywhere Node.Grouped
        [rest.foldl (fun sum part => .binaryExpression "+" sum (some part)) first] ↔
      ∀ n ∈ first :: rest, Everywhere Node.Grouped [n] := by
  induction rest generalizing first with
  | nil => simp
  | cons part rest ih =>
    rw [List.foldl_cons,ih,List.forall_mem_cons,everywhere_grouped_iff]
    simp [Node.tightParts,Node.children,Node.slots,and_assoc]

theorem isOperation_sum (rest : List Node) {first : Node} (h : first.isOperation) :
    (rest.foldl (fun sum part => .binaryExpression "+" sum (some part)) first).isOperation := by
  induction rest generalizing first with
  | nil => exact h
  | cons part rest ih => exact ih (by simp [Node.isOperation,Node.kind])

theorem forall₂_grouped {trees : List ParseTree} {ns : List Node}
    (h : List.Forall₂ Mirrors trees ns) :
    (∀ n ∈ ns, Everywhere Node.Grouped [n]) ↔ ∀ c ∈ trees, Clear c := by
  induction h with
  | nil => simp
  | cons hfirst _ ih => rw [List.forall_mem_cons,List.forall_mem_cons,hfirst.grouped,ih]

theorem mirrors_sum (hkind : tree.kind = "concatenated_string") {first : Node} {rest : List Node}
    (h : List.Forall₂ Mirrors (heard tree.children) (first :: rest)) :
    Mirrors tree (rest.foldl (fun sum part => .binaryExpression "+" sum (some part)) first) := by
  have hclear : Clear tree ↔ ∀ c ∈ heard tree.children, Clear c := by
    rw [clear_iff (by rw [hkind]; decide),tightOperands_eq_nil (by rw [hkind]; decide)]
    simp
  have hgrouped := (everywhere_grouped_sum rest first).trans ((forall₂_grouped h).trans hclear.symm)
  -- A single literal is no sum; it stands for itself.
  cases rest with
  | nil =>
    have hlength : (heard tree.children).length = 1 := h.length_eq
    obtain ⟨part,hpart⟩ := List.length_eq_one_iff.1 hlength
    rw [hpart] at h
    have hfirst : Mirrors part first := by simpa using h
    have hsingle : isOperation tree = isOperation part := by
      rw [isOperation_concatenation hkind,isSum_of_heard hpart]
      simp
    exact ⟨by rw [hsingle]; exact hfirst.operation,hgrouped,hfirst.ne_path⟩
  | cons second rest =>
    have hseveral : isOperation tree := by
      cases hheard : heard tree.children with
      | nil => simp [hheard] at h
      | cons part parts =>
        rw [hheard] at h
        have hlength := h.length_eq
        rw [isOperation_concatenation hkind,isSum_of_heard hheard]
        cases parts <;> simp_all
    have hadded : (Node.binaryExpression "+" first (some second)).isOperation := rfl
    have hsum := isOperation_sum rest hadded
    refine ⟨iff_of_true hsum hseveral,hgrouped,?_⟩
    intro hpath
    rw [List.foldl_cons] at hpath
    rw [hpath] at hsum
    simp [Node.isOperation,Node.kind] at hsum

theorem mirrors_operator {e : Node} (hkind : tree.kind ∈ operatorKinds) (he : e.isOperation)
    (hparts : GroupedAlike (heard tree.children) e.children) : Mirrors tree e := by
  have hcompound : ∀ kind ∈ operatorKinds, kind ∈ compoundKinds := by decide
  have hloose : ∀ kind ∈ operatorKinds, kind ∉ headedKinds ++ signedKinds := by decide
  have htight : e.tightParts = [] := by
    cases e <;> first | rfl | simp [Node.isOperation,Node.kind] at he
  have hoperation := iff_of_true he (isOperation_of_operator hkind)
  refine mirrors_of_parts (hcompound _ hkind) hoperation ?_ hparts ?_
  · rw [htight,tightOperands_eq_nil (hloose _ hkind)]
    simp
  · rintro rfl
    simp [Node.isOperation,Node.kind] at he

theorem mirrors_sign {e value : Node} (hkind : tree.kind ∈ signedKinds)
    (he : e.isOperation = false) (htight : e.tightParts = [value])
    (hchildren : e.children = [value]) (hpath : e ≠ .path [])
    (h : SignedAlike (heard tree.children) (some value)) : Mirrors tree e := by
  have hcompound : ∀ kind ∈ signedKinds, kind ∈ compoundKinds := by decide
  have hother : ∀ kind ∈ signedKinds, kind ∉ operatorKinds ++ ["concatenated_string"] := by decide
  have hplain := not_isOperation_of_kind (hother _ hkind)
  refine mirrors_of_parts (hcompound _ hkind) (by simp [he,hplain]) ?_ (hchildren ▸ h.1) hpath
  rw [htight,tightOperands_sign hkind,forall_expression_iff]
  exact h.2

theorem mirrors_headed {e : Node} (hkind : tree.kind ∈ headedKinds) (he : e.isOperation = false)
    (hpath : e ≠ .path [])
    (h : (∀ m ∈ e.tightParts, ¬m.isOperation) ∧
        (∀ m ∈ e.children, Everywhere Node.Grouped [m]) ↔
      (∀ c ∈ (heard tree.children).take 1, ¬isOperation c) ∧ ∀ c ∈ heard tree.children, Clear c) :
    Mirrors tree e := by
  have hcompound : ∀ kind ∈ headedKinds, kind ∈ compoundKinds := by decide
  have hother : ∀ kind ∈ headedKinds, kind ∉ operatorKinds ++ ["concatenated_string"] := by decide
  have hplain := not_isOperation_of_kind (hother _ hkind)
  refine ⟨by simp [he,hplain],?_,hpath⟩
  rw [everywhere_grouped_iff,clear_iff (hcompound _ hkind),tightOperands_head hkind]
  exact h

theorem OperatorSlots.finishBinary_mirrored (hkind : tree.kind = "binary_expression")
    {s : OperatorSlots} (h : GroupedAlike (heard tree.children) (s.left.toList ++ s.right.toList)) :
    s.finishBinary.Gives (Mirrors tree) := by
  refine gives_finishBinary fun left operator hleft _ => ?_
  apply mirrors_operator (by rw [hkind]; decide) rfl
  cases hright : s.right <;> simpa [Node.children,Node.slots,hleft,hright] using h

theorem OperatorSlots.finishAssignment_mirrored (hkind : tree.kind = "assignment_expression")
    {s : OperatorSlots} (h : GroupedAlike (heard tree.children) (s.left.toList ++ s.right.toList)) :
    s.finishAssignment.Gives (Mirrors tree) := by
  refine gives_finishAssignment fun left operator right hleft _ hright => ?_
  apply mirrors_operator (by rw [hkind]; decide) rfl
  simpa [Node.children,Node.slots,hleft,hright] using h

theorem UnarySlots.finish_mirrored (hkind : tree.kind = "unary_expression") {s : UnarySlots}
    (h : SignedAlike (heard tree.children) s.expression) : s.finish.Gives (Mirrors tree) := by
  refine gives_finish fun operator e _ he => ?_
  rw [he] at h
  exact mirrors_sign (by rw [hkind]; decide) rfl rfl rfl (by simp) h

theorem UpdateSlots.finish_mirrored (hkind : tree.kind = "update_expression") {s : UpdateSlots}
    (h : SignedAlike (heard tree.children) s.expression) : s.finish.Gives (Mirrors tree) := by
  refine gives_finish fun operator e _ he => ?_
  rw [he] at h
  exact mirrors_sign (by rw [hkind]; decide) rfl rfl rfl (by simp) h

theorem ConditionalSlots.finish_mirrored (hkind : tree.kind = "conditional_expression")
    {s : ConditionalSlots} (h : GroupedAlike (heard tree.children)
      (s.test.toList ++ (s.success.toList ++ s.failure.toList))) :
    s.finish.Gives (Mirrors tree) := by
  refine gives_finish fun test success failure htest hsuccess hfailure => ?_
  apply mirrors_operator (by rw [hkind]; decide) rfl
  simpa [Node.children,Node.slots,htest,hsuccess,hfailure] using h

theorem CallSlots.finish_mirrored (hkind : tree.kind = "call_expression") {s : CallSlots}
    (h : GroupedAlike (heard tree.children) (s.callee.toList ++ s.arguments.getD []) ∧
      PlainAlike ((heard tree.children).take 1) s.callee.toList ∧
        (s.callee = none ↔ heard tree.children = [])) :
    s.finish.Gives (Mirrors tree) := by
  obtain ⟨hgrouped,hplain,-⟩ := h
  refine gives_finish fun callee hcallee => ?_
  rw [hcallee] at hgrouped hplain
  apply mirrors_headed (by rw [hkind]; decide) rfl (by simp)
  apply and_congr hplain
  simpa [GroupedAlike,Agree,Node.children,Node.slots,Function.comp_def] using hgrouped

theorem arguments_mirrored (hkind : tree.kind = "argument_list") {arguments : List Node}
    (h : GroupedAlike (heard tree.children) arguments) :
    (∀ n ∈ arguments, Everywhere Node.Grouped [n]) ↔ Clear tree := by
  rw [clear_iff (by rw [hkind]; decide),tightOperands_eq_nil (by rw [hkind]; decide)]
  simpa [GroupedAlike,Agree] using h

theorem mirrors_path {steps : List Node} (hkind : tree.kind ∈ headedKinds) (hsteps : steps ≠ [])
    (h : PathAlike (heard tree.children) steps) : Mirrors tree (.path steps) := by
  apply mirrors_headed hkind rfl (by simpa using hsteps)
  rw [Node.children_path]
  exact h.2

end Endings

theorem finish_mirrored (rule : Rule) (tree : ParseTree) (s : rule.State)
    (hkind : tree.kind ∈ rule.kinds) (h : mirroredState rule (heard tree.children) s) :
    (rule.finish tree.text s).Gives (mirroredResult rule tree) := by
  cases rule with
  | operand skipped =>
    change (Ending.ofOption .incomplete s).Gives _
    cases s with
    | none => trivial
    | some n =>
      -- The rule reads clauses and statements too, which are not part of an expression.
      intro hcompound hskipped
      have hloose : ∀ kind ∈ (Rule.operand skipped).kinds, kind ∉ headedKinds ++ signedKinds := by
        simp only [Rule.kinds]
        decide
      have hgrouped : GroupedAlike (heard tree.children) [n] := h hskipped
      rw [clear_iff hcompound,tightOperands_eq_nil (hloose _ hkind)]
      simpa [GroupedAlike,Agree] using hgrouped
  | concatenation =>
    refine gives_finishConcatenation fun first rest hs => ?_
    exact mirrors_sum (by simpa [Rule.kinds] using hkind) (hs ▸ h)
  | binaryExpression =>
    exact OperatorSlots.finishBinary_mirrored (by simpa [Rule.kinds] using hkind) h
  | assignmentExpression =>
    exact OperatorSlots.finishAssignment_mirrored (by simpa [Rule.kinds] using hkind) h
  | unaryExpression => exact UnarySlots.finish_mirrored (by simpa [Rule.kinds] using hkind) h
  | updateExpression => exact UpdateSlots.finish_mirrored (by simpa [Rule.kinds] using hkind) h
  | conditionalExpression =>
    exact ConditionalSlots.finish_mirrored (by simpa [Rule.kinds] using hkind) h
  | callExpression => exact CallSlots.finish_mirrored (by simpa [Rule.kinds] using hkind) h
  | arguments => exact arguments_mirrored (by simpa [Rule.kinds] using hkind) h
  | fieldExpression =>
    have hkind : tree.kind = "field_expression" := by simpa [Rule.kinds] using hkind
    exact FieldSlots.gives_finish fun hsteps => mirrors_path (by rw [hkind]; decide) hsteps h
  | subscriptExpression =>
    have hkind : tree.kind = "subscript_expression" := by simpa [Rule.kinds] using hkind
    exact SubscriptSlots.gives_finish fun hsteps => mirrors_path (by rw [hkind]; decide) hsteps h.2
  | _ => exact gives_true _

theorem mirroredState_start (rule : Rule) : mirroredState rule [] rule.start := by
  have hgrouped : GroupedAlike [] [] := by simp [GroupedAlike,Agree]
  have hplain : PlainAlike [] [] := by simp [PlainAlike,Agree]
  have hpath : PathAlike [] [] := by simp [PathAlike]
  cases rule with
  | operand skipped => exact fun _ => hgrouped
  | concatenation => exact .nil
  | binaryExpression => exact hgrouped
  | assignmentExpression => exact hgrouped
  | unaryExpression => exact ⟨hgrouped,hplain⟩
  | updateExpression => exact ⟨hgrouped,hplain⟩
  | conditionalExpression => exact hgrouped
  | callExpression => exact ⟨hgrouped,hplain,iff_of_true rfl rfl⟩
  | arguments => exact hgrouped
  | fieldExpression => exact hpath
  | subscriptExpression => exact ⟨fun (hin : false = true) => by simp at hin,hpath⟩
  | _ => trivial

/-- Reading expressions keeps what stands bare. -/
def mirroredHistory : History where
  state := mirroredState
  result := mirroredResult
  start := mirroredState_start
  step := step_mirrored
  finish := finish_mirrored

/-- An expression is like the parse tree that it is read from. -/
theorem mirrors_of_read {tree : ParseTree} {plan : Plan Node}
    (hplan : expression? tree.kind = some plan) {context : String} {value : plan.rule.Result}
    (h : (read plan.rule context tree).result = .ok value) :
    Mirrors tree (plan.build value) := by
  have hkind : tree.kind ∈ plan.rule.kinds := (expressionRules_suit _ (mem_of_lookup hplan)).1
  have hmirrored := mirroredHistory.read_result tree plan.rule context hkind value h
  exact (entry_of_expression? hplan).mirrors_build rfl hmirrored

/-- What the grammar lets stand in a tight place without parentheses. -/
def bareKinds : List String :=
  ["identifier", "qualified_identifier", "this", "number_literal", "true", "false", "null",
    "nullptr", "string_literal", "char_literal", "raw_string_literal", "user_defined_literal",
    "concatenated_string", "parenthesized_expression", "call_expression", "field_expression",
    "subscript_expression"]

/-- Only what the grammar lets stand there stands in the tight places of an expression, which is
a sign too under a unary one. -/
def Grammatical (t : ParseTree) : Prop :=
  ∀ u ∈ subexpressions t, ∀ c ∈ tightOperands u,
    c.kind ∈ bareKinds ∨ u.kind = "unary_expression" ∧ c.kind ∈ signedKinds

instance (t : ParseTree) : Decidable (Grammatical t) := inferInstanceAs (Decidable (∀ _ ∈ _, _))

instance (t : ParseTree) : Decidable (Clear t) := inferInstanceAs (Decidable (∀ _ ∈ _, _))

/-- Of what the grammar lets stand in a tight place only adjacent literals are an operation. -/
theorem Grammatical.clear_iff_no_sum {t : ParseTree} (h : Grammatical t) :
    Clear t ↔ ∀ u ∈ subexpressions t, ∀ c ∈ tightOperands u,
      c.kind = "concatenated_string" → ¬isSum c.children := by
  have hbare : ∀ kind ∈ bareKinds ++ signedKinds, kind ∉ operatorKinds := by decide
  refine forall₂_congr fun u hu => forall₂_congr fun c hc => ?_
  have hkind : c.kind ∈ bareKinds ++ signedKinds :=
    List.mem_append.2 ((h u hu c hc).imp_right And.right)
  by_cases hsum : c.kind = "concatenated_string"
  · rw [isOperation_concatenation hsum]
    simp [hsum]
  · have hplain : ¬isOperation c := by
      apply not_isOperation_of_kind
      simp [hbare _ hkind,hsum]
    simp [hsum,hplain]

/-- An expression is grouped exactly if no operation stands bare in a tight place of the tree that
it is read from; in a tree that keeps to the grammar, exactly if no sum of adjacent literals
does. -/
theorem grouped_of_read_iff {tree : ParseTree} {plan : Plan Node}
    (hplan : expression? tree.kind = some plan) {context : String} {value : plan.rule.Result}
    (h : (read plan.rule context tree).result = .ok value) :
    (Everywhere Node.Grouped [plan.build value] ↔
        ∀ u ∈ subexpressions tree, ∀ c ∈ tightOperands u, ¬isOperation c) ∧
      (Grammatical tree →
        (Everywhere Node.Grouped [plan.build value] ↔
          ∀ u ∈ subexpressions tree, ∀ c ∈ tightOperands u,
            c.kind = "concatenated_string" → ¬isSum c.children)) := by
  have hgrouped := (mirrors_of_read hplan h).grouped
  exact ⟨hgrouped,fun hgrammatical => hgrouped.trans hgrammatical.clear_iff_no_sum⟩

/-- `!-("a" "b").f[i + 1]("c" "d")`. -/
def groupedTree : ParseTree :=
  .node "unary_expression" "" [.node "!" "!" [],
    .node "unary_expression" "" [.node "-" "-" [],
      .node "call_expression" "" [
        .node "subscript_expression" "" [
          .node "field_expression" "" [
            .node "parenthesized_expression" "" [.node "(" "(" [],
              .node "concatenated_string" "" [.node "string_literal" "\"a\"" [],
                .node "string_literal" "\"b\"" []],
              .node ")" ")" []],
            .node "." "." [],.node "field_identifier" "f" []],
          .node "subscript_argument_list" "" [.node "[" "[" [],
            .node "binary_expression" "" [.node "identifier" "i" [],.node "+" "+" [],
              .node "number_literal" "1" []],
            .node "]" "]" []]],
        .node "argument_list" "" [.node "(" "(" [],
          .node "concatenated_string" "" [.node "string_literal" "\"c\"" [],
            .node "string_literal" "\"d\"" []],
          .node ")" ")" []]]]]

def groupedExpression : Node :=
  .unaryExpression "!" (.unaryExpression "-" (.callExpression
    (.path [.parenthesizedExpression
        (.binaryExpression "+" (.stringLiteral "\"a\"") (some (.stringLiteral "\"b\""))),
      .reference "f",
      .index (.binaryExpression "+" (.reference "i") (some (.numberLiteral "1")))])
    [.binaryExpression "+" (.stringLiteral "\"c\"") (some (.stringLiteral "\"d\""))]))

theorem grouped_groupedExpression :
    (read .unaryExpression "expression_statement" groupedTree).result = .ok groupedExpression ∧
      Grammatical groupedTree ∧ Everywhere Node.Grouped [groupedExpression] := by
  have hplan : expression? groupedTree.kind = some (.nested .unaryExpression id) := rfl
  have hread : (read .unaryExpression "expression_statement" groupedTree).result =
      .ok groupedExpression := rfl
  have hgrammatical : Grammatical groupedTree := by decide
  exact ⟨hread,hgrammatical,((grouped_of_read_iff hplan hread).2 hgrammatical).2 (by decide)⟩

/-- `"a" "b"[0]`. -/
def catenatedTree : ParseTree :=
  .node "subscript_expression" "" [
    .node "concatenated_string" "" [.node "string_literal" "\"a\"" [],
      .node "string_literal" "\"b\"" []],
    .node "subscript_argument_list" "" [.node "[" "[" [],.node "number_literal" "0" [],
      .node "]" "]" []]]

def catenatedExpression : Node :=
  .path [.binaryExpression "+" (.stringLiteral "\"a\"") (some (.stringLiteral "\"b\"")),
    .index (.numberLiteral "0")]

/-- The index is taken of both literals, but is printed at the second one. -/
theorem not_grouped_catenatedExpression :
    (read .subscriptExpression "expression_statement" catenatedTree).result =
        .ok catenatedExpression ∧
      Grammatical catenatedTree ∧ ¬catenatedExpression.Grouped ∧
      (Printing.print .top catenatedExpression).lines = ["\"a\" + \"b\"[0]"] := by
  refine ⟨rfl,by decide,?_,by decide⟩
  intro hgrouped
  exact hgrouped (.binaryExpression "+" (.stringLiteral "\"a\"") (some (.stringLiteral "\"b\"")))
    (by simp [catenatedExpression,Node.tightParts]) rfl

end Reading
end Scribe
