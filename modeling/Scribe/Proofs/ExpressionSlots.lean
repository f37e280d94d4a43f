import Mathlib.Tactic.SplitIfs
import Scribe.Proofs.RuleInvariant

/-! What the rules of expressions do, each said once for every property that may be asked of it: a
step leads to a property if all states that it can go on from have it, and an ending gives one if
the node that full slots are made into has it. -/
namespace Scribe
namespace Reading
open Program

/-- The kinds of operands that are spelled by their texts, and what is made of these. -/
def spelledOperands : List (String × (String → Node)) :=
  [("identifier",.reference),("field_identifier",.reference),("this",.reference),
    ("number_literal",.numberLiteral),("string_literal",.stringLiteral),
    ("char_literal",.stringLiteral),("raw_string_literal",.stringLiteral),
    ("user_defined_literal",.userDefinedLiteral)]

/-- The kinds of expressions, each with the way it is read. -/
inductive ExpressionEntry : String → Plan Node → Prop
  | spelled {kind build} : (kind,build) ∈ spelledOperands →
      ExpressionEntry kind (.nested .leaf build)
  | qualified : ExpressionEntry "qualified_identifier"
      (.nested .leaf fun text => .reference (Text.flattenScopes text))
  | boolean {kind} : kind ∈ ["true","false"] →
      ExpressionEntry kind (.nested .leaf fun _ => .booleanLiteral kind)
  | null {kind} : kind ∈ ["null","nullptr"] →
      ExpressionEntry kind (.nested .leaf fun _ => .nullLiteral)
  | parenthesized : ExpressionEntry "parenthesized_expression"
      (.nested (.operand ["(",")"]) .parenthesizedExpression)
  | concatenation : ExpressionEntry "concatenated_string" (.nested .concatenation id)
  | binary : ExpressionEntry "binary_expression" (.nested .binaryExpression id)
  | unary : ExpressionEntry "unary_expression" (.nested .unaryExpression id)
  | update : ExpressionEntry "update_expression" (.nested .updateExpression id)
  | conditional : ExpressionEntry "conditional_expression" (.nested .conditionalExpression id)
  | assignment : ExpressionEntry "assignment_expression" (.nested .assignmentExpression id)
  | call : ExpressionEntry "call_expression" (.nested .callExpression id)
  | field : ExpressionEntry "field_expression" (.nested .fieldExpression id)
  | subscript : ExpressionEntry "subscript_expression" (.nested .subscriptExpression id)

theorem expressionRules_entry :
    ∀ entry ∈ expressionRules, ExpressionEntry entry.1 entry.2 := by
  have hspelled : ∀ entry ∈ spelledOperands,
      ExpressionEntry entry.1 (.nested .leaf entry.2) := fun _ => .spelled
  simp only [spelledOperands,List.forall_mem_cons] at hspelled
  obtain ⟨hidentifier,hfield,hthis,hnumber,hstring,hchar,hraw,huser,-⟩ := hspelled
  simp only [expressionRules,List.forall_mem_cons]
  exact ⟨hidentifier,hfield,hthis,.qualified,hnumber,.boolean (by simp),.boolean (by simp),
    .null (by simp),.null (by simp),hstring,hchar,hraw,.concatenation,huser,.binary,.unary,.update,
    .parenthesized,.conditional,.assignment,.call,.field,.subscript,by simp⟩

theorem entry_of_expression? {kind : String} {plan : Plan Node} (h : expression? kind = some plan) :
    ExpressionEntry kind plan :=
  expressionRules_entry _ (mem_of_lookup h)

section Steps
variable {result : (rule : Rule) → rule.Result → Prop} {child : Head}

theorem leads_stepOperand {tokens : List String} {value : Option Node} {P : Option Node → Prop}
    (hskip : child.kind ∈ tokens → P value)
    (hvalue : value = none → (Action.expect (expression? child.kind) some).Leads result P) :
    (stepOperand tokens value child).Leads result P := by
  unfold stepOperand
  split_ifs with hkind hsome
  · exact hskip hkind
  · trivial
  · exact hvalue (by simpa using hsome)

theorem OperatorSlots.leads_step {operators : List String} {s : OperatorSlots}
    {P : OperatorSlots → Prop}
    (hsign : child.kind ∈ operators → s.left ≠ none → s.operator = none →
      P { s with operator := some child.kind })
    (hleft : s.left = none → (Action.expect (expression? child.kind) fun e =>
      { s with left := some e }).Leads result P)
    (hright : s.operator ≠ none → s.right = none → (Action.expect (expression? child.kind) fun e =>
      { s with right := some e }).Leads result P) : (s.step operators child).Leads result P := by
  unfold step
  split_ifs with hoperator hfirst hsecond
  · obtain ⟨hkind,hsome,hnone⟩ := hoperator
    exact hsign hkind (Option.isSome_iff_ne_none.1 hsome) (by simpa using hnone)
  · exact hleft (by simpa using hfirst)
  · exact hright (Option.isSome_iff_ne_none.1 hsecond.1) (by simpa using hsecond.2)
  · trivial

theorem UnarySlots.leads_step {s : UnarySlots} {P : UnarySlots → Prop}
    (hsign : child.kind ∈ unaryOperators → s.operator = none →
      P { s with operator := some child.kind })
    (hvalue : s.operator ≠ none → s.expression = none → (Action.expect (expression? child.kind)
      fun e => { s with expression := some e }).Leads result P) : (s.step child).Leads result P := by
  unfold step
  split_ifs with hoperator hoperand
  · exact hsign hoperator.1 (by simpa using hoperator.2)
  · exact hvalue (Option.isSome_iff_ne_none.1 hoperand.1) (by simpa using hoperand.2)
  · trivial

theorem UpdateSlots.leads_step {s : UpdateSlots} {P : UpdateSlots → Prop}
    (hsign : child.kind ∈ updateOperators → s.operator = none →
      P { s with operator := some child.kind, isPostfix := s.expression.isSome })
    (hvalue : s.expression = none → (Action.expect (expression? child.kind) fun e =>
      { s with expression := some e }).Leads result P) : (s.step child).Leads result P := by
  unfold step
  split_ifs with hoperator hoperand
  · exact hsign hoperator.1 (by simpa using hoperator.2)
  · exact hvalue (by simpa using hoperand)
  · trivial

theorem ConditionalSlots.leads_step {s : ConditionalSlots} {P : ConditionalSlots → Prop}
    (htest : s.slot = 0 → s.test = none → (Action.expect (expression? child.kind) fun e =>
      { s with test := some e }).Leads result P)
    (hthen : s.slot = 0 → child.kind = "?" → P { s with slot := 1 })
    (hsuccess : s.slot = 1 → s.success = none → (Action.expect (expression? child.kind)
      fun e => { s with success := some e }).Leads result P)
    (helse : s.slot = 1 → child.kind = ":" → P { s with slot := 2 })
    (hfailure : s.slot = 2 → s.failure = none → (Action.expect (expression? child.kind)
      fun e => { s with failure := some e }).Leads result P) : (s.step child).Leads result P := by
  obtain ⟨slot,test,success,failure⟩ := s
  unfold step
  match slot with
  | 0 =>
    change Action.Leads result P (if _ then _ else _)
    split_ifs with hnone hkind
    · exact htest rfl (by simpa using hnone)
    · exact hthen rfl hkind
    · trivial
  | 1 =>
    change Action.Leads result P (if _ then _ else _)
    split_ifs with hnone hkind
    · exact hsuccess rfl (by simpa using hnone)
    · exact helse rfl hkind
    · trivial
  | 2 =>
    change Action.Leads result P (if _ then _ else _)
    split_ifs with hnone
    · exact hfailure rfl (by simpa using hnone)
    · trivial
  | _ + 3 => trivial

theorem CallSlots.leads_step {s : CallSlots} {P : CallSlots → Prop}
    (harguments : child.kind = "argument_list" → s.callee ≠ none → s.arguments = none →
      ∀ arguments : List Node, result .arguments arguments →
        P { s with arguments := some arguments })
    (hcallee : s.callee = none → (Action.expect (expression? child.kind) fun e =>
      { s with callee := some e }).Leads result P) : (s.step child).Leads result P := by
  unfold step
  split_ifs with hlist hfirst
  · obtain ⟨hkind,hsome,hnone⟩ := hlist
    exact harguments hkind (Option.isSome_iff_ne_none.1 hsome) (by simpa using hnone)
  · exact hcallee (by simpa using hfirst)
  · trivial

theorem leads_stepArguments {arguments : List Node} {P : List Node → Prop}
    (hskip : child.kind ∈ ["(",")",","] → P arguments)
    (hnext : (Action.expect (expression? child.kind) fun e => arguments ++ [e]).Leads result P) :
    (stepArguments arguments child).Leads result P := by
  unfold stepArguments
  split_ifs with hkind
  · exact hskip hkind
  · exact hnext

theorem FieldSlots.leads_step {s : FieldSlots} {P : FieldSlots → Prop}
    (hdot : child.kind ∈ [".","->"] → s.steps ≠ [] → P { s with seenOperator := true })
    (hhead : s.steps = [] → (Action.expect (expression? child.kind) fun e =>
      { s with steps := pathSteps e }).Leads result P)
    (hname : s.steps ≠ [] → child.kind = "field_identifier" →
      P ⟨s.steps ++ [.reference child.text],false⟩) : (s.step child).Leads result P := by
  unfold step
  split_ifs with hoperator hfirst hmember
  · exact hdot hoperator.1 (by simpa using hoperator.2.1)
  · exact hhead (by simpa using hfirst)
  · exact hname (by simpa using hfirst) hmember.2
  · trivial

theorem SubscriptSlots.leads_step {s : SubscriptSlots} {P : SubscriptSlots → Prop}
    (hopen : child.kind = "[" → s.steps ≠ [] → P { s with inBrackets := true })
    (hclose : child.kind = "]" → s.inBrackets → P { s with inBrackets := false })
    (hhead : s.steps = [] → (Action.expect (expression? child.kind) fun e =>
      { s with steps := pathSteps e }).Leads result P)
    (hlist : s.steps ≠ [] → child.kind = "subscript_argument_list" →
      ∀ e : Node, result (.operand ["[","]"]) e → P { s with steps := s.steps ++ [.index e] })
    (hbare : s.steps ≠ [] → (Action.expect (expression? child.kind) fun e =>
      { s with steps := s.steps ++ [.index e] }).Leads result P) :
    (s.step child).Leads result P := by
  unfold step
  split_ifs with hleft hright hfirst hindex hinside
  · exact hopen hleft.1 (by simpa using hleft.2.1)
  · exact hclose hright.1 hright.2
  · exact hhead (by simpa using hfirst)
  · exact hlist (by simpa using hfirst) hindex.1
  · exact hbare (by simpa using hfirst)
  · trivial

end Steps

section Endings
variable {P : Node → Prop}

theorem gives_finishConcatenation {parts : List Node}
    (h : ∀ first rest, parts = first :: rest →
      P (rest.foldl (fun sum part => .binaryExpression "+" sum (some part)) first)) :
    (finishConcatenation parts).Gives P := by
  cases parts with
  | nil => trivial
  | cons first rest => exact h first rest rfl

theorem OperatorSlots.gives_finishBinary {s : OperatorSlots}
    (h : ∀ left operator, s.left = some left → s.operator = some operator →
      P (.binaryExpression operator left s.right)) : s.finishBinary.Gives P := by
  unfold finishBinary
  split
  · rename_i left operator hleft hoperator
    have hnode := h left operator hleft hoperator
    split_ifs with hright
    · have hnone : s.right = none := by simpa using hright
      rwa [hnone] at hnode
    · exact hnode
  · trivial

theorem OperatorSlots.gives_finishAssignment {s : OperatorSlots}
    (h : ∀ left operator right, s.left = some left → s.operator = some operator →
      s.right = some right → P (.assignmentExpression left operator right)) :
    s.finishAssignment.Gives P := by
  unfold finishAssignment
  split
  · rename_i left operator right hleft hoperator hright
    exact h left operator right hleft hoperator hright
  · trivial

theorem UnarySlots.gives_finish {s : UnarySlots}
    (h : ∀ operator e, s.operator = some operator → s.expression = some e →
      P (.unaryExpression operator e)) : s.finish.Gives P := by
  unfold finish
  split
  · rename_i operator e hoperator he
    exact h operator e hoperator he
  · trivial

theorem UpdateSlots.gives_finish {s : UpdateSlots}
    (h : ∀ operator e, s.operator = some operator → s.expression = some e →
      P (.updateExpression operator e s.isPostfix)) : s.finish.Gives P := by
  unfold finish
  split
  · rename_i operator e hoperator he
    exact h operator e hoperator he
  · trivial

theorem ConditionalSlots.gives_finish {s : ConditionalSlots}
    (h : ∀ test success failure, s.test = some test → s.success = some success →
      s.failure = some failure → P (.conditionalExpression test success failure)) :
    s.finish.Gives P := by
  unfold finish
  split
  · rename_i test success failure htest hsuccess hfailure
    exact h test success failure htest hsuccess hfailure
  · trivial

theorem CallSlots.gives_finish {s : CallSlots}
    (h : ∀ callee, s.callee = some callee →
      P (.callExpression callee (s.arguments.getD []))) : s.finish.Gives P := by
  unfold finish
  cases hcallee : s.callee with
  | none => trivial
  | some callee => exact h callee hcallee

theorem FieldSlots.gives_finish {s : FieldSlots} (h : s.steps ≠ [] → P (.path s.steps)) :
    s.finish.Gives P := by
  unfold finish
  split_ifs with hopen
  · trivial
  · rw [not_or] at hopen
    exact .check (h (by simpa using hopen.1)) _

theorem SubscriptSlots.gives_finish {s : SubscriptSlots} (h : s.steps ≠ [] → P (.path s.steps)) :
    s.finish.Gives P := by
  unfold finish
  split_ifs with hempty
  · trivial
  · exact .check (h (by simpa using hempty)) _

end Endings

end Reading
end Scribe
