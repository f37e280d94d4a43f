import Scribe.Proofs.RuleInvariant
import Scribe.Proofs.Sorts

/-! What is read from a parse tree is well sorted. Each rule keeps in its state only nodes
that fit the places they are meant for, and puts them there. -/
namespace Scribe
namespace Reading
open Program

def OptionFits (value : Option Node) : Prop := ∀ e ∈ value, Fits .expression e

@[simp] theorem optionFits_none : OptionFits none := by simp [OptionFits]

@[simp] theorem optionFits_some {e : Node} : OptionFits (some e) ↔ Fits .expression e := by
  simp [OptionFits]

theorem allFit_toList {value : Option Node} :
    AllFit .expression value.toList ↔ OptionFits value := by
  simp [AllFit,OptionFits]

def ParameterFits (p : Parameter) : Prop := Fits .parameter (.parameter p)

theorem parameterFits_iff {p : Parameter} : ParameterFits p ↔ OptionFits p.defaultValue := by
  rw [ParameterFits,fits_iff,← allFit_toList]
  simp only [Node.slots,forall_slots_map]
  simp [Role.admits,Node.kind,Node.Complete]

/-- An arm that may stand in a chain. -/
def ArmFits (c : Choice) : Prop := OptionFits c.condition ∧ AllFit .member c.statements

/-- What may follow the first arm of a chain. -/
def AlternativesFit (choices : List Choice) : Prop :=
  (∀ c ∈ choices, ArmFits c) ∧ ∀ c ∈ choices.dropLast, c.condition.isSome

theorem fits_ifStatement {choices : List Choice} :
    Fits .member (.ifStatement choices) ↔
      chainFault? choices = none ∧ ∀ c ∈ choices, ArmFits c := by
  have hslots : (∀ s ∈ (Node.ifStatement choices).slots, Fits s.1 s.2) ↔
      ∀ c ∈ choices, ArmFits c := by
    simp only [Node.slots,List.forall_mem_flatMap,List.forall_mem_append,forall_slots_map,
      allFit_toList,ArmFits]
  rw [fits_iff,hslots]
  simp [Role.admits,Node.kind,Node.Complete]

theorem AlternativesFit.of_ifStatement {choices : List Choice}
    (h : Fits .member (.ifStatement choices)) : AlternativesFit choices := by
  obtain ⟨hchain,harms⟩ := fits_ifStatement.1 h
  exact ⟨harms,(chainFault?_eq_none.1 hchain).2⟩

theorem fits_ifStatement_cons {condition : Node} {statements : List Node}
    {alternatives : List Choice} (hcondition : Fits .expression condition)
    (hstatements : AllFit .member statements) (h : AlternativesFit alternatives) :
    Fits .member (.ifStatement (⟨some condition,statements⟩ :: alternatives)) := by
  apply fits_ifStatement.2
  refine ⟨chainFault?_eq_none.2 ⟨⟨_,_,rfl,rfl⟩,?_⟩,?_⟩
  · cases alternatives with
    | nil => simp
    | cons second rest =>
      rw [List.dropLast_cons_cons,List.forall_mem_cons]
      exact ⟨rfl,h.2⟩
  · rw [List.forall_mem_cons]
    exact ⟨⟨optionFits_some.2 hcondition,hstatements⟩,h.1⟩

theorem fits_path_cons {head : Node} {rest : List Node} :
    Fits .expression (.path (head :: rest)) ↔ Fits .head head ∧ AllFit .step rest := by
  rw [fits_iff]
  simp only [Node.slots,List.forall_mem_cons,forall_slots_map]
  simp [Role.admits,Node.kind,Node.Complete,Kind.isExpression]

theorem not_fits_path_nil : ¬ Fits .expression (.path []) := by
  rw [fits_iff]
  simp [Node.Complete]

theorem fits_path_append {steps : List Node} {step : Node}
    (h : Fits .expression (.path steps)) (hstep : Fits .step step) :
    Fits .expression (.path (steps ++ [step])) := by
  cases steps with
  | nil => exact absurd h not_fits_path_nil
  | cons head rest =>
    obtain ⟨hhead,hrest⟩ := fits_path_cons.1 h
    rw [List.cons_append,fits_path_cons]
    exact ⟨hhead,by simp [hrest,hstep]⟩

theorem pathSteps_of_kind_ne {e : Node} (h : e.kind ≠ .path) : pathSteps e = [e] := by
  cases e <;> simp_all [pathSteps,Node.kind]

/-- The steps that an expression contributes are a path, flat even if it was one itself. -/
theorem fits_path_pathSteps {e : Node} (h : Fits .expression e) :
    Fits .expression (.path (pathSteps e)) := by
  by_cases hpath : e.kind = .path
  · cases e with
    | path steps => exact h
    | _ => simp [Node.kind] at hpath
  · rw [pathSteps_of_kind_ne hpath,fits_path_cons]
    refine ⟨h.mono fun hkind => ?_,by simp⟩
    simp only [Role.admits,Bool.and_eq_true,bne_iff_ne]
    exact ⟨hkind,hpath⟩

theorem fits_index {e : Node} (h : Fits .expression e) : Fits .step (.index e) := by
  rw [fits_iff]
  simp [Role.admits,Node.kind,Node.Complete,Node.slots,h]

theorem fits_reference_step (name : String) : Fits .step (.reference name) := by
  rw [fits_iff]
  simp [Role.admits,Node.kind,Node.Complete,Node.slots]

theorem fits_sum {parts : List Node} {first : Node} (hfirst : Fits .expression first)
    (hparts : AllFit .expression parts) :
    Fits .expression
      (parts.foldl (fun sum part => .binaryExpression "+" sum (some part)) first) := by
  induction parts generalizing first with
  | nil => exact hfirst
  | cons part parts ih =>
    obtain ⟨hpart,hrest⟩ := allFit_cons.1 hparts
    refine ih ?_ hrest
    rw [fits_iff]
    simp [Role.admits,Node.kind,Kind.isExpression,Node.Complete,Node.slots,binaryOperators,
      hfirst,hpart]

/-- What is known of the result of a rule. -/
def sortedResult : (rule : Rule) → rule.Result → Prop
  | .leaf => fun _ => True
  | .declaredName => fun _ => True
  | .functionDeclarator => fun s : Signature => ∀ p ∈ s.parameters, ParameterFits p
  | .wrappedFunction => fun s : Signature => ∀ p ∈ s.parameters, ParameterFits p
  | .parameterList => fun ps : List Parameter => ∀ p ∈ ps, ParameterFits p
  | .parameterDeclaration => fun s : ParameterSlots => OptionFits s.defaultValue
  | .namespaceDefinition => AllFit .member
  | .items => AllFit .member
  | .conditionalRegion => AllFit .member
  | .declaration => fun ns : List Node => ∀ n ∈ ns, n.kind = .declaration ∧ Fits .member n
  | .initDeclarator => fun v : Initialized => OptionFits v.init
  | .functionDefinition => Fits .member
  | .statements => AllFit .member
  | .optionalOperand _ => OptionFits
  | .operand _ => Fits .expression
  | .ifChain => fun choices : List Choice => Fits .member (.ifStatement choices)
  | .elseClause => AlternativesFit
  | .forStatement => Fits .member
  | .whileStatement => Fits .member
  | .doStatement => Fits .member
  | .switchStatement => Fits .member
  | .caseStatement => Fits .member
  | .concatenation => Fits .expression
  | .binaryExpression => Fits .expression
  | .unaryExpression => Fits .expression
  | .updateExpression => Fits .expression
  | .conditionalExpression => Fits .expression
  | .assignmentExpression => Fits .expression
  | .callExpression => Fits .expression
  | .arguments => AllFit .expression
  | .fieldExpression => Fits .expression
  | .subscriptExpression => Fits .expression

/-- A plan makes something with a property of any result of its rule. -/
def Plan.Makes {α : Type} (P : α → Prop) (plan : Plan α) : Prop :=
  ∀ value, sortedResult plan.rule value → P (plan.build value)

theorem Plan.Makes.map {α β : Type} {P : α → Prop} {Q : β → Prop} {plan : Plan α}
    (h : plan.Makes P) {f : α → β} (hf : ∀ a, P a → Q (f a)) : (plan.map f).Makes Q :=
  fun value hvalue => hf _ (h value hvalue)

theorem fits_leaf {role : Role} {n : Node} (hkind : role.admits n.kind) (hcomplete : n.Complete)
    (hslots : n.slots = []) : Fits role n := by
  rw [fits_iff,hslots]
  exact ⟨hkind,hcomplete,by simp⟩

theorem fits_parenthesized {e : Node} (h : Fits .expression e) :
    Fits .expression (.parenthesizedExpression e) := by
  rw [fits_iff]
  simp [Role.admits,Node.kind,Kind.isExpression,Node.Complete,Node.slots,h]

theorem expressionRules_make : ∀ entry ∈ expressionRules, entry.2.Makes (Fits .expression) := by
  simp only [expressionRules,List.forall_mem_cons]
  refine ⟨fun _ _ => fits_leaf rfl trivial rfl,fun _ _ => fits_leaf rfl trivial rfl,
    fun _ _ => fits_leaf rfl trivial rfl,fun _ _ => fits_leaf rfl trivial rfl,
    fun _ _ => fits_leaf rfl trivial rfl,fun _ _ => fits_leaf rfl (.inl rfl) rfl,
    fun _ _ => fits_leaf rfl (.inr rfl) rfl,fun _ _ => fits_leaf rfl trivial rfl,
    fun _ _ => fits_leaf rfl trivial rfl,fun _ _ => fits_leaf rfl trivial rfl,
    fun _ _ => fits_leaf rfl trivial rfl,fun _ _ => fits_leaf rfl trivial rfl,fun _ h => h,
    fun _ _ => fits_leaf rfl trivial rfl,fun _ h => h,fun _ h => h,fun _ h => h,
    fun _ h => fits_parenthesized h,fun _ h => h,fun _ h => h,fun _ h => h,fun _ h => h,
    fun _ h => h,by simp⟩

theorem allFit_singleton {role : Role} {n : Node} (h : Fits role n) : AllFit role [n] := by
  simp [h]

theorem fits_block {statements : List Node} (h : AllFit .member statements) :
    Fits .member (.block statements) := by
  rw [fits_iff]
  simp only [Node.slots,forall_slots_map]
  exact ⟨rfl,trivial,h⟩

theorem fits_returnStatement {value : Option Node} (h : OptionFits value) :
    Fits .member (.returnStatement value) := by
  rw [fits_iff]
  simp only [Node.slots,forall_slots_map,allFit_toList]
  exact ⟨rfl,trivial,h⟩

theorem fits_throwStatement {value : Node} (h : Fits .expression value) :
    Fits .member (.throwStatement value) := by
  rw [fits_iff]
  simp only [Node.slots,List.forall_mem_singleton]
  exact ⟨rfl,trivial,h⟩

theorem OptionFits.members {value : Option Node} (h : OptionFits value) :
    AllFit .member value.toList :=
  fun n hn => (allFit_toList.2 h n hn).member_of_expression

theorem statementRules_make : ∀ entry ∈ statementRules, entry.2.Makes (AllFit .member) := by
  simp only [statementRules,List.forall_mem_cons]
  refine ⟨fun _ h => allFit_singleton (fits_block h),fun _ h n hn => (h n hn).2,
    fun _ h => h.members,fun _ h => allFit_singleton h,fun _ h => allFit_singleton h,
    fun _ h => allFit_singleton h,fun _ h => allFit_singleton h,fun _ h => allFit_singleton h,
    fun _ h => allFit_singleton h,fun _ h => allFit_singleton (fits_returnStatement h),
    fun _ h => allFit_singleton (fits_throwStatement h),
    fun _ _ => allFit_singleton (fits_leaf rfl trivial rfl),
    fun _ _ => allFit_singleton (fits_leaf rfl trivial rfl),fun _ h => h,fun _ h => h,by simp⟩

theorem itemRules_make : ∀ entry ∈ itemRules, entry.2.Makes (AllFit .member) := by
  simp only [itemRules,List.forall_mem_cons]
  exact ⟨fun _ h => h,fun _ h => allFit_singleton h,by simp⟩

theorem item?_makes {kind : String} {plan : Plan (List Node)} (h : item? kind = some plan) :
    plan.Makes (AllFit .member) := by
  rcases item?_cases h with hitem | hstatement
  · exact itemRules_make _ hitem
  · exact statementRules_make _ hstatement

theorem body?_makes {kind : String} {plan : Plan (List Node)} (h : body? kind = some plan) :
    plan.Makes (AllFit .member) := by
  rcases body?_cases h with ⟨-,rfl⟩ | hstatement
  · exact fun _ hvalue => hvalue
  · exact statementRules_make _ hstatement

theorem alternative?_makes {kind : String} {plan : Plan (List Choice)}
    (h : alternative? kind = some plan) : plan.Makes AlternativesFit := by
  rcases alternative?_cases h with ⟨-,rfl⟩ | ⟨body,hbody,rfl⟩
  · exact fun _ hvalue => .of_ifStatement hvalue
  · refine (body?_makes hbody).map fun statements hstatements => ⟨?_,by simp⟩
    rw [List.forall_mem_singleton]
    exact ⟨optionFits_none,hstatements⟩

section Leads
variable {σ : Type} {P : σ → Prop} {kind : String}

theorem Action.Leads.expect {α : Type} {plan : Option (Plan α)} {build : α → σ} {Q : α → Prop}
    (hplan : ∀ p, plan = some p → p.Makes Q) (hbuild : ∀ a, Q a → P (build a)) :
    (Action.expect plan build).Leads sortedResult P := by
  cases plan with
  | none => trivial
  | some p => exact (hplan p rfl).map hbuild

theorem leads_name {build : String → σ} (h : ∀ name, P (build name)) :
    (Action.expect (name? kind) build).Leads sortedResult P :=
  .expect (Q := fun _ => True) (fun _ _ _ _ => trivial) fun name _ => h name

theorem leads_expression {build : Node → σ} (h : ∀ e, Fits .expression e → P (build e)) :
    (Action.expect (expression? kind) build).Leads sortedResult P :=
  .expect (fun _ hp => expressionRules_make _ (mem_of_lookup hp)) h

theorem leads_statement {build : List Node → σ} (h : ∀ ns, AllFit .member ns → P (build ns)) :
    (Action.expect (statement? kind) build).Leads sortedResult P :=
  .expect (fun _ hp => statementRules_make _ (mem_of_lookup hp)) h

theorem leads_item {build : List Node → σ} (h : ∀ ns, AllFit .member ns → P (build ns)) :
    (Action.expect (item? kind) build).Leads sortedResult P :=
  .expect (fun _ => item?_makes) h

theorem leads_body {build : List Node → σ} (h : ∀ ns, AllFit .member ns → P (build ns)) :
    (Action.expect (body? kind) build).Leads sortedResult P :=
  .expect (fun _ => body?_makes) h

theorem leads_alternative {build : List Choice → σ}
    (h : ∀ choices, AlternativesFit choices → P (build choices)) :
    (Action.expect (alternative? kind) build).Leads sortedResult P :=
  .expect (fun _ => alternative?_makes) h

end Leads

/-- An operator out of a list, and operands that are expressions, as far as they are there. -/
def OperatorsFit (operators : List String) (s : OperatorSlots) : Prop :=
  OptionFits s.left ∧ (∀ o ∈ s.operator, o ∈ operators) ∧ OptionFits s.right

/-- What is known of the state of a rule. -/
def sortedState : (rule : Rule) → rule.State → Prop
  | .leaf => fun _ => True
  | .declaredName => fun _ => True
  | .functionDeclarator => fun s : SignatureSlots =>
    ∀ ps ∈ s.parameters, ∀ p ∈ ps, ParameterFits p
  | .wrappedFunction => fun found : Option Signature =>
    ∀ s ∈ found, ∀ p ∈ s.parameters, ParameterFits p
  | .parameterList => fun ps : List Parameter => ∀ p ∈ ps, ParameterFits p
  | .parameterDeclaration => fun s : ParameterSlots => OptionFits s.defaultValue
  | .namespaceDefinition => fun s : NamespaceSlots => ∀ body ∈ s.body, AllFit .member body
  | .items => AllFit .member
  | .conditionalRegion => fun s : RegionSlots => AllFit .member s.items
  | .declaration => fun s : DeclarationSlots => ∀ d ∈ s.declarators, OptionFits d.init
  | .initDeclarator => fun s : InitSlots => OptionFits s.init
  | .functionDefinition => fun s : FunctionSlots =>
    (∀ f ∈ s.signature, ∀ p ∈ f.parameters, ParameterFits p) ∧
      ∀ body ∈ s.body, AllFit .member body
  | .statements => AllFit .member
  | .optionalOperand _ => OptionFits
  | .operand _ => OptionFits
  | .ifChain => fun s : IfSlots => OptionFits s.condition ∧ AllFit .member s.statements ∧
    ∀ choices ∈ s.alternatives, AlternativesFit choices
  | .elseClause => fun s : Option (List Choice) => ∀ choices ∈ s, AlternativesFit choices
  | .forStatement => fun s : ForSlots => AllFit .init s.init ∧ OptionFits s.test ∧
    OptionFits s.update ∧ AllFit .member s.body
  | .whileStatement => fun s : WhileSlots =>
    OptionFits s.condition ∧ AllFit .member s.statements
  | .doStatement => fun s : DoSlots =>
    (∀ statements ∈ s.statements, AllFit .member statements) ∧ OptionFits s.condition
  | .switchStatement => fun s : SwitchSlots => OptionFits s.condition ∧
    ∀ statements ∈ s.statements, AllFit .member statements
  | .caseStatement => fun s : CaseSlots => OptionFits s.test ∧ AllFit .member s.statements
  | .concatenation => AllFit .expression
  | .binaryExpression => OperatorsFit binaryOperators
  | .unaryExpression => fun s : UnarySlots =>
    (∀ o ∈ s.operator, o ∈ unaryOperators) ∧ OptionFits s.expression
  | .updateExpression => fun s : UpdateSlots =>
    (∀ o ∈ s.operator, o ∈ updateOperators) ∧ OptionFits s.expression
  | .conditionalExpression => fun s : ConditionalSlots =>
    OptionFits s.test ∧ OptionFits s.success ∧ OptionFits s.failure
  | .assignmentExpression => OperatorsFit assignmentOperators
  | .callExpression => fun s : CallSlots => OptionFits s.callee ∧
    ∀ arguments ∈ s.arguments, AllFit .expression arguments
  | .arguments => AllFit .expression
  | .fieldExpression => fun s : FieldSlots =>
    s.steps ≠ [] → Fits .expression (.path s.steps)
  | .subscriptExpression => fun s : SubscriptSlots =>
    s.steps ≠ [] → Fits .expression (.path s.steps)

end Reading
end Scribe
