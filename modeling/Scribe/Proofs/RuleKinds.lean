import Mathlib.Tactic
import Scribe.Reading.Reader

/-! Which rule reads which kinds. However a rule comes to read a child, the kind of the child
is among the kinds of the rule that reads it, and only a rule that may be used directly is. -/
namespace Scribe
namespace Reading
open Program

theorem mem_of_lookup {α : Type} {table : List (String × α)} {key : String} {a : α}
    (h : table.lookup key = some a) : (key, a) ∈ table := by
  obtain ⟨before,after,rfl,-⟩ := List.lookup_eq_some_iff.1 h
  simp

theorem item?_cases {kind : String} {plan : Plan (List Node)} (h : item? kind = some plan) :
    (kind,plan) ∈ itemRules ∨ (kind,plan) ∈ statementRules := by
  cases hlookup : itemRules.lookup kind with
  | some found =>
    obtain rfl : found = plan := by simpa [item?,hlookup] using h
    exact .inl (mem_of_lookup hlookup)
  | none =>
    have hstatement : statement? kind = some plan := by simpa [item?,hlookup] using h
    exact .inr (mem_of_lookup hstatement)

theorem body?_cases {kind : String} {plan : Plan (List Node)} (h : body? kind = some plan) :
    (kind = "compound_statement" ∧ plan = .nested .statements id) ∨ (kind,plan) ∈ statementRules := by
  by_cases hkind : kind = "compound_statement"
  · rw [body?,if_pos hkind] at h
    exact .inl ⟨hkind,(Option.some.inj h).symm⟩
  · rw [body?,if_neg hkind] at h
    exact .inr (mem_of_lookup h)

theorem alternative?_cases {kind : String} {plan : Plan (List Choice)}
    (h : alternative? kind = some plan) :
    (kind = "if_statement" ∧ plan = .nested .ifChain id) ∨
      ∃ body, body? kind = some body ∧ body.map (fun statements => [⟨none,statements⟩]) = plan := by
  by_cases hkind : kind = "if_statement"
  · rw [alternative?,if_pos hkind] at h
    exact .inl ⟨hkind,(Option.some.inj h).symm⟩
  · rw [alternative?,if_neg hkind] at h
    exact .inr (Option.map_eq_some_iff.1 h)

def regionKinds : List String := ["preproc_if","preproc_ifdef"]

/-- The kinds of the nodes that a rule reads. -/
def Rule.kinds : Rule → List String
  | leaf => ["identifier","field_identifier","qualified_identifier","this","number_literal","true",
    "false","null","nullptr","string_literal","char_literal","raw_string_literal",
    "user_defined_literal","break_statement","continue_statement"]
  | declaredName => ["pointer_declarator","reference_declarator","array_declarator"]
  | functionDeclarator => ["function_declarator"]
  | wrappedFunction => wrappingDeclarators
  | parameterList => ["parameter_list"]
  | parameterDeclaration => ["parameter_declaration","optional_parameter_declaration"]
  | namespaceDefinition => ["namespace_definition"]
  | items => ["translation_unit","declaration_list"]
  | conditionalRegion => regionKinds
  | declaration => ["declaration"]
  | initDeclarator => ["init_declarator"]
  | functionDefinition => ["function_definition"]
  | statements => ["compound_statement"]
  | optionalOperand _ => ["expression_statement","return_statement"]
  | operand _ => ["condition_clause","parenthesized_expression","throw_statement",
    "subscript_argument_list"]
  | ifChain => ["if_statement"]
  | elseClause => ["else_clause"]
  | forStatement => ["for_statement"]
  | whileStatement => ["while_statement"]
  | doStatement => ["do_statement"]
  | switchStatement => ["switch_statement"]
  | caseStatement => ["case_statement"]
  | concatenation => ["concatenated_string"]
  | binaryExpression => ["binary_expression"]
  | unaryExpression => ["unary_expression"]
  | updateExpression => ["update_expression"]
  | conditionalExpression => ["conditional_expression"]
  | assignmentExpression => ["assignment_expression"]
  | callExpression => ["call_expression"]
  | arguments => ["argument_list"]
  | fieldExpression => ["field_expression"]
  | subscriptExpression => ["subscript_expression"]

/-- Whether a rule reads declarators for the sake of the function below them. -/
def Rule.isWrapper : Rule → Bool
  | wrappedFunction => true
  | _ => false

/-- Whether a rule reports its failures without a look at the context, so that it may be used
directly. -/
def Rule.isDirect : Rule → Bool
  | leaf | declaredName | functionDeclarator | wrappedFunction | parameterList
  | parameterDeclaration | items | arguments => true
  | _ => false

/-- A plan is there for a child of one of the kinds of its rule, and for a wrapper only if it
declares a function. A child is read directly only if its rule allows for that. -/
@[mk_iff] structure Plan.Suits {σ : Type} (plan : Plan σ) (child : Head) : Prop where
  kind : child.kind ∈ plan.rule.kinds
  wrapper : plan.rule.isWrapper → child.declaresFunction
  direct : plan.isDirect → plan.rule.isDirect

/-- There is a place for the child, and it is read, if at all, by a plan that is there for it. -/
def Action.Suits {σ : Type} (child : Head) : Action σ → Prop
  | .descend plan => plan.Suits child
  | .overrun => False
  | _ => True

/-- The position among the places of a node, if it has any, is that of a place. -/
def Rule.InRange : (rule : Rule) → rule.State → Prop
  | forStatement => fun s : ForSlots => s.slot < forPlaces.length
  | conditionalExpression => fun s : ConditionalSlots => s.slot < conditionalPlaces.length
  | _ => fun _ => True

section Suits
variable {σ : Type} {child : Head}

@[simp] theorem suits_keep (s : σ) : (Action.keep s).Suits child := trivial

@[simp] theorem suits_reject : (Action.reject : Action σ).Suits child := trivial

@[simp] theorem suits_descend {plan : Plan σ} :
    (Action.descend plan).Suits child ↔ plan.Suits child := Iff.rfl

theorem Plan.Suits.map {α : Type} {plan : Plan α} (h : plan.Suits child) (f : α → σ) :
    (plan.map f).Suits child :=
  ⟨h.kind,h.wrapper,h.direct⟩

theorem Action.Suits.expect {α : Type} {plan : Option (Plan α)} {build : α → σ}
    (h : ∀ p ∈ plan, p.Suits child) : (Action.expect plan build).Suits child := by
  cases plan with
  | none => trivial
  | some p => exact (h p rfl).map build

/-- Entries of a table that each give a rule for their kind, and none that reads wrappers. -/
def TableSuits {α : Type} (table : List (String × Plan α)) : Prop :=
  ∀ entry ∈ table, entry.1 ∈ entry.2.rule.kinds ∧ entry.2.rule.isWrapper = false ∧
    (entry.2.isDirect → entry.2.rule.isDirect)

theorem TableSuits.suits {α : Type} {table : List (String × Plan α)} (h : TableSuits table)
    {plan : Plan α} (hplan : (child.kind,plan) ∈ table) : plan.Suits child := by
  obtain ⟨hkind,hwrapper,hdirect⟩ := h _ hplan
  exact ⟨hkind,fun htrue => absurd htrue (by simp [hwrapper]),hdirect⟩

theorem nameRules_suit : TableSuits nameRules := by
  unfold TableSuits
  decide

theorem expressionRules_suit : TableSuits expressionRules := by
  unfold TableSuits
  decide

theorem statementRules_suit : TableSuits statementRules := by
  unfold TableSuits
  decide

theorem itemRules_suit : TableSuits itemRules := by
  unfold TableSuits
  decide

@[simp] theorem suits_name {build : String → σ} :
    (Action.expect (name? child.kind) build).Suits child :=
  .expect fun _ hp => nameRules_suit.suits (mem_of_lookup hp)

@[simp] theorem suits_expression {build : Node → σ} :
    (Action.expect (expression? child.kind) build).Suits child :=
  .expect fun _ hp => expressionRules_suit.suits (mem_of_lookup hp)

@[simp] theorem suits_statement {build : List Node → σ} :
    (Action.expect (statement? child.kind) build).Suits child :=
  .expect fun _ hp => statementRules_suit.suits (mem_of_lookup hp)

@[simp] theorem suits_item {build : List Node → σ} :
    (Action.expect (item? child.kind) build).Suits child := by
  refine .expect fun plan hplan => ?_
  rcases item?_cases hplan with hitem | hstatement
  · exact itemRules_suit.suits hitem
  · exact statementRules_suit.suits hstatement

theorem suits_of_body? {plan : Plan (List Node)} (h : body? child.kind = some plan) :
    plan.Suits child := by
  rcases body?_cases h with ⟨hkind,rfl⟩ | hstatement
  · simp [Plan.suits_iff,hkind,Rule.kinds,Rule.isWrapper]
  · exact statementRules_suit.suits hstatement

@[simp] theorem suits_body {build : List Node → σ} :
    (Action.expect (body? child.kind) build).Suits child :=
  .expect fun _ hp => suits_of_body? hp

@[simp] theorem suits_alternative {build : List Choice → σ} :
    (Action.expect (alternative? child.kind) build).Suits child := by
  refine .expect fun plan hplan => ?_
  rcases alternative?_cases hplan with ⟨hkind,rfl⟩ | ⟨body,hbody,rfl⟩
  · simp [Plan.suits_iff,hkind,Rule.kinds,Rule.isWrapper]
  · exact (suits_of_body? hbody).map _

theorem suits_function (hdeclares : child.declaresFunction)
    (h : child.kind = "function_declarator" ∨ child.kind ∈ wrappingDeclarators) :
    (function child.kind).Suits child := by
  by_cases hkind : child.kind = "function_declarator"
  · rw [function,if_pos hkind]
    exact ⟨by simp [hkind,Rule.kinds],fun _ => hdeclares,fun _ => rfl⟩
  · rw [function,if_neg hkind]
    exact ⟨h.resolve_left hkind,fun _ => hdeclares,fun _ => rfl⟩

end Suits

theorem anyDeclaresFunction_iff {children : List ParseTree} :
    anyDeclaresFunction children ↔ ∃ c ∈ children, declaresFunction c := by
  induction children with
  | nil => simp [anyDeclaresFunction]
  | cons c cs ih => simp [anyDeclaresFunction,ih]

theorem kind_of_declaresFunction {t : ParseTree} (h : declaresFunction t) :
    t.kind = "function_declarator" ∨ t.kind ∈ wrappingDeclarators := by
  cases t with
  | node kind text children =>
    simp only [declaresFunction,Bool.or_eq_true,beq_iff_eq,Bool.and_eq_true,
      decide_eq_true_iff] at h
    exact h.imp_right And.left

theorem not_isNoise_of_declaresFunction {t : ParseTree} (h : declaresFunction t) :
    ¬isNoise t.kind := by
  have hkind := kind_of_declaresFunction h
  simp only [wrappingDeclarators,List.mem_cons,List.not_mem_nil,or_false] at hkind
  rcases hkind with hkind | hkind | hkind <;> simp [hkind,isNoise,noiseKinds]

section Steps

theorem stepDeclaredName_suits (s : Option String) (child : Head) :
    (stepDeclaredName s child).Suits child := by
  unfold stepDeclaredName
  split
  · rename_i plan hplan
    exact (nameRules_suit.suits (mem_of_lookup hplan)).map some
  · trivial

theorem SignatureSlots.step_suits (s : SignatureSlots) (child : Head) :
    (s.step child).Suits child := by
  rw [SignatureSlots.step]
  split_ifs <;> simp_all [Plan.suits_iff,Rule.kinds,Rule.isWrapper,Rule.isDirect]

theorem stepParameterList_suits (s : List Parameter) (child : Head) :
    (stepParameterList s child).Suits child := by
  rw [stepParameterList]
  split_ifs <;> simp_all [Plan.suits_iff,Rule.kinds,Rule.isWrapper,Rule.isDirect]

theorem ParameterSlots.step_suits (s : ParameterSlots) (child : Head) :
    (s.step child).Suits child := by
  rw [ParameterSlots.step]
  split_ifs <;> simp_all

theorem NamespaceSlots.step_suits (s : NamespaceSlots) (child : Head) :
    (s.step child).Suits child := by
  rw [NamespaceSlots.step]
  split_ifs <;> simp_all [Plan.suits_iff,Rule.kinds,Rule.isWrapper,Rule.isDirect]

theorem stepItems_suits (s : List Node) (child : Head) :
    (stepItems s child).Suits child := by
  rw [stepItems]
  split_ifs <;> simp_all

theorem RegionSlots.step_suits (s : RegionSlots) (child : Head) :
    (s.step child).Suits child := by
  rw [RegionSlots.step]
  split_ifs <;> simp_all

theorem DeclarationSlots.step_suits (s : DeclarationSlots) (child : Head) :
    (s.step child).Suits child := by
  rw [DeclarationSlots.step]
  split_ifs <;> simp_all [Plan.suits_iff,Rule.kinds,Rule.isWrapper]

theorem InitSlots.step_suits (s : InitSlots) (child : Head) :
    (s.step child).Suits child := by
  rw [InitSlots.step]
  split_ifs <;> simp_all

theorem stepStatements_suits (s : List Node) (child : Head) :
    (stepStatements s child).Suits child := by
  rw [stepStatements]
  split_ifs <;> simp_all

theorem stepOperand_suits (tokens : List String) (s : Option Node) (child : Head) :
    (stepOperand tokens s child).Suits child := by
  rw [stepOperand]
  split_ifs <;> simp_all

theorem IfSlots.step_suits (s : IfSlots) (child : Head) :
    (s.step child).Suits child := by
  rw [IfSlots.step]
  split_ifs <;> simp_all [Plan.suits_iff,Rule.kinds,Rule.isWrapper]

theorem stepElse_suits (s : Option (List Choice)) (child : Head) :
    (stepElse s child).Suits child := by
  rw [stepElse]
  split_ifs <;> simp_all

theorem ForSlots.step_suits {s : ForSlots} (h : s.slot < forPlaces.length) (child : Head) :
    (s.step child).Suits child := by
  unfold ForSlots.step
  split
  · trivial
  · split
    · split_ifs <;> simp
    · split_ifs <;> simp
    · split_ifs <;> simp
    · exact suits_body
    · rename_i hnone
      exact absurd h (by simpa using hnone)

theorem WhileSlots.step_suits (s : WhileSlots) (child : Head) :
    (s.step child).Suits child := by
  rw [WhileSlots.step]
  split_ifs <;> simp_all [Plan.suits_iff,Rule.kinds,Rule.isWrapper]

theorem DoSlots.step_suits (s : DoSlots) (child : Head) :
    (s.step child).Suits child := by
  rw [DoSlots.step]
  split_ifs <;> simp_all [Plan.suits_iff,Rule.kinds,Rule.isWrapper]

theorem SwitchSlots.step_suits (s : SwitchSlots) (child : Head) :
    (s.step child).Suits child := by
  rw [SwitchSlots.step]
  split_ifs <;> simp_all [Plan.suits_iff,Rule.kinds,Rule.isWrapper]

theorem CaseSlots.step_suits (s : CaseSlots) (child : Head) :
    (s.step child).Suits child := by
  rw [CaseSlots.step]
  split_ifs <;> simp_all

theorem OperatorSlots.step_suits (operators : List String) (s : OperatorSlots) (child : Head) :
    (OperatorSlots.step operators s child).Suits child := by
  rw [OperatorSlots.step]
  split_ifs <;> simp_all

theorem UnarySlots.step_suits (s : UnarySlots) (child : Head) :
    (s.step child).Suits child := by
  rw [UnarySlots.step]
  split_ifs <;> simp_all

theorem UpdateSlots.step_suits (s : UpdateSlots) (child : Head) :
    (s.step child).Suits child := by
  rw [UpdateSlots.step]
  split_ifs <;> simp_all

theorem ConditionalSlots.step_suits {s : ConditionalSlots}
    (h : s.slot < conditionalPlaces.length) (child : Head) : (s.step child).Suits child := by
  unfold ConditionalSlots.step
  split
  · split_ifs <;> simp
  · split_ifs <;> simp
  · split_ifs <;> simp
  · rename_i hnone
    exact absurd h (by simpa using hnone)

theorem CallSlots.step_suits (s : CallSlots) (child : Head) :
    (s.step child).Suits child := by
  rw [CallSlots.step]
  split_ifs <;> simp_all [Plan.suits_iff,Rule.kinds,Rule.isWrapper,Rule.isDirect]

theorem stepArguments_suits (s : List Node) (child : Head) :
    (stepArguments s child).Suits child := by
  rw [stepArguments]
  split_ifs <;> simp_all

theorem FieldSlots.step_suits (s : FieldSlots) (child : Head) :
    (s.step child).Suits child := by
  rw [FieldSlots.step]
  split_ifs <;> simp_all

theorem SubscriptSlots.step_suits (s : SubscriptSlots) (child : Head) :
    (s.step child).Suits child := by
  rw [SubscriptSlots.step]
  split_ifs <;> simp_all [Plan.suits_iff,Rule.kinds,Rule.isWrapper]

/-- The children that declare functions are declarators. -/
def Head.Declares (child : Head) : Prop :=
  child.declaresFunction → child.kind = "function_declarator" ∨ child.kind ∈ wrappingDeclarators

theorem declares_head (t : ParseTree) : (head t).Declares := kind_of_declaresFunction

theorem stepWrappedFunction_suits (s : Option Signature) {child : Head} (h : child.Declares) :
    (stepWrappedFunction s child).Suits child := by
  rw [stepWrappedFunction]
  split_ifs with hfound
  · exact (suits_function hfound.2 (h hfound.2)).map some
  · trivial

theorem FunctionSlots.step_suits (s : FunctionSlots) {child : Head} (h : child.Declares) :
    (s.step child).Suits child := by
  rw [FunctionSlots.step]
  split_ifs with _ _ hsignature hbody
  · trivial
  · trivial
  · exact (suits_function hsignature.1 (h hsignature.1)).map _
  · simp [Plan.suits_iff,hbody.1,Rule.kinds,Rule.isWrapper]
  · trivial

end Steps

/-- Whatever a rule does about a child, if it has it read then by a rule for its kind. -/
theorem step_suits (rule : Rule) {s : rule.State} (hrange : rule.InRange s) {child : Head}
    (h : child.Declares) : (rule.step s child).Suits child := by
  cases rule with
  | leaf => trivial
  | declaredName => exact stepDeclaredName_suits s child
  | functionDeclarator => exact SignatureSlots.step_suits s child
  | wrappedFunction => exact stepWrappedFunction_suits s h
  | parameterList => exact stepParameterList_suits s child
  | parameterDeclaration => exact ParameterSlots.step_suits s child
  | namespaceDefinition => exact NamespaceSlots.step_suits s child
  | items => exact stepItems_suits s child
  | conditionalRegion => exact RegionSlots.step_suits s child
  | declaration => exact DeclarationSlots.step_suits s child
  | initDeclarator => exact InitSlots.step_suits s child
  | functionDefinition => exact FunctionSlots.step_suits s h
  | statements => exact stepStatements_suits s child
  | optionalOperand tokens => exact stepOperand_suits tokens s child
  | operand tokens => exact stepOperand_suits tokens s child
  | ifChain => exact IfSlots.step_suits s child
  | elseClause => exact stepElse_suits s child
  | forStatement => exact ForSlots.step_suits hrange child
  | whileStatement => exact WhileSlots.step_suits s child
  | doStatement => exact DoSlots.step_suits s child
  | switchStatement => exact SwitchSlots.step_suits s child
  | caseStatement => exact CaseSlots.step_suits s child
  | concatenation => exact suits_expression
  | binaryExpression => exact OperatorSlots.step_suits _ s child
  | unaryExpression => exact UnarySlots.step_suits s child
  | updateExpression => exact UpdateSlots.step_suits s child
  | conditionalExpression => exact ConditionalSlots.step_suits hrange child
  | assignmentExpression => exact OperatorSlots.step_suits _ s child
  | callExpression => exact CallSlots.step_suits s child
  | arguments => exact stepArguments_suits s child
  | fieldExpression => exact FieldSlots.step_suits s child
  | subscriptExpression => exact SubscriptSlots.step_suits s child

theorem ForSlots.step_ne_descend {s : ForSlots} (h : forPlaces.length ≤ s.slot) (child : Head)
    (plan : Plan ForSlots) : s.step child ≠ .descend plan := by
  rw [ForSlots.step,List.getElem?_eq_none h]
  split_ifs <;> simp

theorem ConditionalSlots.step_ne_descend {s : ConditionalSlots}
    (h : conditionalPlaces.length ≤ s.slot) (child : Head) (plan : Plan ConditionalSlots) :
    s.step child ≠ .descend plan := by
  rw [ConditionalSlots.step,List.getElem?_eq_none h]
  simp

theorem step_ne_descend {rule : Rule} {s : rule.State} (h : ¬rule.InRange s) (child : Head)
    (plan : Plan rule.State) : rule.step s child ≠ .descend plan := by
  cases rule with
  | forStatement => exact ForSlots.step_ne_descend (Nat.le_of_not_lt h) child plan
  | conditionalExpression => exact ConditionalSlots.step_ne_descend (Nat.le_of_not_lt h) child plan
  | _ => exact absurd trivial h

theorem suits_of_descend {rule : Rule} {s : rule.State} {child : ParseTree}
    {plan : Plan rule.State} (h : rule.step s (head child) = .descend plan) :
    plan.Suits (head child) := by
  have hrange : rule.InRange s := by
    by_contra hrange
    exact step_ne_descend hrange _ plan h
  have hsuits := step_suits rule hrange (declares_head child)
  rw [h] at hsuits
  exact hsuits

theorem rule_of_region {rule : Rule} {kind : String} (hkind : kind ∈ rule.kinds)
    (hregion : kind ∈ regionKinds) : rule = .conditionalRegion := by
  simp only [regionKinds,List.mem_cons,List.not_mem_nil,or_false] at hregion
  cases rule with
  | conditionalRegion => rfl
  | _ => rcases hregion with rfl | rfl <;> simp [Rule.kinds,wrappingDeclarators] at hkind

end Reading
end Scribe
