import Scribe.Proofs.ExpressionSlots
import Scribe.Proofs.ReadingSorts

/-! The steps and the endings of all rules keep their nodes sorted, so whatever is read from
a file is well sorted. -/
namespace Scribe
namespace Reading
open Program

/-- The steps of a rule keep what is known of its state. -/
def StepsSorted (rule : Rule) : Prop :=
  ∀ (s : rule.State) (child : Head), sortedState rule s →
    (rule.step s child).Leads sortedResult (sortedState rule)

theorem forall_mem_some {α : Type} {P : α → Prop} {a : α} (h : P a) : ∀ b ∈ some a, P b :=
  fun _ hb => Option.some.inj hb ▸ h

theorem stepsSorted_functionDeclarator : StepsSorted .functionDeclarator := by
  intro s child h
  change (SignatureSlots.step s child).Leads sortedResult (sortedState .functionDeclarator)
  unfold SignatureSlots.step
  split_ifs
  · exact h
  · exact leads_name fun _ => h
  · exact fun ps hps => forall_mem_some hps
  · trivial

theorem function_makes (kind : String) :
    (function kind).Makes fun s => ∀ p ∈ s.parameters, ParameterFits p := by
  unfold function
  split_ifs <;> exact fun _ h => h

theorem stepsSorted_wrappedFunction : StepsSorted .wrappedFunction := by
  intro found child h
  change (stepWrappedFunction found child).Leads sortedResult (sortedState .wrappedFunction)
  unfold stepWrappedFunction
  split_ifs
  · exact (function_makes child.kind).map fun s hs => forall_mem_some hs
  · exact h

theorem parameter?_fits {s : ParameterSlots} (h : OptionFits s.defaultValue) (position : Nat) :
    ∀ p ∈ s.parameter? position, ParameterFits p := by
  intro p hp
  rw [parameterFits_iff]
  unfold ParameterSlots.parameter? at hp
  split at hp
  · obtain rfl := Option.some.inj hp
    exact h
  · split_ifs at hp
    · simp at hp
    · obtain rfl := Option.some.inj hp
      exact h

theorem stepsSorted_parameterList : StepsSorted .parameterList := by
  intro kept child h
  change (stepParameterList kept child).Leads sortedResult (sortedState .parameterList)
  unfold stepParameterList
  split_ifs
  · exact h
  · intro slots hslots
    refine List.forall_mem_append.2 ⟨h,fun p hp => ?_⟩
    exact parameter?_fits hslots _ p (by simpa using hp)
  · trivial

theorem stepsSorted_parameterDeclaration : StepsSorted .parameterDeclaration := by
  intro s child h
  change (ParameterSlots.step s child).Leads sortedResult (sortedState .parameterDeclaration)
  unfold ParameterSlots.step
  split_ifs
  · exact h
  · exact h
  · exact leads_name fun _ => h
  · exact h
  · exact leads_expression fun e he => optionFits_some.2 he
  · trivial

theorem stepsSorted_namespaceDefinition : StepsSorted .namespaceDefinition := by
  intro s child h
  change (NamespaceSlots.step s child).Leads sortedResult (sortedState .namespaceDefinition)
  unfold NamespaceSlots.step
  split_ifs
  · exact h
  · exact h
  · exact fun body hbody => forall_mem_some hbody
  · trivial

theorem stepsSorted_items : StepsSorted .items := by
  intro items child h
  change (stepItems items child).Leads sortedResult (sortedState .items)
  unfold stepItems
  split_ifs
  · exact h
  · exact leads_item fun more hmore => allFit_append.2 ⟨h,hmore⟩

theorem stepsSorted_conditionalRegion : StepsSorted .conditionalRegion := by
  intro s child h
  change (RegionSlots.step s child).Leads sortedResult (sortedState .conditionalRegion)
  unfold RegionSlots.step
  split_ifs
  · exact h
  · exact h
  · exact h
  · exact leads_item fun more hmore => allFit_append.2 ⟨h,hmore⟩

theorem stepsSorted_declaration : StepsSorted .declaration := by
  intro s child h
  change (DeclarationSlots.step s child).Leads sortedResult (sortedState .declaration)
  have hadd : ∀ v : Initialized, OptionFits v.init → sortedState .declaration (s.add v) := by
    intro v hv
    exact List.forall_mem_append.2 ⟨h,List.forall_mem_singleton.2 hv⟩
  unfold DeclarationSlots.step
  split_ifs
  · exact h
  · exact h
  · exact h
  · exact h
  · exact hadd
  · exact leads_name fun name => hadd ⟨name,none⟩ optionFits_none

theorem stepsSorted_initDeclarator : StepsSorted .initDeclarator := by
  intro s child h
  change (InitSlots.step s child).Leads sortedResult (sortedState .initDeclarator)
  unfold InitSlots.step
  split_ifs
  · exact h
  · exact leads_name fun _ => h
  · exact leads_expression fun e he => optionFits_some.2 he
  · trivial

theorem stepsSorted_functionDefinition : StepsSorted .functionDefinition := by
  intro s child h
  change (FunctionSlots.step s child).Leads sortedResult (sortedState .functionDefinition)
  obtain ⟨hsignature,hbody⟩ := h
  unfold FunctionSlots.step
  split_ifs
  · exact ⟨hsignature,hbody⟩
  · exact ⟨hsignature,hbody⟩
  · exact (function_makes child.kind).map fun f hf => ⟨forall_mem_some hf,hbody⟩
  · exact fun body hnew => ⟨hsignature,forall_mem_some hnew⟩
  · trivial

theorem stepsSorted_statements : StepsSorted .statements := by
  intro statements child h
  change (stepStatements statements child).Leads sortedResult (sortedState .statements)
  unfold stepStatements
  split_ifs
  · exact h
  · exact leads_statement fun more hmore => allFit_append.2 ⟨h,hmore⟩

theorem stepOperand_leads (tokens : List String) {value : Option Node} (child : Head)
    (h : OptionFits value) : (stepOperand tokens value child).Leads sortedResult OptionFits := by
  refine leads_stepOperand (fun _ => h) fun _ => ?_
  exact leads_expression fun e he => optionFits_some.2 he

theorem stepsSorted_ifChain : StepsSorted .ifChain := by
  intro s child h
  change (IfSlots.step s child).Leads sortedResult (sortedState .ifChain)
  obtain ⟨hcondition,hstatements,halternatives⟩ := h
  unfold IfSlots.step
  split_ifs
  · exact ⟨hcondition,hstatements,halternatives⟩
  · trivial
  · exact fun c hc => ⟨optionFits_some.2 hc,hstatements,halternatives⟩
  · trivial
  · exact ⟨hcondition,hstatements,halternatives⟩
  · exact fun choices hchoices => ⟨hcondition,hstatements,forall_mem_some hchoices⟩
  · exact leads_alternative fun choices hchoices =>
      ⟨hcondition,hstatements,forall_mem_some hchoices⟩
  · exact leads_body fun more hmore =>
      ⟨hcondition,allFit_append.2 ⟨hstatements,hmore⟩,halternatives⟩

theorem stepsSorted_elseClause : StepsSorted .elseClause := by
  intro alternatives child h
  change (stepElse alternatives child).Leads sortedResult (sortedState .elseClause)
  unfold stepElse
  split_ifs
  · exact h
  · trivial
  · exact leads_alternative fun choices hchoices => forall_mem_some hchoices

theorem leads_declaration {σ : Type} {P : σ → Prop} {build : List Node → σ} {kind : String}
    (hkind : kind = "declaration") (h : ∀ ns, AllFit .init ns → P (build ns)) :
    (Action.expect (statement? kind) build).Leads sortedResult P := by
  subst hkind
  intro ns hns
  apply h
  intro n hn
  obtain ⟨hdeclaration,hfits⟩ := hns n hn
  exact hfits.mono fun _ => by simp [Role.admits,hdeclaration]

theorem stepsSorted_forStatement : StepsSorted .forStatement := by
  intro s child h
  change (ForSlots.step s child).Leads sortedResult (sortedState .forStatement)
  obtain ⟨hinit,htest,hupdate,hbody⟩ := h
  have hkeep : ∀ slot, sortedState .forStatement { s with slot := slot } :=
    fun _ => ⟨hinit,htest,hupdate,hbody⟩
  unfold ForSlots.step
  split
  · exact ⟨hinit,htest,hupdate,hbody⟩
  · split
    · split_ifs with _ hdeclaration
      · exact hkeep _
      · exact leads_declaration hdeclaration fun more hmore =>
          ⟨allFit_append.2 ⟨hinit,hmore⟩,htest,hupdate,hbody⟩
      · exact leads_expression fun e he =>
          ⟨allFit_singleton he.init_of_expression,htest,hupdate,hbody⟩
      · trivial
    · split_ifs
      · exact hkeep _
      · exact leads_expression fun e he => ⟨hinit,optionFits_some.2 he,hupdate,hbody⟩
      · trivial
    · split_ifs
      · exact hkeep _
      · exact leads_expression fun e he => ⟨hinit,htest,optionFits_some.2 he,hbody⟩
      · trivial
    · exact leads_body fun more hmore => ⟨hinit,htest,hupdate,allFit_append.2 ⟨hbody,hmore⟩⟩
    · trivial

theorem stepsSorted_whileStatement : StepsSorted .whileStatement := by
  intro s child h
  change (WhileSlots.step s child).Leads sortedResult (sortedState .whileStatement)
  obtain ⟨hcondition,hstatements⟩ := h
  unfold WhileSlots.step
  split_ifs
  · exact ⟨hcondition,hstatements⟩
  · exact fun c hc => ⟨optionFits_some.2 hc,hstatements⟩
  · exact leads_body fun more hmore => ⟨hcondition,allFit_append.2 ⟨hstatements,hmore⟩⟩
  · trivial

theorem stepsSorted_doStatement : StepsSorted .doStatement := by
  intro s child h
  change (DoSlots.step s child).Leads sortedResult (sortedState .doStatement)
  obtain ⟨hstatements,hcondition⟩ := h
  unfold DoSlots.step
  split_ifs
  · exact ⟨hstatements,hcondition⟩
  · exact ⟨hstatements,hcondition⟩
  · exact leads_body fun statements hnew => ⟨forall_mem_some hnew,hcondition⟩
  · exact fun c hc => ⟨hstatements,optionFits_some.2 hc⟩
  · trivial

theorem stepsSorted_switchStatement : StepsSorted .switchStatement := by
  intro s child h
  change (SwitchSlots.step s child).Leads sortedResult (sortedState .switchStatement)
  obtain ⟨hcondition,hstatements⟩ := h
  unfold SwitchSlots.step
  split_ifs
  · exact ⟨hcondition,hstatements⟩
  · exact fun c hc => ⟨optionFits_some.2 hc,hstatements⟩
  · exact fun statements hnew => ⟨hcondition,forall_mem_some hnew⟩
  · trivial

theorem stepsSorted_caseStatement : StepsSorted .caseStatement := by
  intro s child h
  change (CaseSlots.step s child).Leads sortedResult (sortedState .caseStatement)
  obtain ⟨htest,hstatements⟩ := h
  unfold CaseSlots.step
  split_ifs
  · exact ⟨htest,hstatements⟩
  · exact ⟨htest,hstatements⟩
  · exact ⟨htest,hstatements⟩
  · exact leads_expression fun e he => ⟨optionFits_some.2 he,hstatements⟩
  · exact leads_statement fun more hmore => ⟨htest,allFit_append.2 ⟨hstatements,hmore⟩⟩
  · trivial

theorem stepsSorted_concatenation : StepsSorted .concatenation := by
  intro parts child h
  exact leads_expression fun part hpart => allFit_append.2 ⟨h,allFit_singleton hpart⟩

theorem OperatorSlots.step_leads (operators : List String) {s : OperatorSlots} (child : Head)
    (h : OperatorsFit operators s) :
    (s.step operators child).Leads sortedResult (OperatorsFit operators) := by
  obtain ⟨hleft,hoperator,hright⟩ := h
  apply leads_step
  · exact fun hsign _ _ => ⟨hleft,forall_mem_some hsign,hright⟩
  · exact fun _ => leads_expression fun e he => ⟨optionFits_some.2 he,hoperator,hright⟩
  · exact fun _ _ => leads_expression fun e he => ⟨hleft,hoperator,optionFits_some.2 he⟩

theorem stepsSorted_unaryExpression : StepsSorted .unaryExpression := by
  intro s child h
  obtain ⟨hoperator,hvalue⟩ := h
  apply UnarySlots.leads_step
  · exact fun hsign _ => ⟨forall_mem_some hsign,hvalue⟩
  · exact fun _ _ => leads_expression fun e he => ⟨hoperator,optionFits_some.2 he⟩

theorem stepsSorted_updateExpression : StepsSorted .updateExpression := by
  intro s child h
  obtain ⟨hoperator,hvalue⟩ := h
  apply UpdateSlots.leads_step
  · exact fun hsign _ => ⟨forall_mem_some hsign,hvalue⟩
  · exact fun _ => leads_expression fun e he => ⟨hoperator,optionFits_some.2 he⟩

theorem stepsSorted_conditionalExpression : StepsSorted .conditionalExpression := by
  intro s child h
  obtain ⟨htest,hsuccess,hfailure⟩ := h
  have hkeep : ∀ slot, sortedState .conditionalExpression { s with slot := slot } :=
    fun _ => ⟨htest,hsuccess,hfailure⟩
  apply ConditionalSlots.leads_step
  · exact fun _ _ => leads_expression fun e he => ⟨optionFits_some.2 he,hsuccess,hfailure⟩
  · exact fun _ _ => hkeep _
  · exact fun _ _ => leads_expression fun e he => ⟨htest,optionFits_some.2 he,hfailure⟩
  · exact fun _ _ => hkeep _
  · exact fun _ _ => leads_expression fun e he => ⟨htest,hsuccess,optionFits_some.2 he⟩

theorem stepsSorted_callExpression : StepsSorted .callExpression := by
  intro s child h
  obtain ⟨hcallee,harguments⟩ := h
  apply CallSlots.leads_step
  · exact fun _ _ _ arguments hnew => ⟨hcallee,forall_mem_some hnew⟩
  · exact fun _ => leads_expression fun e he => ⟨optionFits_some.2 he,harguments⟩

theorem stepsSorted_arguments : StepsSorted .arguments := by
  intro arguments child h
  refine leads_stepArguments (fun _ => h) ?_
  exact leads_expression fun e he => allFit_append.2 ⟨h,allFit_singleton he⟩

theorem stepsSorted_fieldExpression : StepsSorted .fieldExpression := by
  intro s child h
  apply FieldSlots.leads_step
  · exact fun _ _ => h
  · exact fun _ => leads_expression fun e he _ => fits_path_pathSteps he
  · exact fun hsteps _ _ => fits_path_append (h hsteps) (fits_reference_step child.text)

theorem stepsSorted_subscriptExpression : StepsSorted .subscriptExpression := by
  intro s child h
  have hindex : s.steps ≠ [] → ∀ e, Fits .expression e →
      Fits .expression (.path (s.steps ++ [.index e])) :=
    fun hsteps e he => fits_path_append (h hsteps) (fits_index he)
  apply SubscriptSlots.leads_step
  · exact fun _ _ => h
  · exact fun _ _ => h
  · exact fun _ => leads_expression fun e he _ => fits_path_pathSteps he
  · exact fun hsteps _ e he _ => hindex hsteps e he
  · exact fun hsteps => leads_expression fun e he _ => hindex hsteps e he

theorem stepsSorted (rule : Rule) : StepsSorted rule := by
  cases rule with
  | leaf => exact fun _ _ _ => trivial
  | declaredName =>
    intro name child _
    change (stepDeclaredName name child).Leads sortedResult (sortedState .declaredName)
    unfold stepDeclaredName
    split
    · exact fun _ _ => trivial
    · trivial
  | functionDeclarator => exact stepsSorted_functionDeclarator
  | wrappedFunction => exact stepsSorted_wrappedFunction
  | parameterList => exact stepsSorted_parameterList
  | parameterDeclaration => exact stepsSorted_parameterDeclaration
  | namespaceDefinition => exact stepsSorted_namespaceDefinition
  | items => exact stepsSorted_items
  | conditionalRegion => exact stepsSorted_conditionalRegion
  | declaration => exact stepsSorted_declaration
  | initDeclarator => exact stepsSorted_initDeclarator
  | functionDefinition => exact stepsSorted_functionDefinition
  | statements => exact stepsSorted_statements
  | optionalOperand tokens => exact fun _ child h => stepOperand_leads tokens child h
  | operand tokens => exact fun _ child h => stepOperand_leads tokens child h
  | ifChain => exact stepsSorted_ifChain
  | elseClause => exact stepsSorted_elseClause
  | forStatement => exact stepsSorted_forStatement
  | whileStatement => exact stepsSorted_whileStatement
  | doStatement => exact stepsSorted_doStatement
  | switchStatement => exact stepsSorted_switchStatement
  | caseStatement => exact stepsSorted_caseStatement
  | concatenation => exact stepsSorted_concatenation
  | binaryExpression => exact fun _ child h => OperatorSlots.step_leads binaryOperators child h
  | unaryExpression => exact stepsSorted_unaryExpression
  | updateExpression => exact stepsSorted_updateExpression
  | conditionalExpression => exact stepsSorted_conditionalExpression
  | assignmentExpression =>
    exact fun _ child h => OperatorSlots.step_leads assignmentOperators child h
  | callExpression => exact stepsSorted_callExpression
  | arguments => exact stepsSorted_arguments
  | fieldExpression => exact stepsSorted_fieldExpression
  | subscriptExpression => exact stepsSorted_subscriptExpression

/-- The endings of a rule give what is known of its result. -/
def FinishSorted (rule : Rule) : Prop :=
  ∀ (text : String) (s : rule.State), sortedState rule s →
    (rule.finish text s).Gives (sortedResult rule)

theorem getD_of_forall {α : Type} {P : α → Prop} {value : Option α} {default : α}
    (h : ∀ a ∈ value, P a) (hdefault : P default) : P (value.getD default) := by
  cases value with
  | none => exact hdefault
  | some a => exact h a rfl

theorem finishSorted_functionDeclarator : FinishSorted .functionDeclarator := by
  intro text s h
  refine .ofOption (fun signature hsignature => ?_) trivial
  obtain ⟨name,_,rfl⟩ := Option.map_eq_some_iff.1 hsignature
  exact getD_of_forall h (by simp)

theorem finishSorted_namespaceDefinition : FinishSorted .namespaceDefinition := by
  intro text s h
  change (NamespaceSlots.finish s).Gives (AllFit .member)
  have hbody : AllFit .member (s.body.getD []) := getD_of_forall h allFit_nil
  unfold NamespaceSlots.finish
  split
  · refine allFit_singleton (fits_iff.2 ⟨rfl,trivial,?_⟩)
    simpa only [Node.slots,forall_slots_map] using hbody
  · exact hbody

theorem finishSorted_declaration : FinishSorted .declaration := by
  intro text s h
  change (DeclarationSlots.finish s).Gives (sortedResult .declaration)
  unfold DeclarationSlots.finish
  split_ifs with hsome
  · have hne : s.declarators ≠ [] := by simpa using hsome
    refine List.forall_mem_singleton.2 ⟨rfl,fits_iff.2 ⟨rfl,hne,?_⟩⟩
    simp only [Node.slots,List.forall_mem_flatMap,forall_slots_map,allFit_toList]
    exact h
  · exact fun n hn => absurd hn List.not_mem_nil
  · trivial

theorem finishSorted_initDeclarator : FinishSorted .initDeclarator := by
  intro text s h
  refine .ofOption (fun v hv => ?_) trivial
  obtain ⟨name,_,rfl⟩ := Option.map_eq_some_iff.1 hv
  exact h

theorem finishSorted_functionDefinition : FinishSorted .functionDefinition := by
  intro text s h
  change (FunctionSlots.finish s).Gives (Fits .member)
  unfold FunctionSlots.finish
  split
  · rename_i signature body hsignature hbody
    refine fits_iff.2 ⟨rfl,trivial,?_⟩
    simp only [Node.slots,List.forall_mem_append,List.forall_mem_map]
    exact ⟨h.1 signature hsignature,h.2 body hbody⟩
  · trivial

theorem finishSorted_operand (tokens : List String) : FinishSorted (.operand tokens) := by
  intro text value h
  exact .ofOption h trivial

theorem sortedState.fits_ifStatement {s : IfSlots} (h : sortedState .ifChain s) {c : Node}
    (hc : s.condition = some c) :
    Fits .member (.ifStatement (⟨some c,s.statements⟩ :: s.alternatives.getD [])) := by
  have halternatives : AlternativesFit (s.alternatives.getD []) :=
    getD_of_forall h.2.2 ⟨by simp,by simp⟩
  exact fits_ifStatement_cons (h.1 c hc) h.2.1 halternatives

theorem finishSorted_ifChain : FinishSorted .ifChain := by
  intro text s h
  change (IfSlots.finish s).Gives (sortedResult .ifChain)
  unfold IfSlots.finish
  split
  · rename_i c hc
    exact Ending.Gives.check (P := sortedResult .ifChain) (sortedState.fits_ifStatement h hc) _
  · trivial

theorem finishSorted_elseClause : FinishSorted .elseClause := by
  intro text alternatives h
  have hempty : AlternativesFit [⟨none,[]⟩] := by simp [AlternativesFit,ArmFits]
  exact getD_of_forall h hempty

theorem finishSorted_forStatement : FinishSorted .forStatement := by
  intro text s h
  refine fits_iff.2 ⟨rfl,trivial,?_⟩
  simp only [Node.slots,List.forall_mem_append,forall_slots_map,allFit_toList]
  exact h

theorem finishSorted_whileStatement : FinishSorted .whileStatement := by
  intro text s h
  refine .ofOption (fun n hn => ?_) trivial
  obtain ⟨c,hc,rfl⟩ := Option.map_eq_some_iff.1 hn
  refine fits_iff.2 ⟨rfl,trivial,?_⟩
  simp only [Node.slots,List.forall_mem_cons,forall_slots_map]
  exact ⟨h.1 c hc,h.2⟩

theorem finishSorted_doStatement : FinishSorted .doStatement := by
  intro text s h
  refine .ofOption (fun n hn => ?_) trivial
  obtain ⟨c,hc,rfl⟩ := Option.map_eq_some_iff.1 hn
  refine fits_iff.2 ⟨rfl,trivial,?_⟩
  simp only [Node.slots,List.forall_mem_append,List.forall_mem_singleton,forall_slots_map]
  exact ⟨getD_of_forall h.1 allFit_nil,h.2 c hc⟩

theorem finishSorted_switchStatement : FinishSorted .switchStatement := by
  intro text s h
  refine .ofOption (fun n hn => ?_) trivial
  obtain ⟨c,hc,rfl⟩ := Option.map_eq_some_iff.1 hn
  refine fits_iff.2 ⟨rfl,trivial,?_⟩
  simp only [Node.slots,List.forall_mem_cons,forall_slots_map]
  exact ⟨h.1 c hc,getD_of_forall h.2 allFit_nil⟩

theorem finishSorted_caseStatement : FinishSorted .caseStatement := by
  intro text s h
  refine fits_iff.2 ⟨rfl,trivial,?_⟩
  simp only [Node.slots,List.forall_mem_append,forall_slots_map,allFit_toList]
  exact h

theorem finishSorted_concatenation : FinishSorted .concatenation := by
  intro text parts h
  refine gives_finishConcatenation fun first rest hparts => ?_
  obtain ⟨hfirst,hrest⟩ := allFit_cons.1 (hparts ▸ h)
  exact fits_sum hfirst hrest

theorem fits_binaryExpression {operator : String} {left : Node} {right : Option Node}
    (hoperator : operator ∈ binaryOperators) (hleft : Fits .expression left)
    (hright : OptionFits right) : Fits .expression (.binaryExpression operator left right) := by
  refine fits_iff.2 ⟨rfl,hoperator,?_⟩
  simp only [Node.slots,List.forall_mem_cons,forall_slots_map,allFit_toList]
  exact ⟨hleft,hright⟩

theorem finishSorted_binaryExpression : FinishSorted .binaryExpression := by
  intro text s h
  refine OperatorSlots.gives_finishBinary fun left operator hleft hoperator => ?_
  exact fits_binaryExpression (h.2.1 operator hoperator) (h.1 left hleft) h.2.2

theorem finishSorted_assignmentExpression : FinishSorted .assignmentExpression := by
  intro text s h
  refine OperatorSlots.gives_finishAssignment fun left operator right hleft hoperator hright => ?_
  refine fits_iff.2 ⟨rfl,h.2.1 operator hoperator,?_⟩
  simp only [Node.slots,List.forall_mem_cons]
  exact ⟨h.1 left hleft,h.2.2 right hright,List.forall_mem_nil _⟩

theorem finishSorted_unaryExpression : FinishSorted .unaryExpression := by
  intro text s h
  refine UnarySlots.gives_finish fun operator e hoperator he => ?_
  refine fits_iff.2 ⟨rfl,h.1 operator hoperator,?_⟩
  simpa only [Node.slots,List.forall_mem_singleton] using h.2 e he

theorem finishSorted_updateExpression : FinishSorted .updateExpression := by
  intro text s h
  refine UpdateSlots.gives_finish fun operator e hoperator he => ?_
  refine fits_iff.2 ⟨rfl,h.1 operator hoperator,?_⟩
  simpa only [Node.slots,List.forall_mem_singleton] using h.2 e he

theorem finishSorted_conditionalExpression : FinishSorted .conditionalExpression := by
  intro text s h
  refine ConditionalSlots.gives_finish fun test success failure htest hsuccess hfailure => ?_
  refine fits_iff.2 ⟨rfl,trivial,?_⟩
  simp only [Node.slots,List.forall_mem_cons]
  exact ⟨h.1 test htest,h.2.1 success hsuccess,h.2.2 failure hfailure,List.forall_mem_nil _⟩

theorem finishSorted_callExpression : FinishSorted .callExpression := by
  intro text s h
  refine CallSlots.gives_finish fun callee hcallee => ?_
  refine fits_iff.2 ⟨rfl,trivial,?_⟩
  simp only [Node.slots,List.forall_mem_cons,forall_slots_map]
  exact ⟨h.1 callee hcallee,getD_of_forall h.2 allFit_nil⟩

theorem finishSorted (rule : Rule) : FinishSorted rule := by
  cases rule with
  | leaf => exact fun _ _ _ => trivial
  | declaredName => exact fun _ _ _ => .ofOption (fun _ _ => trivial) trivial
  | functionDeclarator => exact finishSorted_functionDeclarator
  | wrappedFunction => exact fun _ _ h => .ofOption h trivial
  | parameterList => exact fun _ _ h => h
  | parameterDeclaration => exact fun _ _ h => h
  | namespaceDefinition => exact finishSorted_namespaceDefinition
  | items => exact fun _ _ h => h
  | conditionalRegion => exact fun _ _ h => h
  | declaration => exact finishSorted_declaration
  | initDeclarator => exact finishSorted_initDeclarator
  | functionDefinition => exact finishSorted_functionDefinition
  | statements => exact fun _ _ h => h
  | optionalOperand _ => exact fun _ _ h => h
  | operand tokens => exact finishSorted_operand tokens
  | ifChain => exact finishSorted_ifChain
  | elseClause => exact finishSorted_elseClause
  | forStatement => exact finishSorted_forStatement
  | whileStatement => exact finishSorted_whileStatement
  | doStatement => exact finishSorted_doStatement
  | switchStatement => exact finishSorted_switchStatement
  | caseStatement => exact finishSorted_caseStatement
  | concatenation => exact finishSorted_concatenation
  | binaryExpression => exact finishSorted_binaryExpression
  | unaryExpression => exact finishSorted_unaryExpression
  | updateExpression => exact finishSorted_updateExpression
  | conditionalExpression => exact finishSorted_conditionalExpression
  | assignmentExpression => exact finishSorted_assignmentExpression
  | callExpression => exact finishSorted_callExpression
  | arguments => exact fun _ _ h => h
  | fieldExpression => exact fun _ _ h => FieldSlots.gives_finish h
  | subscriptExpression => exact fun _ _ h => SubscriptSlots.gives_finish h

theorem sortedState_start (rule : Rule) : sortedState rule rule.start := by
  cases rule <;> simp [sortedState,Rule.start,OperatorsFit]

/-- Reading keeps all nodes sorted. -/
def sortedInvariant : Invariant where
  state := sortedState
  result := sortedResult
  start := sortedState_start
  step := stepsSorted
  finish := finishSorted

/-- Whatever is read from a file has members at its top that are sorted at every depth. -/
theorem readFile_allFit {root : ParseTree} {program : List Node}
    (h : (readFile root).result = .ok program) : AllFit .member program := by
  by_cases hroot : root.kind = "translation_unit"
  · rw [readFile_of_unit hroot] at h
    exact sortedInvariant.read_result .items Unsupported.file root program h
  · rw [readFile_of_not_unit hroot] at h
    simp [Outcome.unsupported] at h

/-- Whatever is read from a file is well sorted. -/
theorem readFile_wellSorted {root : ParseTree} {program : List Node}
    (h : (readFile root).result = .ok program) : WellSorted program :=
  .of_allFit (readFile_allFit h)

/-- `a.b[1]` and `if (true) break; else`. -/
def sampleFile : ParseTree :=
  .node "translation_unit" "" [
    .node "expression_statement" "" [.node "subscript_expression" "" [
      .node "field_expression" "" [.node "identifier" "a" [],.node "." "." [],
        .node "field_identifier" "b" []],
      .node "[" "[" [],.node "number_literal" "1" [],.node "]" "]" []]],
    .node "if_statement" "" [.node "if" "if" [],
      .node "condition_clause" "" [.node "true" "true" []],
      .node "break_statement" "" [],.node "else_clause" "" []]]

def sampleProgram : List Node :=
  [.path [.reference "a",.reference "b",.index (.numberLiteral "1")],
    .ifStatement [⟨some (.booleanLiteral "true"),[.breakStatement]⟩,⟨none,[]⟩]]

theorem sampleProgram_wellSorted :
    (readFile sampleFile).result = .ok sampleProgram ∧ WellSorted sampleProgram := by
  have h : (readFile sampleFile).result = .ok sampleProgram := rfl
  exact ⟨h,readFile_wellSorted h⟩

end Reading
end Scribe
