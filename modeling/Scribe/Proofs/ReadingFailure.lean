import Scribe.Proofs.RuleRun
import Scribe.Proofs.WellSorted

/-! Why a file cannot be read. Each failure names a node of the parse tree and the node around
it, or comes of a concatenation without parts, and nothing else can go wrong on the way. A node
that is incomplete is named together with the innermost context, whatever this is by then, so it
has to be that of the node around wherever a rule may end so. The failures are therefore located
at the nodes that reading comes to, each in the context that there is at that moment. -/
namespace Scribe
namespace ParseTree

theorem walkAll_eq_flatMap (cs : List ParseTree) : walkAll cs = cs.flatMap walk := by
  induction cs with
  | nil => rfl
  | cons c cs ih => rw [walkAll,ih,List.flatMap_cons]

theorem walk_eq (t : ParseTree) : t.walk = t :: t.children.flatMap walk := by
  cases t with
  | node kind text children => rw [walk,walkAll_eq_flatMap,children_node]

theorem mem_walk_self (t : ParseTree) : t ∈ t.walk := by
  rw [walk_eq]
  exact List.mem_cons_self

theorem mem_walk_of_child {t c u : ParseTree} (hc : c ∈ t.children) (hu : u ∈ c.walk) :
    u ∈ t.walk := by
  rw [walk_eq]
  exact List.mem_cons_of_mem _ (List.mem_flatMap.2 ⟨c,hc,hu⟩)

theorem child_mem_walk {root t c : ParseTree} (ht : t ∈ root.walk) (hc : c ∈ t.children) :
    c ∈ root.walk := by
  induction root using ParseTree.induct_children with
  | step root ih =>
    rw [walk_eq,List.mem_cons,List.mem_flatMap] at ht
    rcases ht with rfl | ⟨d,hd,ht⟩
    · exact mem_walk_of_child hc (mem_walk_self c)
    · exact mem_walk_of_child hd (ih d hd ht)

end ParseTree

namespace Reading
open Program ParseTree

/-- A rule is there for a node of one of its kinds, and for a wrapper only if it declares a
function. -/
structure Rule.Reads (rule : Rule) (tree : ParseTree) : Prop where
  kind : tree.kind ∈ rule.kinds
  wrapper : rule.isWrapper → declaresFunction tree

theorem Plan.Suits.reads {σ : Type} {plan : Plan σ} {child : ParseTree}
    (h : plan.Suits (head child)) : plan.rule.Reads child :=
  ⟨h.kind,h.wrapper⟩

section Places

theorem lt_length_of_ne_last {α : Type} {places : List α} {i : Nat} {place last : α}
    (hlast : places.getLast? = some last) (h : places[i]? = some place) (hne : place ≠ last) :
    i + 1 < places.length := by
  obtain ⟨hi,-⟩ := List.getElem?_eq_some_iff.1 h
  refine lt_of_le_of_ne hi fun heq => hne ?_
  rw [List.getLast?_eq_getElem?,← heq,Nat.add_sub_cancel,h] at hlast
  exact Option.some.inj hlast

theorem ForSlots.step_inRange {s : ForSlots} (h : s.slot < forPlaces.length) (child : Head) :
    (s.step child).Leads (fun _ _ => True) fun s => s.slot < forPlaces.length := by
  -- Only the body is followed by no other place, and nothing leads on from there.
  have hnext : ∀ place, forPlaces[s.slot]? = some place → place ≠ .body →
      s.slot + 1 < forPlaces.length := fun _ => lt_length_of_ne_last rfl
  unfold step
  split
  · exact h
  split
  · rename_i hplace
    split_ifs
    · exact hnext _ hplace (by simp)
    · exact leads_of_expect fun _ _ _ _ => hnext _ hplace (by simp)
    · exact leads_of_expect fun _ _ _ _ => h
    · trivial
  · rename_i hplace
    split_ifs
    · exact hnext _ hplace (by simp)
    · exact leads_of_expect fun _ _ _ _ => h
    · trivial
  · rename_i hplace
    split_ifs
    · exact hnext _ hplace (by simp)
    · exact leads_of_expect fun _ _ _ _ => h
    · trivial
  · exact leads_of_expect fun _ _ _ _ => h
  · trivial

theorem ConditionalSlots.step_inRange {s : ConditionalSlots}
    (h : s.slot < conditionalPlaces.length) (child : Head) :
    (s.step child).Leads (fun _ _ => True) fun s => s.slot < conditionalPlaces.length := by
  apply ConditionalSlots.leads_step
  · exact fun _ _ => leads_of_expect fun _ _ _ _ => h
  · exact fun _ _ => by simp [conditionalPlaces]
  · exact fun _ _ => leads_of_expect fun _ _ _ _ => h
  · exact fun _ _ => by simp [conditionalPlaces]
  · exact fun _ _ => leads_of_expect fun _ _ _ _ => h

theorem inRange_start (rule : Rule) : rule.InRange rule.start := by
  cases rule with
  | forStatement | conditionalExpression => exact Nat.zero_lt_succ _
  | _ => trivial

theorem step_inRange (rule : Rule) {s : rule.State} (h : rule.InRange s) (child : Head) :
    (rule.step s child).Leads (fun _ _ => True) rule.InRange := by
  cases rule with
  | forStatement => exact ForSlots.step_inRange h child
  | conditionalExpression => exact ConditionalSlots.step_inRange h child
  | _ => exact leads_true _

/-- No run comes to a child that there is no place for. -/
theorem Run.step_ne_overrun {rule : Rule} {context : String} {before : List ParseTree}
    {s : rule.State} (h : Run rule context rule.start before s) (child : ParseTree) :
    rule.step s (head child) ≠ .overrun := by
  intro hoverrun
  have hrange : rule.InRange s :=
    h.invariant rule.InRange (fun s hs c _ => step_inRange rule hs (head c)) (inRange_start rule)
  have hsuits := step_suits rule hrange (declares_head child)
  rw [hoverrun] at hsuits
  exact hsuits

end Places

section Endings

/-- An ending with a value, or with a node to report. -/
def Ending.Ordinary {α : Type} : Ending α → Prop
  | .done _ | .lacksRight _ | .incomplete | .nameless => True
  | .noParts | .noFunction | .invalid _ => False

theorem Ending.Ordinary.ofOption {α : Type} {otherwise : Ending α} (h : otherwise.Ordinary)
    (value : Option α) : (Ending.ofOption otherwise value).Ordinary := by
  cases value with
  | none => exact h
  | some a => trivial

theorem Ending.Ordinary.check {α : Type} (value : α) {problem : Option Problem}
    (h : problem = none) : (Ending.check value problem).Ordinary := by
  subst h
  trivial

theorem finish_ordinary {rule : Rule} (hconcatenation : rule ≠ .concatenation)
    (hwrapped : rule ≠ .wrappedFunction) (hchain : rule ≠ .ifChain) (text : String)
    (s : rule.State) : (rule.finish text s).Ordinary := by
  cases rule with
  | concatenation => exact absurd rfl hconcatenation
  | wrappedFunction => exact absurd rfl hwrapped
  | ifChain => exact absurd rfl hchain
  | namespaceDefinition =>
    change (NamespaceSlots.finish s).Ordinary
    unfold NamespaceSlots.finish
    split <;> trivial
  | declaration =>
    change (DeclarationSlots.finish s).Ordinary
    unfold DeclarationSlots.finish
    split_ifs <;> trivial
  | functionDefinition =>
    change (FunctionSlots.finish s).Ordinary
    unfold FunctionSlots.finish
    split <;> trivial
  | binaryExpression =>
    change (OperatorSlots.finishBinary s).Ordinary
    unfold OperatorSlots.finishBinary
    split
    · split_ifs <;> trivial
    · trivial
  | assignmentExpression =>
    change (OperatorSlots.finishAssignment s).Ordinary
    unfold OperatorSlots.finishAssignment
    split <;> trivial
  | unaryExpression =>
    change (UnarySlots.finish s).Ordinary
    unfold UnarySlots.finish
    split <;> trivial
  | updateExpression =>
    change (UpdateSlots.finish s).Ordinary
    unfold UpdateSlots.finish
    split <;> trivial
  | conditionalExpression =>
    change (ConditionalSlots.finish s).Ordinary
    unfold ConditionalSlots.finish
    split <;> trivial
  | fieldExpression =>
    change (FieldSlots.finish s).Ordinary
    unfold FieldSlots.finish
    split_ifs with hopen
    · trivial
    · rw [not_or] at hopen
      exact .check _ (pathProblem?_eq_none.2 (by simpa using hopen.1))
  | subscriptExpression =>
    change (SubscriptSlots.finish s).Ordinary
    unfold SubscriptSlots.finish
    split_ifs with hempty
    · trivial
    · exact .check _ (pathProblem?_eq_none.2 (by simpa using hempty))
  | declaredName | functionDeclarator | initDeclarator | operand | whileStatement | doStatement
  | switchStatement | callExpression =>
    refine Ending.Ordinary.ofOption ?_ _
    trivial
  | _ => trivial

theorem Run.finish_ifChain {context : String} {children : List ParseTree} {s : IfSlots}
    (h : Run .ifChain context (Rule.start .ifChain) (heard children) s) : s.finish.Ordinary := by
  have hsorted : sortedState .ifChain s :=
    sortedInvariant.readChildren_state .ifChain context children _ s
      (sortedState_start .ifChain) (readChildren_eq_ok.2 h)
  unfold IfSlots.finish
  split
  · rename_i c hc
    have hfits := fits_ifStatement.1 (hsorted.fits_ifStatement hc)
    exact .check _ (chainProblem?_eq_none.2 hfits.1)
  · trivial

theorem anyDeclaresFunction_of_wrapper {kind text : String} {children : List ParseTree}
    (hkind : kind ∈ wrappingDeclarators) (h : declaresFunction (.node kind text children)) :
    anyDeclaresFunction children := by
  have hne : kind ≠ "function_declarator" := by
    rintro rfl
    simp [wrappingDeclarators] at hkind
  simpa [declaresFunction,hne,hkind] using h

theorem Run.finds_function {context : String} {children : List ParseTree}
    {s final : Rule.wrappedFunction.State} (h : Run .wrappedFunction context s children final)
    {child : ParseTree} (hchild : child ∈ children) (hdeclares : declaresFunction child) :
    Option.isSome final := by
  refine h.sets hchild (fun s : Option Signature => s.isSome) (fun s next hstep => ?_)
    fun s c next hstep hs => ?_
  · rcases Step.wrappedFunction hstep with ⟨hsome | hother,rfl⟩ | ⟨-,-,signature,-,rfl⟩
    · exact Option.isSome_iff_ne_none.2 hsome
    · exact absurd hdeclares hother
    · rfl
  · rcases Step.wrappedFunction hstep with ⟨-,rfl⟩ | ⟨-,-,signature,-,rfl⟩
    · exact hs
    · rfl

theorem Run.finish_wrappedFunction {tree : ParseTree} {found : Option Signature}
    (hreads : Rule.Reads .wrappedFunction tree)
    (h : Run .wrappedFunction tree.kind (Rule.start .wrappedFunction) (heard tree.children) found) :
    (Ending.ofOption .noFunction found).Ordinary := by
  have hfunction : anyDeclaresFunction tree.children := by
    obtain ⟨kind,text,children⟩ := tree
    exact anyDeclaresFunction_of_wrapper hreads.kind (hreads.wrapper rfl)
  obtain ⟨c,hc,hdeclares⟩ := anyDeclaresFunction_iff.1 hfunction
  have hheard : c ∈ heard tree.children :=
    mem_heard.2 ⟨hc,not_isNoise_of_declaresFunction hdeclares⟩
  obtain ⟨signature,rfl⟩ := Option.isSome_iff_exists.1 (h.finds_function hheard hdeclares)
  trivial

theorem Run.concatenation_ne_nil {context : String} {s final : Rule.concatenation.State}
    {child : ParseTree} {rest : List ParseTree}
    (h : Run .concatenation context s (child :: rest) final) : final ≠ ([] : List Node) := by
  have hkeep : ∀ parts : List Node, parts ≠ [] → ∀ c ∈ rest,
      (stepConcatenation parts (head c)).Leads (fun _ _ => True) (· ≠ []) := by
    intro parts _ c _
    unfold stepConcatenation Action.expect
    split
    · exact fun _ _ => List.append_ne_nil_of_right_ne_nil _ (by simp)
    · trivial
  cases h with
  | keep hstep _ => exact absurd hstep (expect_ne_keep _)
  | descend hstep _ hrest =>
    obtain ⟨q,-,rfl⟩ := expect_eq_descend.1 hstep
    exact hrest.invariant (fun parts : List Node => parts ≠ []) hkeep
      (List.append_ne_nil_of_right_ne_nil _ (by simp))

theorem Run.noise_of_noParts {context : String} {children : List ParseTree} {parts : List Node}
    (h : Run .concatenation context (Rule.start .concatenation) (heard children) parts)
    (hparts : ¬(finishConcatenation parts).Ordinary) :
    finishConcatenation parts = .noParts ∧ ∀ c ∈ children, isNoise c.kind := by
  obtain rfl : parts = [] := by
    cases parts with
    | nil => rfl
    | cons first rest => exact absurd trivial hparts
  refine ⟨rfl,fun c hc => ?_⟩
  by_contra hnoise
  obtain ⟨before,after,hsplit⟩ := List.append_of_mem (mem_heard.2 ⟨hc,hnoise⟩)
  cases hheard : heard children with
  | nil => simp [hheard] at hsplit
  | cons child rest =>
    rw [hheard] at h
    exact h.concatenation_ne_nil rfl

/-- A node that has been gone through comes to a value, is reported, or has nothing but noise in
it where there should be literals. -/
theorem Run.finish_cases {rule : Rule} {tree : ParseTree} {s : rule.State}
    (hreads : rule.Reads tree) (h : Run rule tree.kind rule.start (heard tree.children) s) :
    (rule.finish tree.text s).Ordinary ∨
      (rule.finish tree.text s = .noParts ∧ tree.kind = "concatenated_string" ∧
        ∀ c ∈ tree.children, isNoise c.kind) := by
  by_cases hconcatenation : rule = .concatenation
  · subst hconcatenation
    by_cases hparts : (finishConcatenation s).Ordinary
    · exact .inl hparts
    · obtain ⟨hend,hnoise⟩ := h.noise_of_noParts hparts
      exact .inr ⟨hend,List.mem_singleton.1 hreads.kind,hnoise⟩
  left
  by_cases hwrapped : rule = .wrappedFunction
  · subst hwrapped
    exact h.finish_wrappedFunction hreads
  by_cases hchain : rule = .ifChain
  · subst hchain
    exact h.finish_ifChain
  exact finish_ordinary hconcatenation hwrapped hchain tree.text s

theorem Ending.Ordinary.of_failure {α : Type} {e : Ending α} (h : e.Ordinary)
    {kind text parent : String} {context : List String}
    (htop : e = .incomplete → context.head? = some parent) {failure : Failure}
    (hfail : (e.outcome kind text parent context).result = .error failure) :
    (e = .incomplete ∨ e = .nameless) ∧ failure = .unsupported ⟨kind,parent⟩ := by
  cases e with
  | incomplete => simpa [Ending.outcome,Outcome.unsupported,htop rfl,eq_comm] using hfail
  | nameless => simpa [Ending.outcome,Outcome.unsupported,eq_comm] using hfail
  | done | lacksRight => simp [Ending.outcome] at hfail
  | _ => exact h.elim

end Endings

/-- A rule has gone over children of a node and come to a state, in a context that was another
one at the start. -/
def Passes (rule : Rule) (kind : String) (context : List String) (children : List ParseTree)
    (s : rule.State) (now : List String) : Prop :=
  ∃ record, visitChildren rule kind rule.start children context = (⟨record,.ok s⟩,now)

theorem passes_iff {rule : Rule} {kind : String} {context now : List String}
    {children : List ParseTree} {s : rule.State} : Passes rule kind context children s now ↔
      now = context ∧ Run rule kind rule.start (heard children) s := by
  rw [Passes,visitChildren_eq,← readChildren_eq_ok]
  constructor
  · rintro ⟨record,hvisit⟩
    rw [Prod.mk.injEq] at hvisit
    exact ⟨hvisit.2.symm,by rw [hvisit.1]⟩
  · rintro ⟨rfl,hread⟩
    exact ⟨_,by rw [← hread]⟩

/-- The nodes that reading a file comes to, each with the rule it is read by, the kind of the node
around it and the context at that moment. -/
inductive Reached (root : ParseTree) : Rule → String → List String → ParseTree → Prop
  | root : root.kind = "translation_unit" →
      Reached root .items Unsupported.file [Unsupported.file] root
  | child {rule parent context tree child after s now plan} (before : List ParseTree) :
      Reached root rule parent context tree → tree.children = before ++ child :: after →
      ¬isNoise child.kind → Passes rule tree.kind context before s now →
      rule.step s (head child) = .descend plan →
      Reached root plan.rule tree.kind (if plan.isDirect then now else tree.kind :: now) child

namespace Reached
variable {root : ParseTree} {rule : Rule} {parent : String} {context : List String}
  {tree : ParseTree}

theorem mem_walk (h : Reached root rule parent context tree) : tree ∈ root.walk := by
  induction h with
  | root _ => exact mem_walk_self root
  | child _ _ hsplit _ _ _ ih => exact child_mem_walk ih (by simp [hsplit])

theorem reads (h : Reached root rule parent context tree) : rule.Reads tree := by
  cases h with
  | root hroot => exact ⟨by simp [hroot,Rule.kinds],by simp [Rule.isWrapper]⟩
  | child _ _ _ _ _ hstep => exact (suits_of_descend hstep).reads

/-- Wherever a rule may end incomplete, the innermost context is the node around. -/
theorem placed (h : Reached root rule parent context tree) : rule.Placed parent context := by
  cases h with
  | root _ => exact .inl rfl
  | child _ _ _ _ _ hstep =>
    split_ifs with hdirect
    · exact .inl ((suits_of_descend hstep).direct hdirect)
    · exact .inr rfl

theorem parent_eq (h : Reached root rule parent context tree) :
    rule = .items ∨ ∃ p ∈ root.walk, tree ∈ p.children ∧ ¬isNoise tree.kind ∧ p.kind = parent := by
  cases h with
  | root _ => exact .inl rfl
  | child _ hparent hsplit hnoise _ _ =>
    exact .inr ⟨_,hparent.mem_walk,by simp [hsplit],hnoise,rfl⟩

end Reached

/-- What holds of a node while it is read in a context. The context is left as it was found. Where
the node is reported, the kind that it is reported with is that of a node that has it for a child,
and on top of the context if it is taken from there. There is a place for every child and a
function below every wrapper, and no node is put together that breaks a rule of its own. -/
structure Orderly (root : ParseTree) (rule : Rule) (parent : String) (context : List String)
    (tree : ParseTree) : Prop where
  restores : (visit rule parent tree context).2 = context
  reported : ∀ s now, Passes rule tree.kind context tree.children s now →
    rule.finish tree.text s = .incomplete ∨ rule.finish tree.text s = .nameless →
      ∃ p ∈ root.walk, tree ∈ p.children ∧ ¬isNoise tree.kind ∧ p.kind = parent
  top : ∀ s now, Passes rule tree.kind context tree.children s now →
    rule.finish tree.text s = .incomplete → now.head? = some parent
  function : ∀ s now, Passes rule tree.kind context tree.children s now →
    rule.finish tree.text s ≠ .noFunction
  valid : ∀ s now, Passes rule tree.kind context tree.children s now →
    ∀ problem, rule.finish tree.text s ≠ .invalid problem
  place : ∀ before child after s now, tree.children = before ++ child :: after →
    Passes rule tree.kind context before s now → rule.step s (head child) ≠ .overrun

theorem Reached.orderly {root : ParseTree} {rule : Rule} {parent : String} {context : List String}
    {tree : ParseTree} (h : Reached root rule parent context tree) :
    Orderly root rule parent context tree := by
  have hends : ∀ s now, Passes rule tree.kind context tree.children s now →
      (rule.finish tree.text s).Ordinary ∨ rule.finish tree.text s = .noParts := fun s now hs =>
    ((passes_iff.1 hs).2.finish_cases h.reads).imp_right And.left
  refine ⟨by rw [visit_eq h.placed],fun s now _ hreported => ?_,fun s now hs hincomplete => ?_,
    fun s now hs hfunction => ?_,fun s now hs problem hinvalid => ?_,
    fun before child after s now _ hs => (passes_iff.1 hs).2.step_ne_overrun child⟩
  · refine h.parent_eq.resolve_left ?_
    rintro rfl
    rcases hreported with hs | hs <;> cases hs
  · rw [(passes_iff.1 hs).1]
    exact h.placed.resolve_left fun hdirect =>
      finish_ne_incomplete hdirect tree.text s hincomplete
  · simpa [hfunction,Ending.Ordinary] using hends s now hs
  · simpa [hinvalid,Ending.Ordinary] using hends s now hs

/-- A node that is read in a context fails: at a child that has no place in it, or at its end. -/
inductive Fails (rule : Rule) (parent : String) (context : List String) (tree : ParseTree) :
    Failure → Prop
  | reject {before child after s now} : tree.children = before ++ child :: after →
      ¬isNoise child.kind → Passes rule tree.kind context before s now →
      rule.step s (head child) = .reject →
      Fails rule parent context tree (.unsupported ⟨child.kind,tree.kind⟩)
  | overrun {before child after s now} : tree.children = before ++ child :: after →
      ¬isNoise child.kind → Passes rule tree.kind context before s now →
      rule.step s (head child) = .overrun → Fails rule parent context tree .overrun
  | ending {s now failure} : Passes rule tree.kind context tree.children s now →
      ((rule.finish tree.text s).outcome tree.kind tree.text parent now).result = .error failure →
      Fails rule parent context tree failure

/-- A failure of a node that is come to is the failure of one that is come to from there. -/
theorem Reached.fails {root : ParseTree} {failure : Failure} (tree : ParseTree) :
    ∀ {rule parent context}, Reached root rule parent context tree →
      (read rule parent tree).result = .error failure →
      ∃ rule parent context tree, Reached root rule parent context tree ∧
        Fails rule parent context tree failure := by
  induction tree using ParseTree.induct_children with
  | step tree ih =>
    intro rule parent context hreached h
    rcases failed_of_read h with ⟨before,child,after,mid,hsplit,hnoise,hrun,hstuck⟩ |
      ⟨s,hrun,hfail⟩
    · have hpasses : Passes rule tree.kind context before mid context := passes_iff.2 ⟨rfl,hrun⟩
      cases hstuck with
      | reject hstep => exact ⟨_,_,context,_,hreached,.reject hsplit hnoise hpasses hstep⟩
      | overrun hstep => exact ⟨_,_,context,_,hreached,.overrun hsplit hnoise hpasses hstep⟩
      | descend hstep hread =>
        have hchild : child ∈ tree.children := by simp [hsplit]
        exact ih child hchild (hreached.child before hsplit hnoise hpasses hstep) hread
    · rw [← outcome_finish hreached.placed] at hfail
      exact ⟨_,_,context,_,hreached,.ending (passes_iff.2 ⟨rfl,hrun⟩) hfail⟩

/-- A failure that some node of a tree accounts for. -/
inductive Located (root : ParseTree) : Failure → Prop
  | child {parent child} : parent ∈ root.walk → child ∈ parent.children →
      ¬isNoise child.kind → Located root (.unsupported ⟨child.kind,parent.kind⟩)
  | noParts {t} : t ∈ root.walk → t.kind = "concatenated_string" →
      (∀ c ∈ t.children, isNoise c.kind) → Located root .noParts

theorem Reached.located {root : ParseTree} {rule : Rule} {parent : String} {context : List String}
    {tree : ParseTree} {failure : Failure} (h : Reached root rule parent context tree)
    (hfails : Fails rule parent context tree failure) : Located root failure := by
  cases hfails with
  | reject hsplit hnoise _ _ => exact .child h.mem_walk (by simp [hsplit]) hnoise
  | overrun hsplit _ hpasses hstep =>
    exact absurd hstep (h.orderly.place _ _ _ _ _ hsplit hpasses)
  | ending hpasses hfail =>
    rcases (passes_iff.1 hpasses).2.finish_cases h.reads with
      hordinary | ⟨hparts,hconcatenation,hnoise⟩
    · obtain ⟨hreported,rfl⟩ := hordinary.of_failure (h.orderly.top _ _ hpasses) hfail
      obtain ⟨p,hp,hchild,hnoise,rfl⟩ := h.orderly.reported _ _ hpasses hreported
      exact .child hp hchild hnoise
    · obtain rfl : Failure.noParts = failure := by simpa [hparts,Ending.outcome] using hfail
      exact .noParts h.mem_walk hconcatenation hnoise

theorem reached_of_readFile {root : ParseTree} {failure : Failure}
    (hroot : root.kind = "translation_unit") (h : (readFile root).result = .error failure) :
    ∃ rule parent context tree, Reached root rule parent context tree ∧
      Fails rule parent context tree failure := by
  rw [readFile_of_unit hroot] at h
  exact Reached.fails root (.root hroot) h

theorem located_of_readFile {root : ParseTree} {failure : Failure}
    (hroot : root.kind = "translation_unit") (h : (readFile root).result = .error failure) :
    Located root failure := by
  obtain ⟨_,_,_,_,hreached,hfails⟩ := reached_of_readFile hroot h
  exact hreached.located hfails

/-- A file cannot be read if it is none, if a child has no place in the node that it stands in
or lacks something itself, or if a concatenation has nothing but noise in it. The failure is that
of a node that reading comes to, and whatever node this is, and however deep, it is reported as a
child of the node around it. -/
theorem readFile_failure (root : ParseTree) :
    (∀ failure, (readFile root).result = .error failure →
      (root.kind ≠ "translation_unit" ∧ failure = .unsupported ⟨root.kind,"file"⟩) ∨
      (∃ parent ∈ root.walk, ∃ child ∈ parent.children, ¬isNoise child.kind ∧
        failure = .unsupported ⟨child.kind,parent.kind⟩) ∨
      (failure = .noParts ∧ ∃ t ∈ root.walk, t.kind = "concatenated_string" ∧
        ∀ c ∈ t.children, isNoise c.kind)) ∧
    (∀ failure, root.kind = "translation_unit" → (readFile root).result = .error failure →
      ∃ rule parent context tree, Reached root rule parent context tree ∧
        Fails rule parent context tree failure) ∧
    ∀ rule parent context tree, Reached root rule parent context tree →
      Orderly root rule parent context tree := by
  refine ⟨fun failure h => ?_,fun failure => reached_of_readFile,
    fun rule parent context tree h => h.orderly⟩
  by_cases hroot : root.kind = "translation_unit"
  · right
    cases located_of_readFile hroot h with
    | child hparent hchild hnoise => exact .inl ⟨_,hparent,_,hchild,hnoise,rfl⟩
    | noParts ht hconcatenation hnoise => exact .inr ⟨rfl,_,ht,hconcatenation,hnoise⟩
  · left
    rw [readFile_of_not_unit hroot] at h
    refine ⟨hroot,?_⟩
    simpa [Outcome.unsupported,Unsupported.file] using h.symm

/-- A binary expression without an operator. -/
def lackingSum : ParseTree := .node "binary_expression" "" [.node "identifier" "a" []]

/-- The same as an argument of a call in a namespace without a name. -/
def lackingFile : ParseTree :=
  .node "translation_unit" "" [.node "comment" "// c" [],
    .node "namespace_definition" "" [.node "namespace" "namespace" [],
      .node "declaration_list" "" [.node "expression_statement" "" [
        .node "call_expression" "" [.node "identifier" "f" [],
          .node "argument_list" "" [.node "(" "(" [],lackingSum,.node ")" ")" []]]]]]]

theorem reached_lackingSum :
    Reached lackingFile .binaryExpression "argument_list"
      ["argument_list","expression_statement","declaration_list","translation_unit","file"]
      lackingSum := by
  have hroot : Reached lackingFile .items "file" ["file"] lackingFile := .root rfl
  have hspace := hroot.child [.node "comment" "// c" []] rfl (by decide) ⟨_,rfl⟩ rfl
  -- A list of declarations and one of arguments are read directly: what they stand in is not
  -- entered.
  have hlist := hspace.child [.node "namespace" "namespace" []] rfl (by decide) ⟨_,rfl⟩ rfl
  have hstatement := hlist.child [] rfl (by decide) ⟨_,rfl⟩ rfl
  have hcall := hstatement.child [] rfl (by decide) ⟨_,rfl⟩ rfl
  have harguments := hcall.child [.node "identifier" "f" []] rfl (by decide) ⟨_,rfl⟩ rfl
  exact harguments.child [.node "(" "(" []] rfl (by decide) ⟨_,rfl⟩ rfl

theorem readFile_lackingFile :
    (readFile lackingFile).result =
      .error (.unsupported ⟨"binary_expression","argument_list"⟩) ∧
    (∃ parent ∈ lackingFile.walk, ∃ child ∈ parent.children, ¬isNoise child.kind ∧
      child.kind = "binary_expression" ∧ parent.kind = "argument_list") ∧
    ∃ s now, Passes .binaryExpression "binary_expression"
        ["argument_list","expression_statement","declaration_list","translation_unit","file"]
        lackingSum.children s now ∧
      Rule.finish "" .binaryExpression s = .incomplete ∧
      ∃ p ∈ lackingFile.walk, lackingSum ∈ p.children ∧ now.head? = some p.kind := by
  have hfail : (readFile lackingFile).result =
      .error (.unsupported ⟨"binary_expression","argument_list"⟩) := rfl
  obtain ⟨hclassified,-,horderly⟩ := readFile_failure lackingFile
  refine ⟨hfail,?_,?_⟩
  · rcases hclassified _ hfail with ⟨hroot,-⟩ | ⟨parent,hp,child,hc,hnoise,heq⟩ | ⟨hparts,-⟩
    · exact absurd rfl hroot
    · injection heq with hcause
      injection hcause with hkind hcontext
      exact ⟨parent,hp,child,hc,hnoise,hkind.symm,hcontext.symm⟩
    · simp at hparts
  · have hpasses : Passes .binaryExpression "binary_expression"
        ["argument_list","expression_statement","declaration_list","translation_unit","file"]
        lackingSum.children ⟨some (.reference "a"),none,none⟩
        ["argument_list","expression_statement","declaration_list","translation_unit","file"] :=
      ⟨[],rfl⟩
    have hsum := horderly _ _ _ _ reached_lackingSum
    obtain ⟨p,hp,hchild,-,hparent⟩ := hsum.reported _ _ hpasses (.inl rfl)
    refine ⟨_,_,hpasses,rfl,p,hp,hchild,?_⟩
    rw [hparent]
    exact hsum.top _ _ hpasses rfl

end Reading
end Scribe
