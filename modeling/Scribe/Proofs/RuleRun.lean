import Scribe.Proofs.RuleInvariant

/-! Runs of rules. Reading the children of a node is a run over those that are no noise, one
step for each; it ends in a state or gets stuck at a child. What a rule knows of the children
it has come by is carried along the run. -/
namespace Scribe

namespace Reading
open Program

/-- The children that a rule gets to see. -/
def heard (children : List ParseTree) : List ParseTree := children.filter (!isNoise ·.kind)

theorem mem_heard {children : List ParseTree} {child : ParseTree} :
    child ∈ heard children ↔ child ∈ children ∧ ¬isNoise child.kind := by
  simp [heard]

@[simp] theorem heard_nil : heard [] = [] := rfl

theorem heard_cons_of_noise {child : ParseTree} (h : isNoise child.kind) (rest : List ParseTree) :
    heard (child :: rest) = heard rest := by
  simp [heard,h]

theorem heard_cons {child : ParseTree} (h : ¬isNoise child.kind) (rest : List ParseTree) :
    heard (child :: rest) = child :: heard rest := by
  simp [heard,h]

theorem heard_append (xs ys : List ParseTree) : heard (xs ++ ys) = heard xs ++ heard ys :=
  List.filter_append ..

section Expect
variable {α σ : Type} {plan : Option (Plan α)} {build : α → σ}

theorem expect_ne_keep (s : σ) : Action.expect plan build ≠ .keep s := by
  cases plan <;> simp [Action.expect]

theorem expect_eq_descend {p : Plan σ} :
    Action.expect plan build = .descend p ↔ ∃ q, plan = some q ∧ q.map build = p := by
  cases plan <;> simp [Action.expect]

theorem leads_of_expect {result : (rule : Rule) → rule.Result → Prop} {P : σ → Prop}
    (h : ∀ p, plan = some p → ∀ value, result p.rule value → P (build (p.build value))) :
    (Action.expect plan build).Leads result P := by
  cases plan with
  | none => trivial
  | some p => exact h p rfl

end Expect

/-- A rule goes from one state to another over children of a node of kind `context`. -/
inductive Run (rule : Rule) (context : String) :
    rule.State → List ParseTree → rule.State → Prop
  | done (s) : Run rule context s [] s
  | keep {s child next rest final} : rule.step s (head child) = .keep next →
      Run rule context next rest final → Run rule context s (child :: rest) final
  | descend {s child plan value rest final} : rule.step s (head child) = .descend plan →
      (read plan.rule context child).result = .ok value →
      Run rule context (plan.build value) rest final → Run rule context s (child :: rest) final

/-- A rule goes from one state to the next over one child. -/
inductive Step (rule : Rule) (context : String) (s : rule.State) (child : ParseTree) :
    rule.State → Prop
  | keep {next} : rule.step s (head child) = .keep next → Step rule context s child next
  | descend {plan value} : rule.step s (head child) = .descend plan →
      (read plan.rule context child).result = .ok value →
      Step rule context s child (plan.build value)

/-- A child that has a run get stuck, and the failure that comes of it. -/
inductive Stuck (rule : Rule) (context : String) (s : rule.State) (child : ParseTree) :
    Failure → Prop
  | reject : rule.step s (head child) = .reject →
      Stuck rule context s child (.unsupported ⟨child.kind,context⟩)
  | overrun : rule.step s (head child) = .overrun → Stuck rule context s child .overrun
  | descend {plan failure} : rule.step s (head child) = .descend plan →
      (read plan.rule context child).result = .error failure →
      Stuck rule context s child failure

section Runs
variable {rule : Rule} {context : String}

namespace Step
variable {s next : rule.State} {child : ParseTree}

theorem of_keep {kept : rule.State} (h : Step rule context s child next)
    (hkeep : rule.step s (head child) = .keep kept) : next = kept := by
  cases h with
  | keep hstep => exact Action.keep.inj (hstep.symm.trans hkeep)
  | descend hstep _ => simp [hkeep] at hstep

theorem of_descend {plan : Plan rule.State} (h : Step rule context s child next)
    (hdescend : rule.step s (head child) = .descend plan) :
    ∃ value, (read plan.rule context child).result = .ok value ∧ next = plan.build value := by
  cases h with
  | keep hstep => simp [hdescend] at hstep
  | @descend plan' value hstep hread =>
    obtain rfl := Action.descend.inj (hstep.symm.trans hdescend)
    exact ⟨value,hread,rfl⟩

theorem of_expect {α : Type} {plan : Option (Plan α)} {build : α → rule.State}
    (h : Step rule context s child next)
    (hexpect : rule.step s (head child) = .expect plan build) :
    ∃ p value, plan = some p ∧ (read p.rule context child).result = .ok value ∧
      next = build (p.build value) := by
  cases plan with
  | none => cases h <;> simp_all [Action.expect]
  | some p =>
    obtain ⟨value,hread,hnext⟩ := h.of_descend hexpect
    exact ⟨p,value,rfl,hread,hnext⟩

theorem leads (h : Step rule context s child next) (P : rule.State → Prop)
    (hleads : (rule.step s (head child)).Leads (fun _ _ => True) P) : P next := by
  cases h with
  | keep hstep =>
    rw [hstep] at hleads
    exact hleads
  | descend hstep _ =>
    rw [hstep] at hleads
    exact hleads _ trivial

theorem not_reject (h : Step rule context s child next) :
    rule.step s (head child) ≠ .reject := by
  cases h <;> simp_all

end Step

theorem run_nil {s final : rule.State} : Run rule context s [] final ↔ s = final := by
  constructor
  · intro h
    cases h
    rfl
  · rintro rfl
    exact .done s

theorem run_cons {s final : rule.State} {child : ParseTree} {rest : List ParseTree} :
    Run rule context s (child :: rest) final ↔
      ∃ next, Step rule context s child next ∧ Run rule context next rest final := by
  constructor
  · intro h
    cases h with
    | keep hstep hrest => exact ⟨_,.keep hstep,hrest⟩
    | descend hstep hread hrest => exact ⟨_,.descend hstep hread,hrest⟩
  · rintro ⟨next,hstep,hrest⟩
    cases hstep with
    | keep hstep => exact .keep hstep hrest
    | descend hstep hread => exact .descend hstep hread hrest

theorem Run.append {s mid final : rule.State} {xs ys : List ParseTree}
    (h : Run rule context s xs mid) (h' : Run rule context mid ys final) :
    Run rule context s (xs ++ ys) final := by
  induction h with
  | done s => exact h'
  | keep hstep _ ih => exact .keep hstep (ih h')
  | descend hstep hread _ ih => exact .descend hstep hread (ih h')

theorem run_append {s final : rule.State} {xs ys : List ParseTree} :
    Run rule context s (xs ++ ys) final ↔
      ∃ mid, Run rule context s xs mid ∧ Run rule context mid ys final := by
  constructor
  · intro h
    induction xs generalizing s with
    | nil => exact ⟨s,.done s,h⟩
    | cons x xs ih =>
      rw [List.cons_append] at h
      cases h with
      | keep hstep hrest =>
        obtain ⟨mid,hxs,hys⟩ := ih hrest
        exact ⟨mid,.keep hstep hxs,hys⟩
      | descend hstep hread hrest =>
        obtain ⟨mid,hxs,hys⟩ := ih hrest
        exact ⟨mid,.descend hstep hread hxs,hys⟩
  · rintro ⟨mid,hxs,hys⟩
    exact hxs.append hys

theorem Run.at_child {s final : rule.State} {before after : List ParseTree} {child : ParseTree}
    (h : Run rule context s (before ++ child :: after) final) :
    ∃ mid next, Run rule context s before mid ∧ Step rule context mid child next ∧
      Run rule context next after final := by
  obtain ⟨mid,hbefore,hrest⟩ := run_append.1 h
  cases hrest with
  | keep hstep hafter => exact ⟨mid,_,hbefore,.keep hstep,hafter⟩
  | descend hstep hread hafter => exact ⟨mid,_,hbefore,.descend hstep hread,hafter⟩

theorem Run.preserves {s final : rule.State} {children : List ParseTree}
    (h : Run rule context s children final) (P : rule.State → Prop)
    (hstep : ∀ s child next, child ∈ children → Step rule context s child next → P s → P next)
    (hs : P s) : P final := by
  induction h with
  | done s => exact hs
  | keep hkeep _ ih =>
    refine ih (fun s c next hc => hstep s c next (List.mem_cons_of_mem _ hc)) ?_
    exact hstep _ _ _ List.mem_cons_self (.keep hkeep) hs
  | descend hplan hvalue _ ih =>
    refine ih (fun s c next hc => hstep s c next (List.mem_cons_of_mem _ hc)) ?_
    exact hstep _ _ _ List.mem_cons_self (.descend hplan hvalue) hs

/-- What the step over one child brings about, and every other step keeps, holds in the end. -/
theorem Run.sets {s final : rule.State} {children : List ParseTree} {child : ParseTree}
    (h : Run rule context s children final) (hchild : child ∈ children) (P : rule.State → Prop)
    (hset : ∀ s next, Step rule context s child next → P next)
    (hkeep : ∀ s c next, Step rule context s c next → P s → P next) : P final := by
  obtain ⟨before,after,rfl⟩ := List.append_of_mem hchild
  obtain ⟨mid,next,-,hstep,hafter⟩ := h.at_child
  exact hafter.preserves P (fun s c next _ => hkeep s c next) (hset mid next hstep)

/-- Where only the first of certain children counts, it is what is found. -/
theorem Run.finds_first {α : Type} {s final : rule.State} {before after : List ParseTree}
    {child : ParseTree} (h : Run rule context s (before ++ child :: after) final)
    (found : rule.State → Option α) (P : ParseTree → Prop) (Q : ParseTree → α → Prop)
    (hstep : ∀ s c next, Step rule context s c next →
      ((found s ≠ none ∨ ¬P c) ∧ next = s) ∨
        (found s = none ∧ P c ∧ ∃ a, Q c a ∧ found next = some a))
    (hs : found s = none) (hbefore : ∀ c ∈ before, ¬P c) (hchild : P child) :
    ∃ a, Q child a ∧ found final = some a := by
  obtain ⟨mid,next,hfirst,hat,hafter⟩ := h.at_child
  -- In front of the child nothing is found, and behind it nothing is changed.
  have hmid : found mid = none := by
    refine hfirst.preserves (fun s => found s = none) (fun s c next hc hnext hs => ?_) hs
    rcases hstep s c next hnext with ⟨-,rfl⟩ | ⟨-,hc',-⟩
    · exact hs
    · exact absurd hc' (hbefore c hc)
  rcases hstep mid child next hat with ⟨hsome | hother,-⟩ | ⟨-,-,a,ha,hnext⟩
  · exact absurd hmid hsome
  · exact absurd hchild hother
  · refine ⟨a,ha,hafter.preserves (fun s => found s = some a) (fun s c next _ hnext hs => ?_) hnext⟩
    rcases hstep s c next hnext with ⟨-,rfl⟩ | ⟨hnone,-⟩
    · exact hs
    · exact absurd hs (by simp [hnone])

theorem Run.grows {α : Type} {s final : rule.State} {children : List ParseTree}
    (h : Run rule context s children final) (f : rule.State → List α)
    (hstep : ∀ s child next, Step rule context s child next → f s <+: f next) :
    f s <+: f final :=
  h.preserves (fun t => f s <+: f t)
    (fun t child next _ hnext ht => ht.trans (hstep t child next hnext)) (List.prefix_refl _)

theorem Run.invariant {s final : rule.State} {children : List ParseTree}
    (h : Run rule context s children final) (P : rule.State → Prop)
    (hstep : ∀ s, P s → ∀ child ∈ children,
      (rule.step s (head child)).Leads (fun _ _ => True) P) (hs : P s) : P final := by
  exact h.preserves P (fun s child _ hchild hnext hs => hnext.leads P (hstep s hs child hchild)) hs

theorem readChildren_eq_ok {s final : rule.State} {children : List ParseTree} :
    (readChildren rule context s children).result = .ok final ↔
      Run rule context s (heard children) final := by
  induction children generalizing s with
  | nil => simp [run_nil]
  | cons child rest ih =>
    rw [readChildren_cons]
    by_cases hnoise : isNoise child.kind
    · rw [if_pos hnoise,heard_cons_of_noise hnoise,ih]
    · rw [if_neg hnoise,heard_cons hnoise]
      cases hstep : rule.step s (head child) with
      | keep next =>
        rw [ih]
        constructor
        · exact .keep hstep
        · rintro (_ | ⟨hkeep,hrest⟩ | ⟨hdescend,-,-⟩)
          · obtain rfl : next = _ := by simpa [hstep] using hkeep
            exact hrest
          · simp [hstep] at hdescend
      | descend plan =>
        rw [Recorded.result_bind_eq_ok]
        constructor
        · rintro ⟨value,hvalue,hrest⟩
          exact .descend hstep hvalue (ih.1 hrest)
        · rintro (_ | ⟨hkeep,-⟩ | ⟨hdescend,hvalue,hrest⟩)
          · simp [hstep] at hkeep
          · obtain rfl : plan = _ := by simpa [hstep] using hdescend
            exact ⟨_,hvalue,ih.2 hrest⟩
      | reject | overrun =>
        constructor
        · simp [Outcome.unsupported]
        · rintro (_ | ⟨hkeep,-⟩ | ⟨hdescend,-,-⟩)
          · simp [hstep] at hkeep
          · simp [hstep] at hdescend

/-- Reading children fails only at a child that a run gets to. -/
theorem stuck_of_readChildren {s : rule.State} {children : List ParseTree} {failure : Failure}
    (h : (readChildren rule context s children).result = .error failure) :
    ∃ before child after mid, children = before ++ child :: after ∧ ¬isNoise child.kind ∧
      Run rule context s (heard before) mid ∧ Stuck rule context mid child failure := by
  induction children generalizing s with
  | nil => simp at h
  | cons child rest ih =>
    rw [readChildren_cons] at h
    by_cases hnoise : isNoise child.kind
    · rw [if_pos hnoise] at h
      obtain ⟨before,c,after,mid,rfl,hc,hrun,hstuck⟩ := ih h
      exact ⟨child :: before,c,after,mid,rfl,hc,by rwa [heard_cons_of_noise hnoise],hstuck⟩
    · rw [if_neg hnoise] at h
      cases hstep : rule.step s (head child) with
      | keep next =>
        rw [hstep] at h
        obtain ⟨before,c,after,mid,rfl,hc,hrun,hstuck⟩ := ih h
        refine ⟨child :: before,c,after,mid,rfl,hc,?_,hstuck⟩
        rw [heard_cons hnoise]
        exact .keep hstep hrun
      | reject =>
        rw [hstep] at h
        obtain rfl : .unsupported ⟨child.kind,context⟩ = failure := by
          simpa [Outcome.unsupported] using h
        exact ⟨[],child,rest,s,rfl,hnoise,.done s,.reject hstep⟩
      | overrun =>
        rw [hstep] at h
        obtain rfl : .overrun = failure := by simpa using h
        exact ⟨[],child,rest,s,rfl,hnoise,.done s,.overrun hstep⟩
      | descend plan =>
        simp only [hstep,Recorded.result_bind] at h
        cases hread : (read plan.rule context child).result with
        | ok value =>
          rw [hread] at h
          obtain ⟨before,c,after,mid,rfl,hc,hrun,hstuck⟩ := ih h
          refine ⟨child :: before,c,after,mid,rfl,hc,?_,hstuck⟩
          rw [heard_cons hnoise]
          exact .descend hstep hread hrun
        | error e =>
          obtain rfl : e = failure := by simpa [hread,Except.bind] using h
          exact ⟨[],child,rest,s,rfl,hnoise,.done s,.descend hstep hread⟩

/-- A value is read from a node by a run over its children to a state that ends with it. -/
theorem read_eq_ok {tree : ParseTree} {value : rule.Result} :
    (read rule context tree).result = .ok value ↔
      ∃ s, Run rule tree.kind rule.start (heard tree.children) s ∧
        (rule.finish tree.text s = .done value ∨ rule.finish tree.text s = .lacksRight value) := by
  cases tree with
  | node kind text children =>
    rw [read_node,Recorded.result_bind_eq_ok]
    refine exists_congr fun s => and_congr readChildren_eq_ok ?_
    cases hfinish : rule.finish text s <;>
      simp [Ending.outcome,Outcome.unsupported,hfinish]

theorem Ending.eq_of_done {α : Type} {value finished : α}
    (h : Ending.done finished = .done value ∨ Ending.done finished = .lacksRight value) :
    value = finished := by
  rcases h with hdone | hlacks
  · exact (Ending.done.inj hdone).symm
  · cases hlacks

theorem Ending.eq_of_eq_done {α : Type} {e : Ending α} {value finished : α}
    (hdone : e = .done finished) (h : e = .done value ∨ e = .lacksRight value) :
    value = finished := by
  subst hdone
  exact Ending.eq_of_done h

theorem Ending.eq_of_check {α : Type} {value checked : α} {problem : Option Problem}
    (h : Ending.check checked problem = .done value ∨
      Ending.check checked problem = .lacksRight value) : value = checked := by
  cases problem with
  | none => exact Ending.eq_of_done h
  | some problem => rcases h with h | h <;> cases h

theorem failed_of_read {tree : ParseTree} {failure : Failure}
    (h : (read rule context tree).result = .error failure) :
    (∃ before child after mid, tree.children = before ++ child :: after ∧ ¬isNoise child.kind ∧
      Run rule tree.kind rule.start (heard before) mid ∧ Stuck rule tree.kind mid child failure) ∨
    ∃ s, Run rule tree.kind rule.start (heard tree.children) s ∧
      ((rule.finish tree.text s).outcome tree.kind tree.text context [context]).result =
        .error failure := by
  cases tree with
  | node kind text children =>
    rw [read_node,Recorded.result_bind] at h
    cases hrun : (readChildren rule kind rule.start children).result with
    | error e =>
      obtain rfl : e = failure := by simpa [hrun,Except.bind] using h
      exact .inl (stuck_of_readChildren hrun)
    | ok s =>
      refine .inr ⟨s,readChildren_eq_ok.1 hrun,?_⟩
      rw [hrun] at h
      exact h

end Runs

theorem Step.wrappedFunction {context : String} {child : ParseTree} {s next : Option Signature}
    (h : Step .wrappedFunction context s child next) :
    ((s ≠ none ∨ ¬declaresFunction child) ∧ next = s) ∨
      (s = none ∧ declaresFunction child ∧
        ∃ signature, (∃ value, (read (function child.kind).rule context child).result = .ok value ∧
          (function child.kind).build value = signature) ∧ next = some signature) := by
  by_cases hfound : s.isNone ∧ declaresFunction child
  · obtain ⟨value,hread,hnext⟩ := h.of_descend (if_pos hfound)
    exact .inr ⟨Option.isNone_iff_eq_none.1 hfound.1,hfound.2,_,⟨value,hread,rfl⟩,hnext⟩
  · refine .inl ⟨?_,h.of_keep (if_neg hfound)⟩
    rw [not_and_or,Option.isNone_iff_eq_none] at hfound
    exact hfound

/-- Properties of the states of all rules, given the children that they have come by, and of
their results, given the node that was read. Every step carries them on. -/
structure History where
  state : (rule : Rule) → List ParseTree → rule.State → Prop
  result : (rule : Rule) → ParseTree → rule.Result → Prop
  start : ∀ rule : Rule, state rule [] rule.start
  step : ∀ (rule : Rule) (before : List ParseTree) (s : rule.State) (child : ParseTree),
    state rule before s → (rule.step s (head child)).Leads (fun inner value =>
      child.kind ∈ inner.kinds ∧ result inner child value) (state rule (before ++ [child]))
  finish : ∀ (rule : Rule) (tree : ParseTree) (s : rule.State), tree.kind ∈ rule.kinds →
    state rule (heard tree.children) s → (rule.finish tree.text s).Gives (result rule tree)

namespace History

theorem run_state (H : History) {rule : Rule} {context : String} {s final : rule.State}
    {children : List ParseTree} (h : Run rule context s children final)
    (hread : ∀ c ∈ children, ∀ inner value, c.kind ∈ Rule.kinds inner →
      (read inner context c).result = .ok value → H.result inner c value) :
    ∀ before, H.state rule before s → H.state rule (before ++ children) final := by
  induction h with
  | done s => simp
  | @keep s child next rest final hkeep _ ih =>
    intro before hs
    have hnext := H.step rule before s child hs
    rw [hkeep] at hnext
    rw [List.append_cons]
    exact ih (fun c hc => hread c (List.mem_cons_of_mem _ hc)) _ hnext
  | @descend s child plan value rest final hplan hvalue _ ih =>
    intro before hs
    have hnext := H.step rule before s child hs
    have hinner := (suits_of_descend hplan).kind
    rw [hplan] at hnext
    have hresult := hread child List.mem_cons_self plan.rule value hinner hvalue
    rw [List.append_cons]
    exact ih (fun c hc => hread c (List.mem_cons_of_mem _ hc)) _ (hnext value ⟨hinner,hresult⟩)

theorem read_result (H : History) (tree : ParseTree) : ∀ (rule : Rule) (context : String),
    tree.kind ∈ rule.kinds → ∀ value, (read rule context tree).result = .ok value →
      H.result rule tree value := by
  induction tree using ParseTree.induct_children with
  | step tree ih =>
    intro rule context hkind value h
    obtain ⟨s,hrun,hfinish⟩ := read_eq_ok.1 h
    have hstate : H.state rule (heard tree.children) s := by
      refine H.run_state hrun (fun c hc inner v hinner hv => ?_) [] (H.start rule)
      exact ih c (mem_heard.1 hc).1 inner tree.kind hinner v hv
    have hgives := H.finish rule tree s hkind hstate
    rcases hfinish with hdone | hlacks
    · rw [hdone] at hgives
      exact hgives
    · rw [hlacks] at hgives
      exact hgives

end History
end Reading
end Scribe
