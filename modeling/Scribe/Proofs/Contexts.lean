import Scribe.Proofs.Recorded
import Scribe.Proofs.RuleKinds

/-! The context in which nodes are read. Nested children are read inside the node around them, and
direct ones in whatever context this node has; either way the context is left as it was found,
also after a failure. So what comes of a node depends on the innermost context alone, and of that
only where a rule may end incomplete. -/
namespace Scribe

namespace Reading
open Program

namespace Reader
variable {α β : Type} {context : List String}

theorem bind_eq {x : Reader α} {f : α → Reader β} {outcome : Outcome α} {next : α → Outcome β}
    (hx : x context = (outcome,context))
    (hf : ∀ a, outcome.result = .ok a → f a context = (next a,context)) :
    x.bind f context = (outcome.bind next,context) := by
  obtain ⟨record,result⟩ := outcome
  cases result with
  | ok a => simp [Reader.bind,hx,hf a rfl,Recorded.bind]
  | error e => simp [Reader.bind,hx,Recorded.bind]

theorem within_eq {x : Reader α} {kind : String} {outcome : Outcome α}
    (hx : x (kind :: context) = (outcome,kind :: context)) :
    x.within kind context = (outcome,context) := by
  simp [Reader.within,hx]

end Reader

section Endings
variable {α : Type}

theorem ofOption_ne_incomplete {otherwise : Ending α} (h : otherwise ≠ .incomplete)
    (value : Option α) : Ending.ofOption otherwise value ≠ .incomplete := by
  cases value with
  | none => exact h
  | some a => simp [Ending.ofOption]

/-- A rule for direct use never ends incomplete. -/
theorem finish_ne_incomplete {rule : Rule} (h : rule.isDirect) (text : String) (s : rule.State) :
    rule.finish text s ≠ .incomplete := by
  cases rule with
  | declaredName | functionDeclarator | wrappedFunction =>
    refine ofOption_ne_incomplete ?_ _
    simp
  | leaf | parameterList | parameterDeclaration | items | arguments => nofun
  | _ => simp [Rule.isDirect] at h

/-- The innermost context is the node around, unless the rule has no use for that. -/
def Rule.Placed (rule : Rule) (parent : String) (context : List String) : Prop :=
  rule.isDirect ∨ context.head? = some parent

theorem outcome_finish {rule : Rule} {parent : String} {context : List String}
    (h : rule.Placed parent context) (kind text : String) (s : rule.State) :
    (rule.finish text s).outcome kind text parent context =
      (rule.finish text s).outcome kind text parent [parent] := by
  cases hend : rule.finish text s with
  | incomplete =>
    rcases h with hdirect | htop
    · exact absurd hend (finish_ne_incomplete hdirect text s)
    · simp [Ending.outcome,htop]
  | _ => rfl

end Endings

theorem visitChildren_uniform (children : List ParseTree)
    (h : ∀ c ∈ children, ∀ (rule : Rule) (parent : String), ∃ outcome, ∀ context,
      rule.Placed parent context → visit rule parent c context = (outcome,context))
    (rule : Rule) (kind : String) (s : rule.State) :
    ∃ outcome, ∀ context, visitChildren rule kind s children context = (outcome,context) := by
  induction children generalizing s with
  | nil => exact ⟨.ok s,fun context => rfl⟩
  | cons child rest ih =>
    have hrest := ih fun c hc => h c (List.mem_cons_of_mem _ hc)
    by_cases hnoise : isNoise child.kind
    · simpa only [visitChildren,if_pos hnoise] using hrest s
    simp only [visitChildren,if_neg hnoise]
    cases hstep : rule.step s (head child) with
    | keep next => exact hrest next
    | reject => exact ⟨.unsupported child.kind kind,fun context => rfl⟩
    | overrun => exact ⟨.fail .overrun,fun context => rfl⟩
    | descend plan =>
      choose next hnext using hrest
      obtain ⟨outcome,hread⟩ := h child List.mem_cons_self plan.rule kind
      refine ⟨outcome.bind fun value => next (plan.build value),fun context => ?_⟩
      refine Reader.bind_eq ?_ fun value _ => hnext _ context
      -- A nested child finds the node around it on top; a direct one does not look there.
      split_ifs with hdirect
      · exact hread context (.inl ((suits_of_descend hstep).direct hdirect))
      · exact Reader.within_eq (hread (kind :: context) (.inr rfl))

/-- A node comes to the same wherever its rule is placed, and leaves the context as it was. -/
theorem visit_uniform (tree : ParseTree) : ∀ (rule : Rule) (parent : String), ∃ outcome,
    ∀ context, rule.Placed parent context → visit rule parent tree context = (outcome,context) := by
  induction tree using ParseTree.induct_children with
  | step tree ih =>
    intro rule parent
    obtain ⟨kind,text,children⟩ := tree
    obtain ⟨states,hstates⟩ := visitChildren_uniform children ih rule kind rule.start
    refine ⟨states.bind fun s => (rule.finish text s).outcome kind text parent [parent],
      fun context hplaced => ?_⟩
    rw [visit]
    refine Reader.bind_eq (hstates context) fun s _ => ?_
    rw [outcome_finish hplaced]

theorem visit_eq {rule : Rule} {parent : String} {context : List String}
    (h : rule.Placed parent context) (tree : ParseTree) :
    visit rule parent tree context = (read rule parent tree,context) := by
  obtain ⟨outcome,huniform⟩ := visit_uniform tree rule parent
  rw [read,huniform context h,huniform [parent] (.inr rfl)]

/-- What comes of the children of a node of the given kind. -/
def readChildren (rule : Rule) (kind : String) (state : rule.State) (children : List ParseTree) :
    Outcome rule.State :=
  (visitChildren rule kind state children []).1

theorem visitChildren_eq (rule : Rule) (kind : String) (s : rule.State)
    (children : List ParseTree) (context : List String) :
    visitChildren rule kind s children context = (readChildren rule kind s children,context) := by
  obtain ⟨outcome,huniform⟩ :=
    visitChildren_uniform children (fun c _ => visit_uniform c) rule kind s
  rw [readChildren,huniform context,huniform []]

section Equations
variable {rule : Rule} {context : String}

theorem read_node (kind text : String) (children : List ParseTree) :
    read rule context (.node kind text children) =
      (readChildren rule kind rule.start children).bind fun s =>
        (rule.finish text s).outcome kind text context [context] := by
  have hnode := Reader.bind_eq (visitChildren_eq rule kind rule.start children [context])
    (f := fun s around => ((rule.finish text s).outcome kind text context around,around))
    fun s _ => rfl
  rw [read,visit,hnode]

@[simp] theorem readChildren_nil (s : rule.State) : readChildren rule context s [] = .ok s := rfl

theorem readChildren_cons (rule : Rule) (context : String) (s : rule.State) (child : ParseTree)
    (rest : List ParseTree) :
    readChildren rule context s (child :: rest) =
      if isNoise child.kind then readChildren rule context s rest
      else match rule.step s (head child) with
        | .keep next => readChildren rule context next rest
        | .descend plan => (read plan.rule context child).bind fun value =>
          readChildren rule context (plan.build value) rest
        | .reject => .unsupported child.kind context
        | .overrun => .fail .overrun := by
  rw [readChildren,visitChildren]
  split_ifs with hnoise
  · rfl
  cases hstep : rule.step s (head child) with
  | keep next => rfl
  | reject => rfl
  | overrun => rfl
  | descend plan =>
    have hchild : (if plan.isDirect then visit plan.rule context child
        else (visit plan.rule context child).within context) [] =
          (read plan.rule context child,[]) := by
      split_ifs with hdirect
      · exact visit_eq (.inl ((suits_of_descend hstep).direct hdirect)) child
      · exact Reader.within_eq (visit_eq (.inr rfl) child)
    have hbind := Reader.bind_eq hchild fun value _ =>
      visitChildren_eq rule context (plan.build value) rest []
    exact congrArg Prod.fst hbind

end Equations

end Reading
end Scribe
