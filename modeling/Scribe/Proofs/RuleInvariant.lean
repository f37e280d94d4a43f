import Scribe.Proofs.Contexts

/-! Properties that rules keep: what holds of the state of every rule at every child holds of
whatever is read from a parse tree. -/
namespace Scribe
namespace Reading
open Program

/-- The state that an action goes on from has a property, provided that what is read on the
way has the property of its rule. -/
def Action.Leads {σ : Type} (result : (rule : Rule) → rule.Result → Prop) (P : σ → Prop) :
    Action σ → Prop
  | .keep state => P state
  | .descend plan => ∀ value, result plan.rule value → P (plan.build value)
  | .reject => True
  | .overrun => True

/-- The value that an ending gives, if any, has a property. -/
def Ending.Gives {α : Type} (P : α → Prop) : Ending α → Prop
  | .done value => P value
  | .lacksRight value => P value
  | _ => True

/-- Properties of the states and the results of all rules that every step keeps. -/
structure Invariant where
  state : (rule : Rule) → rule.State → Prop
  result : (rule : Rule) → rule.Result → Prop
  start : ∀ rule : Rule, state rule rule.start
  step : ∀ (rule : Rule) (s : rule.State) (child : Head), state rule s →
    (rule.step s child).Leads result (state rule)
  finish : ∀ (rule : Rule) (text : String) (s : rule.State), state rule s →
    (rule.finish text s).Gives (result rule)

theorem readFile_of_unit {root : ParseTree} (h : root.kind = "translation_unit") :
    readFile root = read .items Unsupported.file root :=
  if_pos h

theorem readFile_of_not_unit {root : ParseTree} (h : root.kind ≠ "translation_unit") :
    readFile root = .unsupported root.kind Unsupported.file :=
  if_neg h

theorem leads_true {σ : Type} {result : (rule : Rule) → rule.Result → Prop} (action : Action σ) :
    action.Leads result fun _ => True := by
  cases action <;> simp [Action.Leads]

theorem Ending.Gives.ofOption {α : Type} {P : α → Prop} {otherwise : Ending α}
    {value : Option α} (h : ∀ a ∈ value, P a) (hmissing : otherwise.Gives P) :
    (Ending.ofOption otherwise value).Gives P := by
  cases value with
  | none => exact hmissing
  | some a => exact h a rfl

theorem Ending.Gives.check {α : Type} {P : α → Prop} {value : α} (h : P value)
    (problem : Option Problem) : (Ending.check value problem).Gives P := by
  cases problem with
  | none => exact h
  | some problem => trivial

theorem Ending.Gives.of_outcome {α : Type} {P : α → Prop} {e : Ending α} (h : e.Gives P)
    {kind text parent : String} {context : List String} {value : α}
    (hv : (e.outcome kind text parent context).result = .ok value) : P value := by
  cases e with
  | done a =>
    obtain rfl : a = value := by simpa [Ending.outcome] using hv
    exact h
  | lacksRight a =>
    obtain rfl : a = value := by simpa [Ending.outcome] using hv
    exact h
  | _ => simp [Ending.outcome,Outcome.unsupported] at hv

namespace Invariant

mutual
/-- Whatever a rule reads has the property of the rule. -/
theorem read_result (I : Invariant) (rule : Rule) (context : String) :
    (tree : ParseTree) → (value : rule.Result) →
      (read rule context tree).result = .ok value → I.result rule value
  | .node kind text children, value, h => by
    rw [read_node] at h
    obtain ⟨s,hs,hv⟩ := Recorded.result_bind_eq_ok.1 h
    have hfinal := readChildren_state I rule kind children rule.start s (I.start rule) hs
    exact (I.finish rule text s hfinal).of_outcome hv

theorem readChildren_state (I : Invariant) (rule : Rule) (context : String) :
    (children : List ParseTree) → (s final : rule.State) → I.state rule s →
      (readChildren rule context s children).result = .ok final → I.state rule final
  | [], s, final, hs, h => by
    obtain rfl : s = final := by simpa using h
    exact hs
  | child :: rest, s, final, hs, h => by
    rw [readChildren_cons] at h
    split at h
    · exact readChildren_state I rule context rest s final hs h
    · have hstep := I.step rule s (head child) hs
      split at h
      · rename_i next hkeep
        rw [hkeep] at hstep
        exact readChildren_state I rule context rest next final hstep h
      · rename_i plan hplan
        rw [hplan] at hstep
        obtain ⟨value,hvalue,hrest⟩ := Recorded.result_bind_eq_ok.1 h
        have hread := read_result I plan.rule context child value hvalue
        exact readChildren_state I rule context rest (plan.build value) final
          (hstep value hread) hrest
      · simp [Outcome.unsupported] at h
      · simp at h
end

end Invariant
end Reading
end Scribe
