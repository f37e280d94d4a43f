import Scribe.Recorded

/-! When recorded results succeed, and how they fail. -/
namespace Scribe

theorem findSome?_cons_eq_or {α β : Type} (f : α → Option β) (a : α) (as : List α) :
    (a :: as).findSome? f = (f a).or (as.findSome? f) := by
  rw [List.findSome?_cons]
  cases f a <;> rfl

namespace Recorded
variable {ω ε α β : Type}

theorem result_bind_eq_ok {x : Recorded ω ε α} {f : α → Recorded ω ε β} {b : β} :
    (x.bind f).result = .ok b ↔ ∃ a, x.result = .ok a ∧ (f a).result = .ok b := by
  rw [result_bind]
  cases x.result <;> simp [Except.bind]

theorem result_map_eq_ok {x : Recorded ω ε α} {f : α → β} {b : β} :
    (x.map f).result = .ok b ↔ ∃ a, x.result = .ok a ∧ f a = b := by
  rw [result_map]
  cases x.result <;> simp [Except.map]

/-- Whatever comes of it has a property. -/
def Results (P : α → Prop) (x : Recorded ω ε α) : Prop := ∀ a, x.result = .ok a → P a

section Results
variable {R : β → Prop} {x : Recorded ω ε α}

theorem results_map {f : α → β} (h : ∀ a, R (f a)) : (x.map f).Results R := by
  intro b hb
  obtain ⟨a,-,rfl⟩ := result_map_eq_ok.1 hb
  exact h a

theorem results_bind {f : α → Recorded ω ε β} (h : ∀ a, (f a).Results R) :
    (x.bind f).Results R := by
  intro b hb
  obtain ⟨a,-,ha⟩ := result_bind_eq_ok.1 hb
  exact h a b ha

end Results

def failure? (x : Recorded ω ε α) : Option ε :=
  match x.result with
  | .ok _ => none
  | .error e => some e

@[simp] theorem failure?_ok (a : α) : (ok a : Recorded ω ε α).failure? = none := rfl

@[simp] theorem failure?_fail (e : ε) : (fail e : Recorded ω ε α).failure? = some e := rfl

theorem failure?_eq_none_iff {x : Recorded ω ε α} :
    x.failure? = none ↔ ∃ a, x.result = .ok a := by
  cases h : x.result <;> simp [failure?,h]

@[simp] theorem failure?_map (f : α → β) (x : Recorded ω ε α) :
    (x.map f).failure? = x.failure? := by
  cases h : x.result <;> simp [failure?,h,Except.map]

theorem failure?_bind (x : Recorded ω ε α) (f : α → Recorded ω ε β) {e : Option ε}
    (h : ∀ a, x.result = .ok a → (f a).failure? = e) :
    (x.bind f).failure? = x.failure?.or e := by
  cases hx : x.result with
  | ok a => simpa [failure?,hx,Except.bind] using h a hx
  | error e => simp [failure?,hx,Except.bind]

@[simp] theorem failure?_bind_map {γ : Type} (x : Recorded ω ε α) (y : Recorded ω ε β)
    (f : α → β → γ) : (x.bind fun a => y.map (f a)).failure? = x.failure?.or y.failure? :=
  failure?_bind x _ fun a _ => failure?_map (f a) y

theorem failure?_all (xs : List (Recorded ω ε α)) :
    (all xs).failure? = xs.findSome? failure? := by
  induction xs with
  | nil => rfl
  | cons x xs ih =>
    rw [all,failure?_bind x _ fun a _ => by rw [failure?_map,ih],findSome?_cons_eq_or]

end Recorded

end Scribe
