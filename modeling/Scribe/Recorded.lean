/-! Results with a record of what happened on the way to them. A failure ends the work but
takes nothing back that has been recorded. -/
namespace Scribe

structure Recorded (ω ε α : Type) where
  record : List ω
  result : Except ε α

namespace Recorded
variable {ω ε α β : Type}

def ok (a : α) : Recorded ω ε α := ⟨[], .ok a⟩

def fail (e : ε) : Recorded ω ε α := ⟨[], .error e⟩

def note (w : ω) : Recorded ω ε Unit := ⟨[w], .ok ()⟩

def bind (x : Recorded ω ε α) (f : α → Recorded ω ε β) : Recorded ω ε β :=
  match x.result with
  | .ok a => ⟨x.record ++ (f a).record, (f a).result⟩
  | .error e => ⟨x.record, .error e⟩

def map (f : α → β) (x : Recorded ω ε α) : Recorded ω ε β := ⟨x.record, x.result.map f⟩

instance : Monad (Recorded ω ε) where
  pure := ok
  bind := bind

/-- The values in order, up to the first failure. -/
def all : List (Recorded ω ε α) → Recorded ω ε (List α)
  | [] => ok []
  | x :: xs => x.bind fun a => (all xs).map (a :: ·)

/-- The value if there is one to work out. -/
def option : Option (Recorded ω ε α) → Recorded ω ε (Option α)
  | none => ok none
  | some x => x.map some

/-- The same with other entries and failures. -/
def relabel {ω' ε' : Type} (entry : ω → ω') (failure : ε → ε') (x : Recorded ω ε α) :
    Recorded ω' ε' α :=
  ⟨x.record.map entry, x.result.mapError failure⟩

@[simp] theorem record_ok (a : α) : (ok a : Recorded ω ε α).record = [] := rfl
@[simp] theorem result_ok (a : α) : (ok a : Recorded ω ε α).result = .ok a := rfl
@[simp] theorem record_fail (e : ε) : (fail e : Recorded ω ε α).record = [] := rfl
@[simp] theorem result_fail (e : ε) : (fail e : Recorded ω ε α).result = .error e := rfl
@[simp] theorem record_map (f : α → β) (x : Recorded ω ε α) :
    (x.map f).record = x.record := rfl
@[simp] theorem result_map (f : α → β) (x : Recorded ω ε α) :
    (x.map f).result = x.result.map f := rfl

@[simp] theorem result_bind (x : Recorded ω ε α) (f : α → Recorded ω ε β) :
    (x.bind f).result = x.result.bind fun a => (f a).result := by
  cases h : x.result <;> simp [bind,h,Except.bind]

@[simp] theorem result_do_bind (x : Recorded ω ε α) (f : α → Recorded ω ε β) :
    (x >>= f).result = x.result >>= fun a => (f a).result := result_bind x f

@[simp] theorem result_pure (a : α) : (pure a : Recorded ω ε α).result = .ok a := rfl

@[simp] theorem result_note (w : ω) : (note w : Recorded ω ε Unit).result = .ok () := rfl

@[simp] theorem result_relabel {ω' ε' : Type} (entry : ω → ω') (failure : ε → ε')
    (x : Recorded ω ε α) : (x.relabel entry failure).result = x.result.mapError failure := rfl

end Recorded
end Scribe
