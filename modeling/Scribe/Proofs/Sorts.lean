import Mathlib.Tactic
import Scribe.Proofs.Slots
import Scribe.Reading.Kinds

/-! Sorts of nodes: which kinds may stand in which places, what a node needs beside, and
programs in which all of that is so at every depth. -/
namespace Scribe
namespace Program
open Reading (binaryOperators unaryOperators updateOperators assignmentOperators)

def Kind.isExpression : Kind → Bool
  | .binaryExpression | .unaryExpression | .updateExpression | .conditionalExpression
  | .assignmentExpression | .callExpression | .parenthesizedExpression | .path | .reference
  | .numberLiteral | .booleanLiteral | .nullLiteral | .stringLiteral | .userDefinedLiteral => true
  | _ => false

/-- The kinds that may stand in a place. -/
def Role.admits : Role → Kind → Bool
  | .expression, kind => kind.isExpression
  | .init, kind => kind.isExpression || kind == .declaration
  | .member, kind => kind != .index && kind != .parameter
  | .head, kind => kind.isExpression && kind != .path
  | .step, kind => kind == .reference || kind == .index
  | .parameter, kind => kind == .parameter

theorem Role.admits_index {role : Role} : role.admits .index ↔ role = .step := by
  cases role <;> decide

theorem Role.admits_parameter {role : Role} : role.admits .parameter ↔ role = .parameter := by
  cases role <;> decide

namespace Node

/-- What a node needs apart from nodes of the right kinds in its places. -/
def Complete : Node → Prop
  | declaration declarators => declarators ≠ []
  | ifStatement choices => chainFault? choices = none
  | path steps => steps ≠ []
  | binaryExpression operator _ _ => operator ∈ binaryOperators
  | unaryExpression operator _ => operator ∈ unaryOperators
  | updateExpression operator _ _ => operator ∈ updateOperators
  | assignmentExpression _ operator _ => operator ∈ assignmentOperators
  | booleanLiteral value => value = "true" ∨ value = "false"
  | _ => True

def Sorted (n : Node) : Prop := (∀ s ∈ n.slots, s.1.admits s.2.kind) ∧ n.Complete

end Node

/-- A node that may stand in a place and is sorted at every depth. -/
def Fits (role : Role) (n : Node) : Prop := role.admits n.kind ∧ Everywhere Node.Sorted [n]

def AllFit (role : Role) (ns : List Node) : Prop := ∀ n ∈ ns, Fits role n

/-- A node is sorted at every depth as soon as it is complete and what is directly inside
fits its place. -/
theorem everywhere_sorted_iff {n : Node} :
    Everywhere Node.Sorted [n] ↔ n.Complete ∧ ∀ s ∈ n.slots, Fits s.1 s.2 := by
  have hinside : Everywhere Node.Sorted n.children ↔
      ∀ s ∈ n.slots, Everywhere Node.Sorted [s.2] := by
    rw [everywhere_iff,Node.children,List.forall_mem_map]
  rw [everywhere_singleton,hinside]
  constructor
  · rintro ⟨⟨hadmits,hcomplete⟩,hinner⟩
    exact ⟨hcomplete,fun s hs => ⟨hadmits s hs,hinner s hs⟩⟩
  · rintro ⟨hcomplete,hfits⟩
    exact ⟨⟨fun s hs => (hfits s hs).1,hcomplete⟩,fun s hs => (hfits s hs).2⟩

theorem fits_iff {role : Role} {n : Node} :
    Fits role n ↔ role.admits n.kind ∧ n.Complete ∧ ∀ s ∈ n.slots, Fits s.1 s.2 := by
  rw [Fits,everywhere_sorted_iff]

theorem Fits.mono {role role' : Role} {n : Node} (h : Fits role n)
    (hroles : role.admits n.kind → role'.admits n.kind) : Fits role' n :=
  ⟨hroles h.1,h.2⟩

theorem Fits.member_of_expression {n : Node} (h : Fits .expression n) : Fits .member n := by
  apply h.mono
  cases n.kind <;> decide

theorem Fits.init_of_expression {n : Node} (h : Fits .expression n) : Fits .init n := by
  apply h.mono
  cases n.kind <;> decide

@[simp] theorem allFit_nil {role : Role} : AllFit role [] := by simp [AllFit]

@[simp] theorem allFit_cons {role : Role} {n : Node} {ns : List Node} :
    AllFit role (n :: ns) ↔ Fits role n ∧ AllFit role ns := List.forall_mem_cons

@[simp] theorem allFit_append {role : Role} {xs ys : List Node} :
    AllFit role (xs ++ ys) ↔ AllFit role xs ∧ AllFit role ys := List.forall_mem_append

theorem forall_slots_map {role : Role} {ns : List Node} :
    (∀ s ∈ ns.map (role, ·), Fits s.1 s.2) ↔ AllFit role ns := List.forall_mem_map

/-- A program in which every kind of node stands only where it belongs, and every node has
what it needs; so every operator is one of its expression's kind. -/
structure WellSorted (program : List Node) : Prop where
  expressions : ∀ n ∈ walk program, ∀ e, (Role.expression, e) ∈ n.slots → e.kind.isExpression
  inits : ∀ n ∈ walk program, ∀ c, (Role.init, c) ∈ n.slots →
    c.kind.isExpression ∨ c.kind = .declaration
  indexes : (∀ n ∈ program, n.kind ≠ .index) ∧ ∀ n ∈ walk program, ∀ role c,
    (role, c) ∈ n.slots → c.kind = .index → role = .step
  parameters : (∀ n ∈ program, n.kind ≠ .parameter) ∧ ∀ n ∈ walk program, ∀ role c,
    (role, c) ∈ n.slots → c.kind = .parameter → role = .parameter
  paths : ∀ steps, Node.path steps ∈ walk program → ∃ head rest, steps = head :: rest ∧
    head.kind.isExpression ∧ head.kind ≠ .path ∧
      ∀ step ∈ rest, step.kind = .reference ∨ step.kind = .index
  chains : ∀ choices, Node.ifStatement choices ∈ walk program → ∃ first rest,
    choices = first :: rest ∧ first.condition.isSome ∧
      ∀ choice ∈ choices.dropLast, choice.condition.isSome
  declarations : ∀ declarators, Node.declaration declarators ∈ walk program → declarators ≠ []
  complete : ∀ n ∈ walk program, n.Complete

theorem chainFault?_eq_none {choices : List Choice} :
    chainFault? choices = none ↔ (∃ first rest, choices = first :: rest ∧
      first.condition.isSome) ∧ ∀ choice ∈ choices.dropLast, choice.condition.isSome := by
  cases choices with
  | nil => simp [chainFault?]
  | cons first rest =>
    cases hfirst : first.condition with
    | none => simp [chainFault?,hfirst]
    | some c => simp [chainFault?,hfirst,Option.isSome_iff_ne_none]

theorem WellSorted.of_allFit {program : List Node} (h : AllFit .member program) :
    WellSorted program := by
  have hsorted : Everywhere Node.Sorted program := everywhere_iff.2 fun n hn => (h n hn).2
  have hslot : ∀ n ∈ walk program, ∀ role c, (role, c) ∈ n.slots → role.admits c.kind :=
    fun n hn role c hc => (hsorted n hn).1 (role,c) hc
  have htop : ∀ n ∈ program, n.kind ≠ .index ∧ n.kind ≠ .parameter := by
    intro n hn
    simpa [Role.admits] using (h n hn).1
  refine ⟨?_,?_,?_,?_,?_,?_,?_,?_⟩
  · intro n hn e he
    simpa [Role.admits] using hslot n hn _ e he
  · intro n hn c hc
    simpa [Role.admits] using hslot n hn _ c hc
  · refine ⟨fun n hn => (htop n hn).1,fun n hn role c hc hkind => ?_⟩
    exact Role.admits_index.1 (hkind ▸ hslot n hn role c hc)
  · refine ⟨fun n hn => (htop n hn).2,fun n hn role c hc hkind => ?_⟩
    exact Role.admits_parameter.1 (hkind ▸ hslot n hn role c hc)
  · intro steps hn
    cases steps with
    | nil => exact absurd rfl (hsorted _ hn).2
    | cons head rest =>
      have hhead : Role.head.admits head.kind := hslot _ hn _ head (by simp [Node.slots])
      have hrest : ∀ step ∈ rest, Role.step.admits step.kind := fun step hstep =>
        hslot _ hn _ step (by simp [Node.slots,hstep])
      simp only [Role.admits,Bool.and_eq_true,Bool.or_eq_true,bne_iff_ne,ne_eq,
        beq_iff_eq] at hhead hrest
      exact ⟨head,rest,rfl,hhead.1,hhead.2,hrest⟩
  · intro choices hn
    have hchain : chainFault? choices = none := (hsorted _ hn).2
    obtain ⟨⟨first,rest,hcons,hfirst⟩,hearly⟩ := chainFault?_eq_none.1 hchain
    exact ⟨first,rest,hcons,hfirst,hearly⟩
  · intro declarators hn
    exact (hsorted _ hn).2
  · intro n hn
    exact (hsorted n hn).2

end Program
end Scribe
