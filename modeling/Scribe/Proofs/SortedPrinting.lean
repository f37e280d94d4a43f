import Scribe.Proofs.PrintingFailure
import Scribe.Proofs.WellSorted

/-! Printing what has been read. An expression always has lines, so the only thing that can
go wrong is a label that is neither the default one nor has a value to test for. -/
namespace Scribe
namespace Text

theorem closeWith_ne_nil (suffix line : String) (lines : List String) :
    closeWith suffix (line :: lines) ≠ [] := by
  cases lines <;> simp [closeWith]

theorem wrap_ne_nil (opening : String) (lines : List String) (suffix : String) :
    wrap opening lines suffix ≠ [] := by
  cases lines with
  | nil => simp [wrap]
  | cons first rest => exact closeWith_ne_nil suffix (opening ++ first) rest

end Text

namespace Printing
open Program

/-- Lines, if any come of it, are not none. -/
def HasLines (x : Draft (List String)) : Prop := ∀ lines, x.result = .ok lines → lines ≠ []

theorem HasLines.map {α : Type} {x : Draft α} {f : α → List String} (h : ∀ a, f a ≠ []) :
    HasLines (x.map f) :=
  Recorded.results_map h

theorem HasLines.bind {α : Type} {x : Draft α} {f : α → Draft (List String)}
    (h : ∀ a, HasLines (f a)) : HasLines (x.bind f) :=
  Recorded.results_bind h

theorem HasLines.printed {x : Draft (List String)} (h : HasLines x)
    (hok : x.printed.failure = none) : x.printed.lines ≠ [] := by
  cases hx : x.result with
  | ok lines => simpa [Recorded.printed,hx] using h lines hx
  | error e => simp [Recorded.failure?,hx] at hok

theorem conditionalLines_ne_nil {test success failure lines : List String}
    (h : conditionalLines test success failure = some lines) : lines ≠ [] := by
  unfold conditionalLines at h
  split at h
  · obtain rfl := Option.some.inj h
    simp
  · simp at h

theorem callLines_ne_nil (callee : String) (arguments : List (List String)) :
    callLines callee arguments ≠ [] := by
  unfold callLines
  split <;> simp

theorem lines_ne_nil {n : Node} (hn : n.kind.isExpression) {place : Place}
    (hok : failureAt place n = none) : (print place n).lines ≠ [] := by
  unfold failureAt at hok
  cases n with
  | binaryExpression operator left right =>
    cases right with
    | none =>
      rw [print] at hok ⊢
      exact HasLines.printed (.map fun _ => by simp) hok
    | some right =>
      rw [print] at hok ⊢
      exact HasLines.printed (.bind fun _ => .map fun _ => by simp) hok
  | unaryExpression operator value =>
    rw [print] at hok ⊢
    exact HasLines.printed (.map fun _ => by simp) hok
  | updateExpression operator value isPostfix =>
    rw [print] at hok ⊢
    exact HasLines.printed (.map fun _ => by simp) hok
  | conditionalExpression test success failure =>
    rw [print] at hok ⊢
    refine HasLines.printed (.bind fun t => .bind fun s => .bind fun f => ?_) hok
    intro lines hlines
    split at hlines
    · rename_i found hfound
      obtain rfl : found = lines := by simpa using hlines
      exact conditionalLines_ne_nil hfound
    · simp at hlines
  | assignmentExpression left operator right =>
    rw [print] at hok ⊢
    exact HasLines.printed (.bind fun _ => .map fun _ => Text.wrap_ne_nil _ _ _) hok
  | callExpression callee arguments =>
    rw [print] at hok ⊢
    exact HasLines.printed (.bind fun _ => .map fun _ => callLines_ne_nil _ _) hok
  | parenthesizedExpression value =>
    rw [print] at hok ⊢
    exact HasLines.printed (.map fun _ => by simp) hok
  | path steps =>
    rw [print] at hok ⊢
    exact HasLines.printed (.map fun _ => by simp) hok
  | reference name => simp [print,Printed.text]
  | numberLiteral value => simp [print,Printed.text]
  | booleanLiteral value => simp [print,Printed.text]
  | nullLiteral => simp [print,Printed.text]
  | stringLiteral value => simp [print,Printed.text]
  | userDefinedLiteral text => simp [print,Printed.text]
  | _ => simp [Node.kind,Kind.isExpression] at hn

end Printing

namespace Program

/-- Anything but a label that is neither the default one nor has a value. -/
def Node.Labelled : Node → Prop
  | caseStatement false none _ => False
  | _ => True

theorem Node.labelled_iff {n : Node} :
    n.Labelled ↔ ∀ statements, n ≠ caseStatement false none statements := by
  unfold Labelled
  split
  · simp
  · rename_i hne
    simpa using hne

/-- The roles of expressions and of the steps of a path. -/
def Role.isValue : Role → Bool
  | .expression | .head | .step => true
  | _ => false

theorem isValue_of_slot {role : Role} (hrole : role.isValue) {n : Node}
    (hn : role.admits n.kind) : ∀ s ∈ n.slots, s.1.isValue := by
  have hkind : n.kind.isExpression ∨ n.kind = .index := by
    cases role <;> simp_all [Role.admits,Role.isValue]
    rcases hn with h | h <;> simp [h,Kind.isExpression]
  cases n with
  | path steps => cases steps <;> simp [Node.slots,Role.isValue]
  | _ => simp_all [Node.kind,Node.slots,Kind.isExpression,Role.isValue]

theorem Fits.labelled {n : Node} : ∀ {role : Role}, role.isValue → Fits role n →
    Everywhere Node.Labelled [n] := by
  induction n using Node.induct_children with
  | step n ih =>
    intro role hrole h
    obtain ⟨hadmits,-,hslots⟩ := fits_iff.1 h
    rw [everywhere_singleton]
    constructor
    · apply Node.labelled_iff.2
      rintro statements rfl
      cases role <;> simp_all [Role.admits,Role.isValue,Node.kind,Kind.isExpression]
    · rw [everywhere_iff]
      intro c hc
      obtain ⟨inner,hinner⟩ := Node.mem_children.1 hc
      exact ih c hc (isValue_of_slot hrole hadmits _ hinner) (hslots _ hinner)

end Program

namespace Printing
open Program

theorem mem_children_of_visits {place : Place} {n : Node} {v : Place × Node}
    (h : v ∈ visits place n) : v.2 ∈ n.children := by
  cases n with
  | namespaceBlock name body =>
    obtain ⟨c,hc,rfl⟩ := List.mem_map.1 h
    simpa [Node.children,Node.slots] using hc
  | functionDefinition name parameters returnType body =>
    rcases List.mem_append.1 h with h | h
    · obtain ⟨c,hc,rfl⟩ := List.mem_map.1 h
      simpa [Node.children,Node.slots] using Or.inl (List.mem_map.1 hc)
    · obtain ⟨c,hc,rfl⟩ := List.mem_map.1 h
      simpa [Node.children,Node.slots] using Or.inr hc
  | ifStatement choices =>
    obtain ⟨c,hc,rfl⟩ := List.mem_map.1 h
    obtain ⟨choice,hchoice,hc⟩ := List.mem_flatMap.1 hc
    have hslot : c ∈ choice.condition.toList ++ choice.statements :=
      List.mem_append.2 (List.mem_append.1 hc).symm
    rw [Node.children_ifStatement]
    exact List.mem_flatMap.2 ⟨choice,hchoice,hslot⟩
  | caseStatement isDefault test statements =>
    cases isDefault with
    | true =>
      obtain ⟨c,hc,rfl⟩ := List.mem_map.1 h
      simpa [Node.children,Node.slots] using Or.inr hc
    | false =>
      cases test with
      | none => simp [visits] at h
      | some test =>
        obtain ⟨c,hc,rfl⟩ := List.mem_map.1 h
        exact hc
  | _ =>
    obtain ⟨c,hc,rfl⟩ := List.mem_map.1 h
    exact hc

theorem mem_visits_of_slot (place : Place) {n : Node} (hn : n.Labelled) {role : Role} {c : Node}
    (h : (role,c) ∈ n.slots) (hrole : role ≠ .expression) :
    ∃ inner, (inner,c) ∈ visits place n := by
  have hc : c ∈ n.children := Node.mem_children.2 ⟨role,h⟩
  cases n with
  | namespaceBlock name body =>
    have hbody : c ∈ body := by simpa [Node.children,Node.slots] using hc
    exact ⟨place.enter name,List.mem_map.2 ⟨c,hbody,rfl⟩⟩
  | functionDefinition name parameters returnType body =>
    simp only [Node.slots,List.mem_append,List.mem_map,Prod.mk.injEq] at h
    rcases h with ⟨p,hp,-,rfl⟩ | ⟨_,hbody,-,rfl⟩
    · exact ⟨place,by simp [visits,hp]⟩
    · exact ⟨place.inFunction,by simp [visits,hbody]⟩
  | ifStatement choices =>
    simp only [Node.slots,List.mem_flatMap,List.mem_append,List.mem_map,Prod.mk.injEq] at h
    obtain ⟨choice,hchoice,⟨_,-,rfl,-⟩ | ⟨_,hstatement,-,rfl⟩⟩ := h
    · exact absurd rfl hrole
    · refine ⟨place,List.mem_map.2 ⟨_,?_,rfl⟩⟩
      exact List.mem_flatMap.2 ⟨choice,hchoice,List.mem_append_left _ hstatement⟩
  | caseStatement isDefault test statements =>
    simp only [Node.slots,List.mem_append,List.mem_map,Prod.mk.injEq] at h
    rcases h with ⟨_,-,rfl,-⟩ | ⟨_,hstatement,-,rfl⟩
    · exact absurd rfl hrole
    · refine ⟨place,?_⟩
      cases isDefault <;> cases test <;>
        simp_all [visits,Node.children,Node.slots,Node.Labelled]
  | _ => exact ⟨place,List.mem_map.2 ⟨c,hc,rfl⟩⟩

theorem ownFailure_eq_none {place : Place} {n : Node} (hsorted : n.Sorted) (hn : n.Labelled)
    (hok : ∀ v ∈ visits place n, failureAt v.1 v.2 = none) : ownFailure place n = none := by
  cases n with
  | conditionalExpression test success failure =>
    -- Its parts are expressions, and those have lines.
    have hlines : ∀ part ∈ [test,success,failure], (print place part).lines ≠ [] := by
      intro part hpart
      have hkind : Role.expression.admits part.kind :=
        hsorted.1 (.expression,part) (by simpa [Node.slots] using hpart)
      exact lines_ne_nil hkind (hok (place,part) (List.mem_map.2 ⟨part,hpart,rfl⟩))
    simp_all [ownFailure]
  | caseStatement isDefault test statements =>
    cases isDefault <;> cases test <;> simp_all [ownFailure,Node.Labelled]
  | _ => rfl

theorem ownFailure_of_not_labelled {place : Place} {n : Node} (hn : ¬n.Labelled) :
    ownFailure place n = some .missingTest := by
  unfold Node.Labelled at hn
  split at hn
  · rfl
  · exact absurd trivial hn

/-- Printing a sorted node succeeds if all labels in it are, and fails for want of a test
otherwise. -/
theorem failureAt_of_sorted (n : Node) : ∀ place, Everywhere Node.Sorted [n] →
    (failureAt place n = none ∧ Everywhere Node.Labelled [n]) ∨
      (failureAt place n = some .missingTest ∧ ¬Everywhere Node.Labelled [n]) := by
  induction n using Node.induct_children with
  | step n ih =>
    intro place hsorted
    obtain ⟨hself,hinside⟩ := everywhere_singleton.1 hsorted
    have hvisit : ∀ v ∈ visits place n,
        (failureAt v.1 v.2 = none ∧ Everywhere Node.Labelled [v.2]) ∨
          (failureAt v.1 v.2 = some .missingTest ∧ ¬Everywhere Node.Labelled [v.2]) := by
      intro v hv
      have hchild := mem_children_of_visits hv
      exact ih v.2 hchild v.1 (everywhere_iff.1 hinside v.2 hchild)
    rw [failureAt_eq,everywhere_singleton]
    cases hfirst : (visits place n).findSome? fun v => failureAt v.1 v.2 with
    | some e =>
      -- The first visit to fail is to a node with a label that lacks its test.
      obtain ⟨v,hv,he⟩ := List.exists_of_findSome?_eq_some hfirst
      rcases hvisit v hv with ⟨hnone,-⟩ | ⟨hsome,hbare⟩
      · simp [hnone] at he
      · obtain rfl : e = .missingTest := by simpa [hsome] using he.symm
        refine .inr ⟨rfl,fun hall => hbare ?_⟩
        exact everywhere_iff.1 hall.2 v.2 (mem_children_of_visits hv)
    | none =>
      have hok := List.findSome?_eq_none_iff.1 hfirst
      by_cases hn : n.Labelled
      · rw [ownFailure_eq_none hself hn hok]
        refine .inl ⟨rfl,hn,everywhere_iff.2 fun c hc => ?_⟩
        obtain ⟨role,hslot⟩ := Node.mem_children.1 hc
        by_cases hrole : role = .expression
        · subst hrole
          exact Fits.labelled rfl ((everywhere_sorted_iff.1 hsorted).2 _ hslot)
        · obtain ⟨inner,hinner⟩ := mem_visits_of_slot place hn hslot hrole
          rcases hvisit _ hinner with ⟨-,hall⟩ | ⟨hsome,-⟩
          · exact hall
          · simp [hok _ hinner] at hsome
      · rw [ownFailure_of_not_labelled hn]
        exact .inr ⟨rfl,fun hall => hn hall.1⟩

theorem failure_printProgram (program : List Node) :
    (printProgram program).failure = program.findSome? (failureAt .top) := by
  rw [printProgram,Printed.failure_concat,printAll_eq_map,List.map_map,List.findSome?_map]
  rfl

theorem document_of_sorted {program : List Node} (h : Everywhere Node.Sorted program) :
    ((∃ d, document program = .ok d) ∧ Everywhere Node.Labelled program) ∨
      (document program = .error .missingTest ∧ ¬Everywhere Node.Labelled program) := by
  have hnode := fun n hn => failureAt_of_sorted n .top (everywhere_iff.1 h n hn)
  have hfailure := failure_printProgram program
  rw [document]
  cases hfirst : program.findSome? (failureAt .top) with
  | none =>
    rw [hfailure,hfirst]
    refine .inl ⟨⟨_,rfl⟩,everywhere_iff.2 fun n hn => ?_⟩
    rcases hnode n hn with ⟨-,hall⟩ | ⟨hsome,-⟩
    · exact hall
    · simp [List.findSome?_eq_none_iff.1 hfirst n hn] at hsome
  | some e =>
    rw [hfailure,hfirst]
    obtain ⟨n,hn,he⟩ := List.exists_of_findSome?_eq_some hfirst
    rcases hnode n hn with ⟨hnone,-⟩ | ⟨hsome,hbare⟩
    · simp [hnone] at he
    · obtain rfl : e = .missingTest := by simpa [hsome] using he.symm
      exact .inr ⟨rfl,fun hall => hbare (everywhere_iff.1 hall n hn)⟩

open Reading

/-- What has been read from a file can be printed unless it has a label that is neither the
default one nor has a test, and no other failure is possible. -/
theorem document_of_readFile {root : ParseTree} {program : List Node}
    (h : (readFile root).result = .ok program) :
    ((∃ d, document program = .ok d) ↔
      ∀ statements, Node.caseStatement false none statements ∉ walk program) ∧
    (∀ e, document program = .error e → e = .unsupported ⟨"NoneType","case_statement"⟩) ∧
    document program ≠ .error .emptyPart := by
  have hsorted : Everywhere Node.Sorted program :=
    everywhere_iff.2 fun n hn => (readFile_allFit h n hn).2
  have hlabelled : Everywhere Node.Labelled program ↔
      ∀ statements, Node.caseStatement false none statements ∉ walk program := by
    constructor
    · intro hall statements hmem
      exact hall _ hmem
    · intro hnone n hn
      exact Node.labelled_iff.2 fun statements heq => hnone statements (heq ▸ hn)
  rw [← hlabelled]
  rcases document_of_sorted hsorted with ⟨⟨d,hd⟩,hall⟩ | ⟨herror,hbare⟩
  · simp [hd,hall]
  · simp [herror,hbare,Failure.missingTest]

/-- A `switch` over `x` with a default label that returns, and a label without a value. -/
def bareLabelFile : ParseTree :=
  .node "translation_unit" "" [.node "switch_statement" "" [.node "switch" "switch" [],
    .node "condition_clause" "" [.node "identifier" "x" []],
    .node "compound_statement" "" [
      .node "case_statement" "" [.node "default" "default" [],.node ":" ":" [],
        .node "return_statement" "" []],
      .node "case_statement" "" [.node "case" "case" [],.node ":" ":" []]]]]

def bareLabelProgram : List Node :=
  [.switchStatement (.reference "x")
    [.caseStatement true none [.returnStatement none],.caseStatement false none []]]

theorem document_bareLabelProgram :
    (readFile bareLabelFile).result = .ok bareLabelProgram ∧
      document bareLabelProgram = .error (.unsupported ⟨"NoneType","case_statement"⟩) := by
  have h : (readFile bareLabelFile).result = .ok bareLabelProgram := rfl
  have hbare : Node.caseStatement false none [] ∈ walk bareLabelProgram := by
    simp [bareLabelProgram,walk_cons,Node.children,Node.slots]
  obtain ⟨hiff,herror,-⟩ := document_of_readFile h
  refine ⟨h,?_⟩
  cases hd : document bareLabelProgram with
  | ok d => exact absurd hbare (hiff.1 ⟨d,hd⟩ [])
  | error e => rw [herror e hd]

end Printing
end Scribe
