import Scribe.Proofs.Segments
import Scribe.Proofs.SortedPrinting

/-! Which programs cannot be printed. Whether a node has a fault can be seen from it and its place:
it is a label that lacks its value, or a conditional expression with a part for which no line is
printed. A program has a document exactly if no fault is among the nodes that are printed with it,
and otherwise the failure is that of the first fault in the order of printing. -/
namespace Scribe
namespace Printing
open Program

/-- The place of what stands inside a node. The members of a namespace and the statements of a
function have places of their own; a parameter is still outside of its function. -/
def Place.inside (place : Place) : Node → Role → Place
  | .namespaceBlock name _, _ => place.enter name
  | .functionDefinition _ _ _ _, .parameter => place
  | .functionDefinition _ _ _ _, _ => place.inFunction
  | _, _ => place

/-- What is printed with a node: all that is inside it, except the value of a default label. -/
def shown : Node → List (Role × Node)
  | .caseStatement true _ statements => statements.map (.member, ·)
  | n => n.slots

/-- Printing a node at a place comes to another one at its place. -/
inductive Shows : Place → Node → Place → Node → Prop
  | self (place : Place) (n : Node) : Shows place n place n
  | inside {place inner : Place} {n c m : Node} {role : Role} :
    (role, c) ∈ shown n → Shows (place.inside n role) c inner m → Shows place n inner m

/-- Nothing of the node goes to the segment that is being written. -/
def isLineless (place : Place) : Node → Bool
  | .namespaceBlock _ _ => true
  | .declaration declarators => declarators.isEmpty
  | .functionDefinition _ _ _ _ => place.scope != .function
  | _ => false

/-- A label that is not the default one and has no value. -/
def LacksTest (m : Node) : Prop := ∃ statements, m = .caseStatement false none statements

/-- A conditional expression one of whose parts is lineless. -/
def HasLinelessPart (place : Place) (m : Node) : Prop :=
  ∃ test success failure, m = .conditionalExpression test success failure ∧
    ∃ part ∈ [test,success,failure], isLineless place part

/-- What is wrong with a node at a place, apart from what is inside it. -/
def fault (place : Place) : Node → Option Failure
  | .caseStatement false none _ => some (.unsupported ⟨"NoneType","case_statement"⟩)
  | .conditionalExpression test success failure =>
    if [test,success,failure].any (isLineless place) then some .emptyPart else none
  | _ => none

theorem fault_eq_some_iff {place : Place} {m : Node} {e : Failure} :
    fault place m = some e ↔
      (LacksTest m ∧ e = .unsupported ⟨"NoneType","case_statement"⟩) ∨
        (HasLinelessPart place m ∧ e = .emptyPart) := by
  constructor
  · intro h
    unfold fault at h
    split at h
    · exact .inl ⟨⟨_,rfl⟩,(Option.some.inj h).symm⟩
    · obtain ⟨hpart,he⟩ := Option.ite_none_right_eq_some.1 h
      exact .inr ⟨⟨_,_,_,rfl,List.any_eq_true.1 hpart⟩,(Option.some.inj he).symm⟩
    · cases h
  · rintro (⟨⟨statements,rfl⟩,rfl⟩ | ⟨⟨test,success,failure,rfl,hpart⟩,rfl⟩)
    · rfl
    · rw [fault,if_pos (List.any_eq_true.2 hpart)]

theorem fault_isSome_iff {place : Place} {m : Node} :
    (fault place m).isSome ↔ LacksTest m ∨ HasLinelessPart place m := by
  simp only [Option.isSome_iff_exists,fault_eq_some_iff,exists_or,exists_and_left,exists_eq,
    and_true]

section Lines
variable {place : Place}

theorem Printed.lines_append_ne_nil {x y : Printed} (h : x.lines ≠ []) : (x.append y).lines ≠ [] := by
  cases hx : x.failure <;> simp [append,hx,h]

theorem lines_map_ne_nil {α : Type} {x : Draft α} {f : α → List String} (hf : ∀ a, f a ≠ [])
    (hok : (x.map f).printed.failure = none) : (x.map f).printed.lines ≠ [] :=
  HasLines.printed (.map hf) hok

theorem braced_ne_nil (head statements : List String) : braced head statements ≠ [] := by
  simp [braced]

theorem chainLines_ne_nil (arms : List (Option (List String) × List String)) :
    chainLines arms ≠ [] := by
  cases arms <;> simp [chainLines]

theorem declare_ne_nil (d : Declarator) (lines : List String) : declare d lines ≠ [] :=
  Text.wrap_ne_nil _ _ _

theorem lines_declaration_ne_nil (place : Place) (d : Declarator) (ds : List Declarator)
    (hok : failureAt place (.declaration (d :: ds)) = none) :
    (print place (.declaration (d :: ds))).lines ≠ [] := by
  rw [failureAt,print_declaration_cons,Printed.failure_append,Option.or_eq_none_iff] at hok
  rw [print_declaration_cons]
  exact Printed.lines_append_ne_nil (lines_map_ne_nil (declare_ne_nil d) hok.1)

theorem lines_eq_nil_iff {n : Node} (hok : failureAt place n = none) :
    (print place n).lines = [] ↔ isLineless place n := by
  have hexpression : n.kind.isExpression → isLineless place n = false →
      ((print place n).lines = [] ↔ isLineless place n) := by
    intro hkind hnone
    simp [hnone,lines_ne_nil hkind hok]
  have hlines : (print place n).lines ≠ [] → isLineless place n = false →
      ((print place n).lines = [] ↔ isLineless place n) := by
    intro hne hnone
    simp [hnone,hne]
  cases n with
  | namespaceBlock name body =>
    rw [print,Printed.lines_concat_inSegment]
    simp [isLineless]
  | declaration ds =>
    cases ds with
    | nil => simp [print,printDeclarators,Printed.concat,Printed.none,isLineless]
    | cons d ds => exact hlines (lines_declaration_ne_nil place d ds hok) rfl
  | functionDefinition name ps returnType body =>
    by_cases hscope : place.scope = .function
    · rw [failureAt,print_function_inside hscope] at hok
      have hne : (functionDraft place name ps returnType body).printed.lines ≠ [] :=
        HasLines.printed (.bind fun _ => .map fun _ => braced_ne_nil _ _) hok
      simp [print_function_inside hscope,hne,isLineless,hscope]
    · simp [print_function_outside hscope,Printed.inSegment,isLineless,hscope]
  | parameter p =>
    refine hlines ?_ rfl
    rcases p with ⟨name,typeName,_ | value,isConst,isRef⟩
    · simp [print,Printed.text]
    · rw [failureAt,print] at hok
      rw [print]
      exact lines_map_ne_nil (fun _ => by simp) hok
  | block statements | ifStatement choices | throwStatement value | index value =>
    refine hlines ?_ rfl
    rw [failureAt,print] at hok
    rw [print]
    exact lines_map_ne_nil (fun _ => by simp [chainLines_ne_nil,Text.wrap_ne_nil]) hok
  | forStatement init test update body =>
    refine hlines ?_ rfl
    rw [failureAt,print] at hok
    rw [print]
    exact HasLines.printed (.bind fun _ => .bind fun _ => .bind fun _ => .map fun _ =>
      braced_ne_nil _ _) hok
  | whileStatement condition statements | switchStatement condition statements =>
    refine hlines ?_ rfl
    rw [failureAt,print] at hok
    rw [print]
    exact HasLines.printed (.bind fun _ => .map fun _ => braced_ne_nil _ _) hok
  | doStatement statements condition =>
    refine hlines ?_ rfl
    rw [print]
    exact Printed.lines_append_ne_nil (by simp [Printed.text])
  | caseStatement isDefault test statements =>
    refine hlines ?_ rfl
    cases isDefault with
    | true =>
      rw [print]
      exact Printed.lines_append_ne_nil (by simp [Printed.text])
    | false =>
      cases test with
      | none => simp [failureAt,print] at hok
      | some test =>
        rw [failureAt,print,Printed.concat,Printed.failure_append,Option.or_eq_none_iff] at hok
        rw [print]
        exact Printed.lines_append_ne_nil (lines_map_ne_nil (fun _ => Text.wrap_ne_nil _ _ _) hok.1)
  | returnStatement value =>
    refine hlines ?_ rfl
    cases value with
    | none => simp [print,Printed.text]
    | some value =>
      rw [failureAt,print] at hok
      rw [print]
      exact lines_map_ne_nil (fun _ => Text.wrap_ne_nil _ _ _) hok
  | breakStatement | continueStatement => exact hlines (by simp [print,Printed.text]) rfl
  | _ => exact hexpression rfl rfl

end Lines

section Visits
variable {place : Place} {n : Node}

theorem mem_visits_iff (hn : n.Labelled) {v : Place × Node} :
    v ∈ visits place n ↔ ∃ role, (role,v.2) ∈ shown n ∧ place.inside n role = v.1 := by
  rcases v with ⟨q,m⟩
  have hplain : visits place n = n.children.map (place, ·) → shown n = n.slots →
      (∀ role, place.inside n role = place) →
      ((q,m) ∈ visits place n ↔ ∃ role, (role,m) ∈ shown n ∧ place.inside n role = q) := by
    intro hvisits hshown hinside
    simp [hvisits,hshown,hinside,Node.mem_children]
  cases n with
  | namespaceBlock name body => simp [visits,shown,Node.slots,Place.inside]
  | functionDefinition name ps returnType body =>
    simp only [visits,shown,Node.slots,List.mem_append,List.mem_map,Prod.mk.injEq]
    constructor
    · rintro (⟨_,⟨p,hp,rfl⟩,rfl,rfl⟩ | ⟨s,hs,rfl,rfl⟩)
      · exact ⟨.parameter,.inl ⟨p,hp,rfl,rfl⟩,rfl⟩
      · exact ⟨.member,.inr ⟨s,hs,rfl,rfl⟩,rfl⟩
    · rintro ⟨role,⟨p,hp,rfl,rfl⟩ | ⟨s,hs,rfl,rfl⟩,rfl⟩
      · exact .inl ⟨_,⟨p,hp,rfl⟩,rfl,rfl⟩
      · exact .inr ⟨s,hs,rfl,rfl⟩
  | ifStatement choices =>
    -- Arms are visited before their conditions, so the two lists differ in order.
    have hmem : ∀ c, c ∈ (choices.flatMap fun c => c.statements ++ c.condition.toList) ↔
        c ∈ (Node.ifStatement choices).children := by
      intro c
      simp only [Node.children_ifStatement,List.mem_flatMap,List.mem_append,or_comm]
    simp only [visits,List.mem_map,hmem,Prod.mk.injEq,Node.mem_children]
    simp [shown,Place.inside,and_comm]
  | caseStatement isDefault test statements =>
    cases isDefault with
    | true => simp [visits,shown,Place.inside]
    | false =>
      cases test with
      | none => exact absurd hn not_false
      | some test => exact hplain rfl rfl fun _ => rfl
  | _ => exact hplain rfl rfl fun _ => rfl

theorem lacksTest_of_not_labelled (hn : ¬n.Labelled) : LacksTest n := by
  by_contra hlacks
  exact hn (Node.labelled_iff.2 fun statements heq => hlacks ⟨statements,heq⟩)

theorem ownFailure_eq_fault (hok : ∀ v ∈ visits place n, failureAt v.1 v.2 = none) :
    ownFailure place n = fault place n := by
  cases n with
  | conditionalExpression test success failure =>
    -- Parts that can be printed have no lines exactly if they are lineless.
    have hpart : ∀ part ∈ [test,success,failure],
        (print place part).lines.isEmpty = isLineless place part := by
      intro part hpart
      have hlines := lines_eq_nil_iff (hok (place,part) (List.mem_map_of_mem hpart))
      rw [Bool.eq_iff_iff,List.isEmpty_iff,hlines]
    simp only [List.forall_mem_cons] at hpart
    obtain ⟨htest,hsuccess,hfailure,-⟩ := hpart
    simp [ownFailure,fault,htest,hsuccess,hfailure,Bool.or_assoc]
  | caseStatement isDefault test statements => cases isDefault <;> cases test <;> rfl
  | _ => rfl

end Visits

/-- The nodes that printing a node comes to, each behind all that is visited for it. -/
def printOrder (place : Place) (n : Node) : List (Place × Node) :=
  (visits place n).attach.flatMap (fun v => printOrder v.1.1 v.1.2) ++ [(place,n)]
termination_by n.size
decreasing_by
  have hsize := size_le_of_mem (mem_children_of_visits v.2)
  have hinside := sizeAll_children_lt n
  omega

theorem printOrder_eq (place : Place) (n : Node) :
    printOrder place n =
      (visits place n).flatMap (fun v => printOrder v.1 v.2) ++ [(place,n)] := by
  rw [printOrder,List.flatMap_def,List.flatMap_def,
    List.attach_map_val (f := fun v : Place × Node => printOrder v.1 v.2)]

/-- The first fault in the order of printing a program. -/
def firstFault? (program : List Node) : Option Failure :=
  (program.flatMap (printOrder .top)).findSome? fun v => fault v.1 v.2

theorem findSome?_flatMap {α β γ : Type} {xs : List α} {f : α → List β} {g : α → Option γ}
    {h : β → Option γ} (hfg : ∀ x ∈ xs, g x = (f x).findSome? h) :
    xs.findSome? g = (xs.flatMap f).findSome? h := by
  induction xs with
  | nil => rfl
  | cons x xs ih =>
    obtain ⟨hx,hxs⟩ := List.forall_mem_cons.1 hfg
    rw [findSome?_cons_eq_or,List.flatMap_cons,List.findSome?_append,hx,ih hxs]

/-- Printing a node fails as the first fault that it comes to. -/
theorem failureAt_eq_fault (n : Node) : ∀ place,
    failureAt place n = (printOrder place n).findSome? fun v => fault v.1 v.2 := by
  induction n using Node.induct_children with
  | step n ih =>
    intro place
    have hvisits : (visits place n).findSome? (fun v => failureAt v.1 v.2) =
        ((visits place n).flatMap fun v => printOrder v.1 v.2).findSome? fun v => fault v.1 v.2 :=
      findSome?_flatMap fun v hv => ih v.2 (mem_children_of_visits hv) v.1
    rw [failureAt_eq,printOrder_eq,List.findSome?_append,← hvisits]
    cases hfirst : (visits place n).findSome? fun v => failureAt v.1 v.2 with
    | some e => rfl
    | none =>
      rw [ownFailure_eq_fault (List.findSome?_eq_none_iff.1 hfirst)]
      simp

section Order
variable {place inner : Place} {n m : Node}

theorem shows_of_mem_printOrder (h : (inner,m) ∈ printOrder place n) : Shows place n inner m := by
  induction n using Node.induct_children generalizing place with
  | step n ih =>
    rw [printOrder_eq] at h
    rcases List.mem_append.1 h with hvisited | hself
    · obtain ⟨v,hv,hm⟩ := List.mem_flatMap.1 hvisited
      have hlabelled : n.Labelled := by
        by_contra hn
        obtain ⟨statements,rfl⟩ := lacksTest_of_not_labelled hn
        simp [visits] at hv
      obtain ⟨role,hshown,hplace⟩ := (mem_visits_iff hlabelled).1 hv
      refine .inside hshown ?_
      rw [hplace]
      exact ih v.2 (mem_children_of_visits hv) hm
    · obtain ⟨rfl,rfl⟩ := Prod.mk.inj (List.mem_singleton.1 hself)
      exact .self _ _

/-- Printing comes to all that is shown, unless it has come to a fault before. -/
theorem mem_printOrder_of_shows (h : Shows place n inner m) :
    (inner,m) ∈ printOrder place n ∨ ∃ v ∈ printOrder place n, (fault v.1 v.2).isSome := by
  induction h with
  | self place n =>
    rw [printOrder_eq]
    exact .inl (List.mem_append_right _ (.head _))
  | @inside place inner n c m role hslot _ ih =>
    by_cases hn : n.Labelled
    · have hvisit : (place.inside n role,c) ∈ visits place n :=
        (mem_visits_iff hn).2 ⟨role,hslot,rfl⟩
      have hsub : ∀ v ∈ printOrder (place.inside n role) c, v ∈ printOrder place n := by
        intro v hv
        rw [printOrder_eq place n]
        exact List.mem_append_left _ (List.mem_flatMap.2 ⟨_,hvisit,hv⟩)
      exact ih.imp (hsub _) fun ⟨v,hv,hfault⟩ => ⟨v,hsub v hv,hfault⟩
    · refine .inr ⟨(place,n),?_,fault_isSome_iff.2 (.inl (lacksTest_of_not_labelled hn))⟩
      rw [printOrder_eq]
      exact List.mem_append_right _ (.head _)

end Order

theorem document_eq_error_iff {program : List Node} {e : Failure} :
    document program = .error e ↔ firstFault? program = some e := by
  have hfailure : (printProgram program).failure = firstFault? program := by
    rw [failure_printProgram]
    exact findSome?_flatMap fun n _ => failureAt_eq_fault n .top
  rw [document,hfailure]
  cases firstFault? program <;> simp

/-- A program cannot be printed if and only if printing it comes to a label that lacks its value or
to a conditional expression with a lineless part, and it fails as the first of them. -/
theorem document_failure (program : List Node) :
    ((∃ e, document program = .error e) ↔
      ∃ root ∈ program, ∃ place m, Shows .top root place m ∧
        (LacksTest m ∨ HasLinelessPart place m)) ∧
    ∀ e, document program = .error e ↔ ∃ before place m after,
      program.flatMap (printOrder .top) = before ++ (place,m) :: after ∧
        (∀ v ∈ before, ¬(LacksTest v.2 ∨ HasLinelessPart v.1 v.2)) ∧
        ((LacksTest m ∧ e = .unsupported ⟨"NoneType","case_statement"⟩) ∨
          (HasLinelessPart place m ∧ e = .emptyPart)) := by
  constructor
  · simp only [document_eq_error_iff,firstFault?,← Option.isSome_iff_exists,
      List.findSome?_isSome_iff]
    constructor
    · rintro ⟨⟨place,m⟩,hv,hfault⟩
      obtain ⟨root,hroot,hm⟩ := List.mem_flatMap.1 hv
      exact ⟨root,hroot,place,m,shows_of_mem_printOrder hm,fault_isSome_iff.1 hfault⟩
    · rintro ⟨root,hroot,place,m,hshows,hm⟩
      rcases mem_printOrder_of_shows hshows with hmem | ⟨v,hv,hfault⟩
      · exact ⟨(place,m),List.mem_flatMap.2 ⟨root,hroot,hmem⟩,fault_isSome_iff.2 hm⟩
      · exact ⟨v,List.mem_flatMap.2 ⟨root,hroot,hv⟩,hfault⟩
  · intro e
    rw [document_eq_error_iff,firstFault?,List.findSome?_eq_some_iff]
    constructor
    · rintro ⟨before,⟨place,m⟩,after,horder,hfault,hbefore⟩
      refine ⟨before,place,m,after,horder,fun v hv hbad => ?_,fault_eq_some_iff.1 hfault⟩
      simpa [hbefore v hv] using fault_isSome_iff.2 hbad
    · rintro ⟨before,place,m,after,horder,hbefore,hfault⟩
      refine ⟨before,(place,m),after,horder,fault_eq_some_iff.2 hfault,fun v hv => ?_⟩
      simpa using mt fault_isSome_iff.1 (hbefore v hv)

end Printing
end Scribe
