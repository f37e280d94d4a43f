import Scribe.Printing.Document
import Scribe.Proofs.Recorded
import Scribe.Proofs.Sorts

/-! When printing fails. Printing a node prints some of the nodes inside it, in an order of its
own; it fails as the first of them does, or for a reason of its own. -/
namespace Scribe

namespace Printing
open Program

namespace Printed

@[simp] theorem failure_text (lines : List String) : (text lines).failure = .none := rfl

@[simp] theorem failure_inSegment (x : Printed) : x.inSegment.failure = x.failure := rfl

@[simp] theorem failure?_draft (x : Printed) : x.draft.failure? = x.failure := by
  cases h : x.failure <;> simp [draft,h,Recorded.failure?]

theorem failure_append (x y : Printed) : (x.append y).failure = x.failure.or y.failure := by
  cases h : x.failure <;> simp [append,h]

theorem failure_concat (xs : List Printed) :
    (concat xs).failure = xs.findSome? (·.failure) := by
  induction xs with
  | nil => rfl
  | cons x xs ih => rw [concat,failure_append,ih,findSome?_cons_eq_or]

end Printed

@[simp] theorem failure_printed (x : Draft (List String)) : x.printed.failure = x.failure? := by
  cases h : x.result <;> simp [Recorded.printed,Recorded.failure?,h]

/-- The failure of printing a node at a place. -/
def failureAt (place : Place) (n : Node) : Option Failure := (print place n).failure

theorem printAll_eq_map (place : Place) (ns : List Node) :
    printAll place ns = ns.map (print place) := by
  induction ns with
  | nil => rfl
  | cons n ns ih => rw [printAll,ih,List.map_cons]

theorem findSome?_printAll (place : Place) (ns : List Node) :
    (printAll place ns).findSome? (·.failure) = ns.findSome? (failureAt place) := by
  rw [printAll_eq_map,List.findSome?_map]
  rfl

theorem failure_printAll (place : Place) (ns : List Node) :
    (Printed.concat (printAll place ns)).failure = ns.findSome? (failureAt place) := by
  rw [Printed.failure_concat,findSome?_printAll]

theorem failure_printOption (place : Place) (o : Option Node) :
    (Recorded.option (printOption place o)).failure? = o.toList.findSome? (failureAt place) := by
  cases o with
  | none => rfl
  | some n => simp [printOption,Recorded.option,failureAt]

/-- A variable with its initial value, without keyword. -/
def declaratorDraft (place : Place) : Declarator → Draft (List String)
  | ⟨name,typeName,none,_⟩ => .ok [TypeName.annotate (place.declare name) typeName]
  | ⟨name,typeName,some init,_⟩ => (print place init).draft.map fun lines =>
    Text.wrap (TypeName.annotate (place.declare name) typeName ++ " = ") lines ""

theorem printDeclarators_cons (place : Place) (d : Declarator) (ds : List Declarator) :
    printDeclarators place (d :: ds) = declaratorDraft place d :: printDeclarators place ds := by
  rcases d with ⟨name,typeName,init,isConst⟩
  cases init <;> rw [printDeclarators,declaratorDraft]

theorem print_declaration_cons (place : Place) (d : Declarator) (ds : List Declarator) :
    print place (.declaration (d :: ds)) =
      ((declaratorDraft place d).map (declare d)).printed.append (print place (.declaration ds)) := by
  rw [print,printDeclarators_cons,List.zipWith_cons_cons,Printed.concat,print]

theorem failure_printDeclarators (place : Place) (ds : List Declarator) :
    (printDeclarators place ds).findSome? Recorded.failure? =
      (ds.flatMap (·.init.toList)).findSome? (failureAt place) := by
  induction ds with
  | nil => rfl
  | cons d ds ih =>
    rcases d with ⟨name,typeName,init,isConst⟩
    cases init <;> simp [printDeclarators,findSome?_cons_eq_or,ih,failureAt]

theorem failure_declaration (place : Place) (ds : List Declarator) :
    (print place (.declaration ds)).failure =
      (ds.flatMap (·.init.toList)).findSome? (failureAt place) := by
  rw [← failure_printDeclarators,print,Printed.failure_concat]
  induction ds with
  | nil => rfl
  | cons d ds ih =>
    rcases d with ⟨name,typeName,init,isConst⟩
    cases init <;> simp [printDeclarators,findSome?_cons_eq_or,ih]

example : (print .top (.declaration [⟨"x",none,some (.caseStatement false none []),false⟩])).failure =
    some .missingTest := by
  cbv

theorem failure_parameter (place : Place) (p : Parameter) :
    (print place (.parameter p)).failure = p.defaultValue.toList.findSome? (failureAt place) := by
  rcases p with ⟨name,typeName,value,isConst,isRef⟩
  cases value <;> simp [print,failureAt]

theorem failure_printParameters (place : Place) (ps : List Parameter) :
    (printParameters place ps).findSome? Recorded.failure? =
      (ps.map .parameter).findSome? (failureAt place) := by
  induction ps with
  | nil => rfl
  | cons p ps ih =>
    rcases p with ⟨name,typeName,value,isConst,isRef⟩
    cases value <;>
      simp [printParameters,findSome?_cons_eq_or,ih,failureAt,failure_parameter]

theorem failure_printChoices (place : Place) (cs : List Choice) :
    (printChoices place cs).findSome? Recorded.failure? =
      (cs.flatMap fun c => c.statements ++ c.condition.toList).findSome? (failureAt place) := by
  induction cs with
  | nil => rfl
  | cons c cs ih =>
    rcases c with ⟨condition,statements⟩
    have harm : ((Printed.concat (printAll place statements)).draft.bind fun statements =>
        (Recorded.option (printOption place condition)).map fun condition =>
          (condition,statements)).failure? =
        (statements ++ condition.toList).findSome? (failureAt place) := by
      rw [Recorded.failure?_bind _ _ fun a _ => by rw [Recorded.failure?_map,failure_printOption],
        Printed.failure?_draft,failure_printAll,List.findSome?_append]
    rw [printChoices,findSome?_cons_eq_or,harm,ih,List.flatMap_cons,List.findSome?_append]
    simp only [List.findSome?_append]

theorem failure_printInits (place : Place) (ns : List Node) :
    (printInits place ns).findSome? Recorded.failure? = ns.findSome? (failureAt place) := by
  induction ns with
  | nil => rfl
  | cons n ns ih =>
    cases n with
    | declaration ds =>
      simp [printInits,findSome?_cons_eq_or,ih,failureAt,failure_declaration,
        Recorded.failure?_all,failure_printDeclarators]
    | _ => simp [printInits,findSome?_cons_eq_or,ih,failureAt]

theorem failure_stepText (place : Place) (isFirst : Bool) (n : Node) :
    (stepText isFirst n (print place n)).failure? = failureAt place n := by
  cases n <;> simp [stepText,failureAt,print]

theorem failure_pathTexts (place : Place) (steps : List Node) :
    (pathTexts (steps.zip (printAll place steps))).findSome? Recorded.failure? =
      steps.findSome? (failureAt place) := by
  have hlater : ∀ steps : List Node,
      ((steps.zip (steps.map (print place))).map fun s => stepText false s.1 s.2).findSome?
        Recorded.failure? = steps.findSome? (failureAt place) := by
    intro steps
    induction steps with
    | nil => rfl
    | cons n ns ih => simp [findSome?_cons_eq_or,ih,failure_stepText]
  rw [printAll_eq_map]
  cases steps with
  | nil => rfl
  | cons n ns => simp [pathTexts,findSome?_cons_eq_or,hlater,failure_stepText]

/-- The nodes inside a node that are printed with it, in the order in which they are, each
with its place. The value of a default label is not, and an arm comes before its condition. -/
def visits (place : Place) : Node → List (Place × Node)
  | .namespaceBlock name body => body.map (place.enter name, ·)
  | .functionDefinition _ parameters _ body =>
    (parameters.map .parameter).map (place, ·) ++ body.map (place.inFunction, ·)
  | .ifStatement choices =>
    (choices.flatMap fun c => c.statements ++ c.condition.toList).map (place, ·)
  | .caseStatement true _ statements => statements.map (place, ·)
  | .caseStatement false none _ => []
  | n => n.children.map (place, ·)

/-- The reason that a node itself gives for a failure, once all inside it has been printed. -/
def ownFailure (place : Place) : Node → Option Failure
  | .caseStatement false none _ => some .missingTest
  | .conditionalExpression test success failure =>
    if (print place test).lines.isEmpty || (print place success).lines.isEmpty ||
      (print place failure).lines.isEmpty then some .emptyPart else none
  | _ => none

theorem findSome?_visits (f : Place → Node → Option Failure) (place : Place) (ns : List Node) :
    (ns.map (place, ·)).findSome? (fun v => f v.1 v.2) = ns.findSome? (f place) := by
  rw [List.findSome?_map]
  rfl

theorem failure_printArguments (place : Place) (ns : List Node) :
    (Recorded.all ((printAll place ns).map Printed.draft)).failure? =
      ns.findSome? (failureAt place) := by
  rw [Recorded.failure?_all,printAll_eq_map,List.map_map,List.findSome?_map]
  simp only [Function.comp_def,Printed.failure?_draft]
  rfl

theorem failure_forStatement (place : Place) (init : List Node) (test update : Option Node)
    (body : List Node) :
    (print place (.forStatement init test update body)).failure =
      (init ++ (test.toList ++ (update.toList ++ body))).findSome? (failureAt place) := by
  rw [print,failure_printed,
    Recorded.failure?_bind _ _ fun _ _ => Recorded.failure?_bind _ _ fun _ _ =>
      Recorded.failure?_bind_map _ _ _,
    Recorded.failure?_all,failure_printInits]
  simp only [failure_printOption,Printed.failure?_draft,failure_printAll,List.findSome?_append]

theorem lines_of_draft {x : Printed} {lines : List String} (h : x.draft.result = .ok lines) :
    x.lines = lines := by
  cases hx : x.failure <;> simp_all [Printed.draft]

theorem failure_conditionalExpression (place : Place) (test success failure : Node) :
    (print place (.conditionalExpression test success failure)).failure =
      ([test,success,failure].findSome? (failureAt place)).or
        (ownFailure place (.conditionalExpression test success failure)) := by
  rw [print,failure_printed]
  refine (Recorded.failure?_bind _ _ fun t ht => Recorded.failure?_bind _ _ fun s hs =>
    Recorded.failure?_bind _ _ fun f hf =>
      (?_ : _ = ownFailure place (.conditionalExpression test success failure))).trans ?_
  · rw [ownFailure,lines_of_draft ht,lines_of_draft hs,lines_of_draft hf]
    cases t <;> cases s <;> cases f <;> rfl
  · simp only [Printed.failure?_draft,findSome?_cons_eq_or,List.findSome?_nil,Option.or_assoc,
      Option.none_or]
    rfl

/-- Printing a node fails as the first of the nodes that it prints, else for its own reason. -/
theorem failureAt_eq (place : Place) (n : Node) :
    failureAt place n =
      ((visits place n).findSome? fun v => failureAt v.1 v.2).or (ownFailure place n) := by
  -- Most nodes print all that is inside them at their own place, and cannot fail themselves.
  have hchildren : (print place n).failure = n.children.findSome? (failureAt place) →
      visits place n = n.children.map (place, ·) → ownFailure place n = none →
      failureAt place n =
        ((visits place n).findSome? fun v => failureAt v.1 v.2).or (ownFailure place n) := by
    intro hprint hvisits hown
    rw [hvisits,hown,findSome?_visits,Option.or_none]
    exact hprint
  cases n with
  | namespaceBlock name body =>
    have hvisits : visits place (.namespaceBlock name body) = body.map (place.enter name, ·) := rfl
    have hprint : (print place (.namespaceBlock name body)).failure =
        body.findSome? (failureAt (place.enter name)) := by
      rw [print,Printed.failure_concat,printAll_eq_map,List.map_map,List.findSome?_map]
      rfl
    rw [hvisits,findSome?_visits]
    exact hprint.trans Option.or_none.symm
  | functionDefinition name parameters returnType body =>
    have hvisits : visits place (.functionDefinition name parameters returnType body) =
        (parameters.map .parameter).map (place, ·) ++ body.map (place.inFunction, ·) := rfl
    have hprint : (print place (.functionDefinition name parameters returnType body)).failure =
        ((parameters.map .parameter).findSome? (failureAt place)).or
          (body.findSome? (failureAt place.inFunction)) := by
      rw [print]
      cases place.scope <;>
        simp only [Printed.failure_inSegment,failure_printed,Recorded.failure?_bind_map,
          Recorded.failure?_all,failure_printParameters,Printed.failure?_draft,failure_printAll]
    rw [hvisits,List.findSome?_append,findSome?_visits,findSome?_visits]
    exact hprint.trans Option.or_none.symm
  | ifStatement choices =>
    have hvisits : visits place (.ifStatement choices) =
        (choices.flatMap fun c => c.statements ++ c.condition.toList).map (place, ·) := rfl
    have hprint : (print place (.ifStatement choices)).failure =
        (choices.flatMap fun c => c.statements ++ c.condition.toList).findSome?
          (failureAt place) := by
      rw [print,failure_printed,Recorded.failure?_map,Recorded.failure?_all,failure_printChoices]
    rw [hvisits,findSome?_visits]
    exact hprint.trans Option.or_none.symm
  | caseStatement isDefault test statements =>
    cases isDefault with
    | true =>
      have hvisits : visits place (.caseStatement true test statements) =
          statements.map (place, ·) := rfl
      have hprint : (print place (.caseStatement true test statements)).failure =
          statements.findSome? (failureAt place) := by
        simp [print,Printed.failure_concat,findSome?_cons_eq_or,findSome?_printAll]
      rw [hvisits,findSome?_visits]
      exact hprint.trans Option.or_none.symm
    | false =>
      cases test with
      | none => simp [failureAt,print,visits,ownFailure]
      | some test =>
        apply hchildren _ rfl rfl
        simp [print,Printed.failure_concat,findSome?_cons_eq_or,findSome?_printAll,Node.children,
          Node.slots,Function.comp_def,failureAt]
  | conditionalExpression test success failure =>
    have hvisits : visits place (.conditionalExpression test success failure) =
        [test,success,failure].map (place, ·) := rfl
    rw [hvisits,findSome?_visits]
    exact failure_conditionalExpression place test success failure
  | declaration ds =>
    apply hchildren _ rfl rfl
    rw [failure_declaration,Node.children_declaration]
  | parameter p =>
    apply hchildren _ rfl rfl
    rw [failure_parameter]
    simp [Node.children,Node.slots,Function.comp_def]
  | forStatement init test update body =>
    apply hchildren _ rfl rfl
    rw [failure_forStatement]
    simp [Node.children,Node.slots,Function.comp_def]
  | path steps =>
    apply hchildren _ rfl rfl
    rw [print,Node.children_path,failure_printed,Recorded.failure?_map,Recorded.failure?_all,
      failure_pathTexts]
  | doStatement statements condition =>
    apply hchildren _ rfl rfl
    simp [print,Printed.failure_concat,findSome?_cons_eq_or,findSome?_printAll,Node.children,
      Node.slots,Function.comp_def,failureAt]
  | returnStatement value =>
    apply hchildren _ rfl rfl
    cases value <;> simp [print,Node.children,Node.slots,failureAt]
  | binaryExpression operator left right =>
    apply hchildren _ rfl rfl
    cases right <;> simp [print,Node.children,Node.slots,findSome?_cons_eq_or,failureAt]
  | _ =>
    apply hchildren _ rfl rfl
    simp [print,Node.children,Node.slots,Function.comp_def,failure_printAll,findSome?_cons_eq_or,
      failure_printArguments,failureAt]

end Printing
end Scribe
