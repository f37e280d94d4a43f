import Mathlib.Data.List.Basic
import Scribe.Printing.Writer
import Scribe.Proofs.BalancedPrinting

/-! What a printer writes. Writing a node adds the printed lines to the given body and opens the
printed segments behind all others, whatever is on the desk; nothing else on the desk changes but
the sheets that have been taken meanwhile, and the context is the one from before. -/
namespace Scribe

theorem modify_append_of_lt {α : Type} {as bs : List α} {i : Nat} (f : α → α)
    (h : i < as.length) : (as ++ bs).modify i f = as.modify i f ++ bs := by
  rw [List.modify_eq_set_get f h,List.modify_eq_set_get f (by rw [List.length_append]; omega),
    List.set_append_left _ _ h]
  simp [List.getElem_append_left h]

theorem modify_length_append {α : Type} (as bs : List α) (a : α) (f : α → α) :
    (as ++ a :: bs).modify as.length f = as ++ f a :: bs := by
  induction as with
  | nil => rfl
  | cons x as ih => simp [ih]

namespace Printing
open Program Text Writing

namespace Desk

/-- The body is on the desk. -/
def Holds (desk : Desk) : Body → Prop
  | .segment i => i < desk.segments.length
  | .sheet i => i < desk.sheets.length

def extend (desk : Desk) (opened : List Segment) (sheets : List (List String)) : Desk :=
  { desk with segments := desk.segments ++ opened, sheets := desk.sheets ++ sheets }

variable {desk : Desk} {body : Body} {lines more : List String} {opened : List Segment}
  {sheets : List (List String)}

@[simp] theorem context_extend : (desk.extend opened sheets).context = desk.context := rfl

@[simp] theorem context_write : (desk.write lines body).context = desk.context := by
  cases body <;> rfl

@[simp] theorem extend_nil : desk.extend [] [] = desk := by simp [extend]

@[simp] theorem extend_extend {opened' : List Segment} {sheets' : List (List String)} :
    (desk.extend opened sheets).extend opened' sheets' =
      desk.extend (opened ++ opened') (sheets ++ sheets') := by
  simp [extend]

@[simp] theorem write_nil : desk.write [] body = desk := by
  have hid {α : Type} (as : List (List α)) (i : Nat) : as.modify i (fun a => a) = as :=
    List.modify_id i as
  cases body <;> simp [write,hid]

@[simp] theorem write_write :
    (desk.write lines body).write more body = desk.write (lines ++ more) body := by
  cases body <;> simp [write,List.modify_modify_eq,Function.comp_def]

theorem Holds.write (h : desk.Holds body) (lines : List String) (body' : Body) :
    (desk.write lines body').Holds body := by
  cases body <;> cases body' <;> simpa [Holds,Desk.write] using h

theorem Holds.extend (h : desk.Holds body) (opened : List Segment) (sheets : List (List String)) :
    (desk.extend opened sheets).Holds body := by
  cases body <;> simp only [Holds,Desk.extend,List.length_append] at h ⊢ <;> omega

theorem write_extend (h : desk.Holds body) :
    (desk.extend opened sheets).write lines body = (desk.write lines body).extend opened sheets := by
  cases body <;> simp only [Holds] at h <;> simp [write,extend,modify_append_of_lt _ h]

end Desk

/-- How an action ends that works out a draft. -/
def outcome {α : Type} (d : Draft α) (desk : Desk) (sheets : List (List String)) :
    EStateM.Result Failure Desk α :=
  match d.result with
  | .ok a => .ok a (desk.extend d.record sheets)
  | .error e => .error e (desk.extend d.record sheets)

def Printed.outcome (p : Printed) (body : Body) (desk : Desk) (sheets : List (List String)) :
    EStateM.Result Failure Desk Unit :=
  match p.failure with
  | .none => .ok () ((desk.write p.lines body).extend p.opened sheets)
  | .some e => .error e ((desk.write p.lines body).extend p.opened sheets)

/-- In a context, the action works out the draft on any desk. -/
def Drafts {α : Type} (context : List Kind) (x : Writing α) (d : Draft α) : Prop :=
  ∀ desk : Desk, desk.context = context → ∃ sheets, x.run desk = outcome d desk sheets

/-- In a context, the action prints to the body, on any desk that holds it. -/
def Writes (context : List Kind) (body : Body) (x : Writing Unit) (p : Printed) : Prop :=
  ∀ desk : Desk, desk.context = context → desk.Holds body →
    ∃ sheets, x.run desk = p.outcome body desk sheets

section Run
variable {α : Type} (desk : Desk) (body : Body)

@[simp] theorem run_newSegment :
    newSegment.run desk = .ok (.segment desk.segments.length) (desk.extend [[]] []) := by
  rw [Desk.extend,List.append_nil]
  rfl

@[simp] theorem run_newSheet :
    newSheet.run desk = .ok (.sheet desk.sheets.length) (desk.extend [] [[]]) := by
  rw [Desk.extend,List.append_nil]
  rfl

@[simp] theorem run_write (lines : List String) :
    (write lines body).run desk = .ok () (desk.write lines body) := rfl

@[simp] theorem run_contents : (contents body).run desk = .ok (desk.read body) desk := rfl

@[simp] theorem run_throw (e : Failure) : (throw e : Writing α).run desk = .error e desk := rfl

@[simp] theorem run_refuse (kind : String) : (refuse kind).run desk =
    .error (.unsupported ⟨kind,contextName desk.context⟩) desk := rfl

theorem run_within (kind : Kind) (x : Writing Unit) : (within kind x).run desk =
    match x.run (desk.enter kind) with
    | .ok _ after => .ok () after.leave
    | .error e after => .error e after.leave := by
  rw [within,EStateM.run_bind]
  simp only [EStateM.run_modify]
  simp only [tryFinally,Functor.map,EStateM.map,tryFinally',EStateM.run]
  cases x (desk.enter kind) <;> rfl

end Run

section Rules
variable {α β : Type} {context : List Kind} {body : Body} {x y : Writing Unit} {p q : Printed}
  {w : Writing α} {d : Draft α}

theorem drafts_pure (a : α) : Drafts context (pure a) (.ok a) := by
  intro desk hcontext
  exact ⟨[],by simp [outcome]⟩

theorem Drafts.bind {f : α → Writing β} {g : α → Draft β} (h : Drafts context w d)
    (hf : ∀ a, Drafts context (f a) (g a)) : Drafts context (w >>= f) (d.bind g) := by
  intro desk hcontext
  obtain ⟨sheets,hw⟩ := h desk hcontext
  cases hd : d.result with
  | ok a =>
    obtain ⟨more,hmore⟩ := hf a (desk.extend d.record sheets) hcontext
    refine ⟨sheets ++ more,?_⟩
    rw [EStateM.run_bind,hw]
    simp only [outcome,hd,hmore]
    simp [Recorded.bind,hd]
  | error e =>
    refine ⟨sheets,?_⟩
    rw [EStateM.run_bind,hw]
    simp [outcome,Recorded.bind,hd]

theorem map_eq_bind (d : Draft α) (f : α → β) : d.map f = d.bind fun a => .ok (f a) := by
  cases hd : d.result <;> simp [Recorded.map,Recorded.bind,hd,Except.map]

theorem Drafts.map (h : Drafts context w d) (f : α → β) :
    Drafts context (w >>= fun a => pure (f a)) (d.map f) := by
  rw [map_eq_bind]
  exact h.bind fun a => drafts_pure (f a)

theorem Drafts.then {f : α → Writing Unit} {g : α → Draft (List String)} (h : Drafts context w d)
    (hf : ∀ a, Writes context body (f a) (g a).printed) :
    Writes context body (w >>= f) (d.bind g).printed := by
  intro desk hcontext hbody
  obtain ⟨sheets,hw⟩ := h desk hcontext
  cases hd : d.result with
  | ok a =>
    obtain ⟨more,hmore⟩ := hf a (desk.extend d.record sheets) hcontext (hbody.extend _ _)
    refine ⟨sheets ++ more,?_⟩
    rw [EStateM.run_bind,hw]
    simp only [outcome,hd,hmore,Printed.outcome,Desk.write_extend hbody]
    cases hg : (g a).result <;> simp [Recorded.bind,Recorded.printed,hd,hg]
  | error e =>
    -- After a failure the sheets stay, but nothing more is written.
    refine ⟨sheets,?_⟩
    rw [EStateM.run_bind,hw]
    simp [outcome,Printed.outcome,Recorded.bind,Recorded.printed,hd]

theorem writes_text (lines : List String) : Writes context body (write lines body) (.text lines) := by
  intro desk hcontext hbody
  exact ⟨[],by simp [Printed.outcome,Printed.text]⟩

theorem Drafts.write (h : Drafts context w d) (f : α → List String) :
    Writes context body (w >>= fun a => write (f a) body) (d.map f).printed := by
  rw [map_eq_bind]
  exact h.then fun a => writes_text (f a)

theorem writes_none : Writes context body (pure ()) .none := by
  intro desk hcontext hbody
  exact ⟨[],by simp [Printed.outcome,Printed.none]⟩

theorem Writes.append (h : Writes context body x p) (h' : Writes context body y q) :
    Writes context body (x >>= fun _ => y) (p.append q) := by
  intro desk hcontext hbody
  obtain ⟨sheets,hx⟩ := h desk hcontext hbody
  cases hp : p.failure with
  | none =>
    obtain ⟨more,hmore⟩ := h' ((desk.write p.lines body).extend p.opened sheets) (by simpa)
      ((hbody.write _ _).extend _ _)
    refine ⟨sheets ++ more,?_⟩
    rw [EStateM.run_bind,hx]
    simp only [Printed.outcome,hp,hmore,Desk.write_extend (hbody.write _ _)]
    cases hq : q.failure <;> simp [Printed.append,hp,hq]
  | some e =>
    refine ⟨sheets,?_⟩
    rw [EStateM.run_bind,hx]
    simp [Printed.outcome,Printed.append,hp]

theorem Writes.inSegment {f : Body → Writing Unit} (h : ∀ segment, Writes context segment (f segment) p) :
    Writes context body (newSegment >>= f) p.inSegment := by
  intro desk hcontext hbody
  obtain ⟨sheets,hf⟩ := h (.segment desk.segments.length) (desk.extend [[]] []) hcontext
    (by simp [Desk.Holds,Desk.extend])
  refine ⟨sheets,?_⟩
  have hdesk : ((desk.extend [[]] []).write p.lines (.segment desk.segments.length)).extend p.opened
      sheets = desk.extend (p.lines :: p.opened) sheets := by
    simp [Desk.extend,Desk.write,modify_length_append]
  rw [EStateM.run_bind,run_newSegment]
  simp [hf,Printed.outcome,hdesk,Printed.inSegment]

theorem Writes.onSheet {f : Body → Writing Unit} (h : ∀ sheet, Writes context sheet (f sheet) p) :
    Drafts context (onSheet f) p.draft := by
  intro desk hcontext
  obtain ⟨sheets,hf⟩ := h (.sheet desk.sheets.length) (desk.extend [] [[]]) hcontext
    (by simp [Desk.Holds,Desk.extend])
  have hdesk : ((desk.extend [] [[]]).write p.lines (.sheet desk.sheets.length)).extend p.opened
      sheets = desk.extend p.opened (p.lines :: sheets) := by
    simp [Desk.extend,Desk.write,modify_length_append]
  refine ⟨p.lines :: sheets,?_⟩
  rw [Writing.onSheet,EStateM.run_bind,run_newSheet]
  cases hp : p.failure with
  | none => 
    have hread : (desk.extend p.opened (p.lines :: sheets)).read (.sheet desk.sheets.length) =
        p.lines := by
      simp [Desk.read,Desk.extend]
    simp [hf,Printed.outcome,hdesk,hp,hread,outcome,Printed.draft]
  | some e => simp [hf,Printed.outcome,hdesk,hp,outcome,Printed.draft]

theorem Writes.within {kind : Kind} (h : Writes (kind :: context) body x p) :
    Writes context body (within kind x) p := by
  intro desk hcontext hbody
  obtain ⟨sheets,hx⟩ := h (desk.enter kind) (by simp [Desk.enter,hcontext])
    (by cases body <;> exact hbody)
  refine ⟨sheets,?_⟩
  have hleave : (((desk.enter kind).write p.lines body).extend p.opened sheets).leave =
      (desk.write p.lines body).extend p.opened sheets := by
    cases body <;> rfl
  rw [run_within,hx]
  cases hp : p.failure <;> simp [Printed.outcome,hp,hleave]

theorem writes_throw (e : Failure) : Writes context body (throw e) (Recorded.fail e).printed := by
  intro desk hcontext hbody
  exact ⟨[],by simp [Printed.outcome,Recorded.printed]⟩

theorem writes_refuse (kind : String) :
    Writes context body (refuse kind) (printUnknown kind (contextName context)) := by
  rintro desk rfl hbody
  exact ⟨[],by simp [Printed.outcome,printUnknown,Recorded.printed]⟩

theorem Drafts.cons {rest : Writing (List α)} {ds : List (Draft α)} (h : Drafts context w d)
    (hrest : Drafts context rest (Recorded.all ds)) :
    Drafts context (w >>= fun a => rest >>= fun as => pure (a :: as)) (Recorded.all (d :: ds)) :=
  h.bind fun a => hrest.map (a :: ·)

theorem Writes.inline {f : Body → Writing Unit} (h : ∀ sheet, Writes context sheet (f sheet) p) :
    Drafts context (inline f) (p.draft.map oneLine) :=
  (Writes.onSheet h).map oneLine

theorem writes_putConditional (test success failure : List String) :
    Writes context body (putConditional test success failure body)
      (match conditionalLines test success failure with
        | some lines => .ok lines
        | none => .fail .emptyPart : Draft (List String)).printed := by
  rw [putConditional]
  cases conditionalLines test success failure with
  | none => exact writes_throw .emptyPart
  | some lines => exact writes_text lines

end Rules

def stepDrafts (place : Place) : Bool → List Node → List (Draft String)
  | _, [] => []
  | isFirst, n :: ns => stepText isFirst n (print place n) :: stepDrafts place false ns

theorem pathTexts_eq (place : Place) (ns : List Node) :
    pathTexts (ns.zip (printAll place ns)) = stepDrafts place true ns := by
  cases ns with
  | nil => rfl
  | cons n ns =>
    rw [printAll,List.zip_cons_cons,pathTexts,stepDrafts]
    congr 1
    induction ns with
    | nil => rfl
    | cons n ns ih => rw [printAll,List.zip_cons_cons,List.map_cons,ih,stepDrafts]

def labelPrinted (place : Place) : Bool → Option Node → Printed
  | true, _ => .text ["default:"]
  | false, none => (Recorded.fail .missingTest).printed
  | false, some test => ((print place test).draft.map fun lines => wrap "case " lines ":").printed

theorem print_caseStatement (place : Place) (isDefault : Bool) (test : Option Node)
    (statements : List Node) : print place (.caseStatement isDefault test statements) =
      (labelPrinted place isDefault test).append
        ((Printed.concat (printAll place statements)).draft.map (indent 1)).printed := by
  cases isDefault with
  | true => rw [print,labelPrinted,Printed.concat,Printed.concat,Printed.concat,Printed.append_none]
  | false =>
    cases test with
    | none =>
      rw [print]
      rfl
    | some test =>
      rw [print,labelPrinted,Printed.concat,Printed.concat,Printed.concat,Printed.append_none]

section Lists
variable {place : Place} {context : List Kind} {n : Node} {ns : List Node}

theorem printParameters_cons (p : Parameter) (ps : List Parameter) :
    printParameters place (p :: ps) =
      (print place (.parameter p)).draft.map oneLine :: printParameters place ps := by
  rcases p with ⟨name,typeName,value,isConst,isRef⟩
  cases value with
  | none =>
    rw [printParameters,print]
    rfl
  | some value =>
    rw [printParameters,print,draft_printed]
    cases h : (print place value).draft.result <;> simp [Recorded.map,h,Except.map]

theorem drafts_stepTexts_cons (isFirst : Bool)
    (h : ∀ sheet, Writes context sheet (put place n sheet) (print place n))
    (hrest : Drafts context (stepTexts place false ns) (Recorded.all (stepDrafts place false ns))) :
    Drafts context (stepTexts place isFirst (n :: ns))
      (Recorded.all (stepDrafts place isFirst (n :: ns))) := by
  by_cases hname : ∃ name, n = .reference name
  · obtain ⟨name,rfl⟩ := hname
    simpa [stepTexts,stepDrafts,stepText] using (drafts_pure _).cons hrest
  · have hstep : stepText isFirst n (print place n) = (print place n).draft.map oneLine := by
      rw [stepText]
      exact fun name hn => hname ⟨name,hn⟩
    rw [stepTexts,stepDrafts,hstep]
    · exact (Writes.inline h).cons hrest
    · exact fun name hn => hname ⟨name,hn⟩

theorem drafts_initTexts_cons
    (h : ∀ sheet, Writes context sheet (put place n sheet) (print place n))
    (hrest : Drafts context (initTexts place ns) (Recorded.all (printInits place ns)))
    (hplain : ∀ ds, n ≠ .declaration ds) :
    Drafts context (initTexts place (n :: ns)) (Recorded.all (printInits place (n :: ns))) := by
  rw [initTexts,printInits]
  · exact (Writes.inline h).cons hrest
  · exact hplain
  · exact hplain

end Lists

mutual
/-- Writing a node prints it, in any context and to any body. -/
theorem writes_put (place : Place) (context : List Kind) (body : Body) : (n : Node) →
    Writes context body (put place n body) (print place n)
  | .namespaceBlock name members => by
    rw [put,print]
    exact (writes_putMembers (place.enter name) _ body members).within
  | .declaration declarators => by
    rw [put]
    exact (writes_putDeclarators place _ body declarators).within
  | .functionDefinition name parameters returnType statements => by
    have hlines (target : Body) : Writes (.functionDefinition :: context) target _ _ :=
      (drafts_parameterTexts place _ parameters).then fun parameters =>
        (Writes.onSheet fun sheet => writes_putAll place.inFunction _ sheet statements).write
          (braced [signature (place.declare name) parameters returnType])
    rw [put]
    apply Writes.within
    cases hscope : place.scope <;> simp only [print,functionBody,hscope,pure_bind]
    · exact Writes.inSegment hlines
    · exact Writes.inSegment hlines
    · exact hlines body
  | .parameter p => by
    rw [put]
    exact (writes_putParameter place _ body p).within
  | .block statements => by
    rw [put,print]
    exact ((Writes.onSheet fun sheet => writes_putAll place _ sheet statements).write _).within
  | .ifStatement choices => by
    rw [put,print]
    exact ((drafts_armsLines place _ choices).write _).within
  | .forStatement init test update statements => by
    rw [put,print]
    exact ((drafts_initTexts place _ init).then fun _ =>
      (drafts_optionLines place _ test).then fun _ =>
        (drafts_optionLines place _ update).then fun _ =>
          (Writes.onSheet fun sheet => writes_putAll place _ sheet statements).write _).within
  | .whileStatement condition statements | .switchStatement condition statements => by
    rw [put,print]
    exact ((Writes.onSheet fun sheet => writes_put place _ sheet condition).then fun _ =>
      (Writes.onSheet fun sheet => writes_putAll place _ sheet statements).write _).within
  | .doStatement statements condition => by
    rw [put,print]
    have hbody : Writes (.doStatement :: context) body _ _ :=
      (Writes.onSheet fun sheet => writes_putAll place _ sheet statements).write (indent 1)
    have hend : Writes (.doStatement :: context) body _ _ :=
      (Writes.onSheet fun sheet => writes_put place _ sheet condition).write fun lines =>
        wrap "\x7d while (" lines ")"
    apply Writes.within
    simpa [Node.kind,Printed.concat,Printed.append_none] using
      (writes_text ["do \x7b"]).append (hbody.append hend)
  | .caseStatement isDefault test statements => by
    rw [put,print_caseStatement]
    exact ((writes_putLabel place context body isDefault test).append
      ((Writes.onSheet fun sheet => writes_putAll place _ sheet statements).write _)).within
  | .conditionalExpression test success failure => by
    rw [put,print]
    exact ((Writes.onSheet fun sheet => writes_put place _ sheet test).then fun _ =>
      (Writes.onSheet fun sheet => writes_put place _ sheet success).then fun _ =>
        (Writes.onSheet fun sheet => writes_put place _ sheet failure).then
          (writes_putConditional _ _)).within
  | .callExpression callee arguments => by
    rw [put,print]
    exact ((Writes.onSheet fun sheet => writes_put place _ sheet callee).then fun _ =>
      (drafts_linesEach place _ arguments).write _).within
  | .path steps => by
    rw [put,print,pathTexts_eq]
    exact ((drafts_stepTexts place _ true steps).write _).within
  | .binaryExpression _ left (some right) | .assignmentExpression left _ right => by
    rw [put,print]
    exact ((Writes.onSheet fun sheet => writes_put place _ sheet left).then fun _ =>
      (Writes.onSheet fun sheet => writes_put place _ sheet right).write _).within
  | .returnStatement (some value) | .throwStatement value | .binaryExpression _ value none
  | .unaryExpression _ value | .updateExpression _ value _ | .parenthesizedExpression value
  | .index value => by
    rw [put,print]
    exact ((Writes.onSheet fun sheet => writes_put place _ sheet value).write _).within
  | .returnStatement none | .breakStatement | .continueStatement | .reference _
  | .numberLiteral _ | .booleanLiteral _ | .nullLiteral | .stringLiteral _
  | .userDefinedLiteral _ => by
    rw [put,print]
    exact (writes_text _).within

theorem writes_putAll (place : Place) (context : List Kind) (body : Body) : (ns : List Node) →
    Writes context body (putAll place ns body) (Printed.concat (printAll place ns))
  | [] => by
    rw [putAll,printAll]
    exact writes_none
  | n :: ns => by
    rw [putAll,printAll]
    exact (writes_put place context body n).append (writes_putAll place context body ns)

theorem writes_putMembers (place : Place) (context : List Kind) (body : Body) : (ns : List Node) →
    Writes context body (putMembers place ns)
      (.concat ((printAll place ns).map Printed.inSegment))
  | [] => by
    rw [putMembers,printAll]
    exact writes_none
  | n :: ns => by
    rw [putMembers,printAll,← bind_assoc]
    exact (Writes.inSegment fun segment => writes_put place context segment n).append
      (writes_putMembers place context body ns)

theorem drafts_linesEach (place : Place) (context : List Kind) : (ns : List Node) →
    Drafts context (linesEach place ns) (Recorded.all ((printAll place ns).map Printed.draft))
  | [] => by
    rw [linesEach,printAll]
    exact drafts_pure []
  | n :: ns => by
    rw [linesEach,printAll]
    exact (Writes.onSheet fun sheet => writes_put place context sheet n).cons
      (drafts_linesEach place context ns)

theorem drafts_optionLines (place : Place) (context : List Kind) : (o : Option Node) →
    Drafts context (optionLines place o) (Recorded.option (printOption place o))
  | none => by
    rw [optionLines,printOption]
    exact drafts_pure none
  | some n => by
    rw [optionLines,printOption]
    exact (Writes.onSheet fun sheet => writes_put place context sheet n).map some

theorem drafts_declaratorLines (place : Place) (context : List Kind) : (d : Declarator) →
    Drafts context (declaratorLines place d) (declaratorDraft place d)
  | ⟨_,_,none,_⟩ => by
    rw [declaratorLines,declaratorDraft]
    exact drafts_pure _
  | ⟨_,_,some init,_⟩ => by
    rw [declaratorLines,declaratorDraft]
    exact (Writes.onSheet fun sheet => writes_put place context sheet init).map _

theorem writes_putDeclarators (place : Place) (context : List Kind) (body : Body) :
    (ds : List Declarator) → Writes context body (putDeclarators place ds body)
      (print place (.declaration ds))
  | [] => by
    rw [putDeclarators,print]
    exact writes_none
  | d :: ds => by
    rw [putDeclarators,print_declaration_cons,← bind_assoc]
    exact ((drafts_declaratorLines place context d).write (declare d)).append
      (writes_putDeclarators place context body ds)

theorem drafts_declaratorsLines (place : Place) (context : List Kind) : (ds : List Declarator) →
    Drafts context (declaratorsLines place ds) (Recorded.all (printDeclarators place ds))
  | [] => by
    rw [declaratorsLines,printDeclarators]
    exact drafts_pure []
  | d :: ds => by
    rw [declaratorsLines,printDeclarators_cons]
    exact (drafts_declaratorLines place context d).cons (drafts_declaratorsLines place context ds)

theorem writes_putParameter (place : Place) (context : List Kind) (body : Body) :
    (p : Parameter) → Writes context body (putParameter place p body) (print place (.parameter p))
  | ⟨_,_,none,_,_⟩ => by
    rw [putParameter,print]
    exact writes_text _
  | ⟨_,_,some value,_,_⟩ => by
    rw [putParameter,print]
    exact (Writes.onSheet fun sheet => writes_put place _ sheet value).write _

theorem drafts_parameterTexts (place : Place) (context : List Kind) : (ps : List Parameter) →
    Drafts context (parameterTexts place ps) (Recorded.all (printParameters place ps))
  | [] => by
    rw [parameterTexts,printParameters]
    exact drafts_pure []
  | p :: ps => by
    rw [parameterTexts,printParameters_cons]
    exact (Writes.inline fun sheet => (writes_putParameter place _ sheet p).within).cons
      (drafts_parameterTexts place context ps)

theorem drafts_armLines (place : Place) (context : List Kind) : (c : Choice) →
    Drafts context (armLines place c)
      ((Printed.concat (printAll place c.statements)).draft.bind fun statements =>
        (Recorded.option (printOption place c.condition)).map fun condition =>
          (condition,statements))
  | ⟨condition,statements⟩ => by
    rw [armLines]
    exact (Writes.onSheet fun sheet => writes_putAll place context sheet statements).bind fun _ =>
      (drafts_optionLines place context condition).map _

theorem drafts_armsLines (place : Place) (context : List Kind) : (cs : List Choice) →
    Drafts context (armsLines place cs) (Recorded.all (printChoices place cs))
  | [] => by
    rw [armsLines,printChoices]
    exact drafts_pure []
  | ⟨condition,statements⟩ :: cs => by
    rw [armsLines,printChoices]
    exact (drafts_armLines place context ⟨condition,statements⟩).cons
      (drafts_armsLines place context cs)

theorem drafts_initTexts (place : Place) (context : List Kind) : (ns : List Node) →
    Drafts context (initTexts place ns) (Recorded.all (printInits place ns))
  | [] => by
    rw [initTexts,printInits]
    exact drafts_pure []
  | n :: ns => by
    have hn := fun sheet => writes_put place context sheet n
    have hns := drafts_initTexts place context ns
    cases n with
    | declaration declarators =>
      rw [initTexts,printInits]
      exact ((drafts_declaratorsLines place context declarators).map _).cons hns
    | _ => exact drafts_initTexts_cons hn hns (by rintro ds ⟨⟩)

theorem writes_putLabel (place : Place) (context : List Kind) (body : Body) :
    (isDefault : Bool) → (test : Option Node) →
    Writes (.caseStatement :: context) body (putLabel place isDefault test body)
      (labelPrinted place isDefault test)
  | true, _ => by
    rw [putLabel,labelPrinted]
    exact writes_text _
  | false, none => by
    rw [putLabel,labelPrinted]
    exact writes_refuse "NoneType"
  | false, some test => by
    rw [putLabel,labelPrinted]
    exact (Writes.onSheet fun sheet => writes_put place _ sheet test).write _

theorem drafts_stepTexts (place : Place) (context : List Kind) (isFirst : Bool) :
    (ns : List Node) →
    Drafts context (stepTexts place isFirst ns) (Recorded.all (stepDrafts place isFirst ns))
  | [] => by
    rw [stepTexts,stepDrafts]
    exact drafts_pure []
  | n :: ns =>
    drafts_stepTexts_cons isFirst (fun sheet => writes_put place context sheet n)
      (drafts_stepTexts place context false ns)
end

def Task.printed (place : Place) : Task → Printed
  | .node n => print place n
  | .unknown around kind => printUnknown kind (contextName around)

theorem writes_around {around context : List Kind} {body : Body} {x : Writing Unit} {p : Printed}
    (h : Writes (around ++ context) body x p) :
    Writes context body (around.foldl (fun action kind => within kind action) x) p := by
  induction around generalizing x with
  | nil => exact h
  | cons kind around ih => exact ih (Writes.within h)

theorem Task.writes_put (task : Task) (place : Place) (body : Body) :
    Writes [] body (task.put place body) (task.printed place) := by
  cases task with
  | node n => exact Printing.writes_put place [] body n
  | unknown around kind =>
    apply writes_around
    rw [List.append_nil]
    exact writes_refuse kind

namespace Printer

/-- One call adds what is printed to its document, and leaves the printer as fresh as before. -/
theorem answer_fresh (call : Call) : fresh.answer call =
    ⟨(call.task.printed call.place).failure,
      call.document.add call.position (call.task.printed call.place),fresh⟩ := by
  obtain ⟨sheets,hrun⟩ := call.task.writes_put call.place (.segment call.position)
    ⟨call.document.segments,[],[]⟩ rfl call.position.isLt
  simp only [answer,fresh,hrun,Printed.outcome]
  cases (call.task.printed call.place).failure <;> rfl

theorem after_fresh (calls : List Call) : fresh.after calls = fresh := by
  induction calls with
  | nil => rfl
  | cons call calls ih => rwa [after,List.foldl_cons,answer_fresh]

/-- Whatever a printer has been asked for before, and whether or not that has failed, printing
only appends: lines to the segment at the position, and segments behind all others. Which ones,
and how it fails, depends on nothing but the task and the place. -/
theorem answer_after (earlier : List Call) (d : Document) (i : Fin d.segments.length)
    (place : Place) (task : Task) :
    (fresh.after earlier).answer ⟨d,i,place,task⟩ =
      ⟨(task.printed place).failure,
        ⟨d.segments.set i (d.segments[i] ++ (task.printed place).lines) ++
          (task.printed place).opened⟩,fresh⟩ := by
  rw [after_fresh,answer_fresh,Document.add]
  simp [List.modify_eq_set_get _ i.isLt]

theorem program_fresh (d : Document) (program : List Node) : fresh.program d program =
    match (printProgram program).failure with
    | none => .ok ⟨d.segments ++ (printProgram program).opened⟩
    | some e => .error e := by
  induction program generalizing d with
  | nil => simp [Printer.program,printProgram,printAll,Printed.concat,Printed.none]
  | cons n ns ih =>
    have hrest : printProgram (n :: ns) = (print .top n).inSegment.append (printProgram ns) := by
      rw [printProgram,printAll,List.map_cons,Printed.concat,printProgram]
    have hdocument : (d.openSegment []).add d.segments.length (print .top n) =
        ⟨d.segments ++ (print .top n).inSegment.opened⟩ := by
      simp [Document.openSegment,Document.add,Printed.inSegment,modify_length_append]
    rw [Printer.program,answer_fresh,hrest]
    simp only [Call.atEnd,Task.printed,hdocument,ih]
    cases hn : (print .top n).failure <;> cases hns : (printProgram ns).failure <;>
      simp [Printed.append,Printed.inSegment,hn,hns]

theorem program_eq_document (program : List Node) :
    fresh.program .empty program = document program := by
  rw [program_fresh,document]
  rfl

end Printer

end Printing
end Scribe
