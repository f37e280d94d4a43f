import Scribe.Proofs.Segments

/-! Printing without segments. Where functions and namespaces stand only among declarations, the
segments of a document hold the lines that come of printing everything in place and in order. -/
namespace Scribe

namespace Program

def Node.IsNamespace : Node → Prop
  | .namespaceBlock _ _ => True
  | _ => False

def Node.IsFunction : Node → Prop
  | .functionDefinition _ _ _ _ => True
  | _ => False

/-- Namespaces stand only among declarations, and functions there or in each other's bodies. -/
inductive DeclarationShaped : Node → Prop
  | namespaceBlock {name : String} {body : List Node} :
    (∀ n ∈ body, DeclarationShaped n) → DeclarationShaped (.namespaceBlock name body)
  | functionDefinition {name : String} {parameters : List Parameter} {returnType : Option String}
    {body : List Node} :
    Everywhere (fun n => ¬ n.IsNamespace ∧ ¬ n.IsFunction) (parameters.map .parameter) →
    Everywhere (¬ ·.IsNamespace) body →
    DeclarationShaped (.functionDefinition name parameters returnType body)
  | other {n : Node} :
    Everywhere (fun n => ¬ n.IsNamespace ∧ ¬ n.IsFunction) [n] → DeclarationShaped n

end Program

namespace Printing
open Program Text

/-- A step of a path, from its lines. -/
def plainStep (isFirst : Bool) (step : Node) (lines : List String) : String :=
  match step with
  | .reference name => if isFirst then name else "." ++ name
  | _ => oneLine lines

def plainPath : List (Node × List String) → List String
  | [] => []
  | (step, lines) :: rest =>
    plainStep true step lines :: rest.map fun (step, lines) => plainStep false step lines

mutual
/-- The lines of a node at a place, with everything inside it in place too. There are none for
what cannot be printed. -/
def plain (place : Place) : Node → List String
  | .namespaceBlock name body => (plainEach (place.enter name) body).flatten
  | .declaration declarators =>
    (List.zipWith declare declarators (plainDeclarators place declarators)).flatten
  | .functionDefinition name parameters returnType body =>
    braced [signature (place.declare name) (plainParameters place parameters) returnType]
      (plainEach place.inFunction body).flatten
  | .parameter ⟨name, typeName, none, _, _⟩ => [TypeName.annotate name typeName]
  | .parameter ⟨name, typeName, some value, _, _⟩ =>
    [TypeName.annotate name typeName ++ " = " ++ oneLine (plain place value)]
  | .block statements => "\x7b" :: indent 1 (plainEach place statements).flatten ++ ["\x7d"]
  | .ifStatement choices => chainLines (plainChoices place choices)
  | .forStatement init test update body =>
    braced [forHead (plainInits place init) ((plainOption place test).map oneLine)
      ((plainOption place update).map oneLine)] (plainEach place body).flatten
  | .whileStatement condition statements =>
    braced (wrap "while (" (plain place condition) ")") (plainEach place statements).flatten
  | .doStatement statements condition =>
    "do \x7b" :: indent 1 (plainEach place statements).flatten ++
      wrap "\x7d while (" (plain place condition) ")"
  | .switchStatement condition statements =>
    braced (wrap "switch (" (plain place condition) ")") (plainEach place statements).flatten
  | .caseStatement true _ statements =>
    "default:" :: indent 1 (plainEach place statements).flatten
  | .caseStatement false none _ => []
  | .caseStatement false (some test) statements =>
    wrap "case " (plain place test) ":" ++ indent 1 (plainEach place statements).flatten
  | .returnStatement none => ["return"]
  | .returnStatement (some value) => wrap "return " (plain place value) ""
  | .throwStatement value => wrap "throw " (plain place value) ""
  | .breakStatement => ["break"]
  | .continueStatement => ["continue"]
  | .binaryExpression operator left none =>
    [operatorSign operator ++ oneLine (plain place left)]
  | .binaryExpression operator left (some right) =>
    [oneLine (plain place left) ++ " " ++ operatorSign operator ++ " " ++
      oneLine (plain place right)]
  | .unaryExpression operator value => [operatorSign operator ++ oneLine (plain place value)]
  | .updateExpression operator value isPostfix =>
    [if isPostfix then oneLine (plain place value) ++ operator
      else operator ++ oneLine (plain place value)]
  | .conditionalExpression test success failure =>
    (conditionalLines (plain place test) (plain place success) (plain place failure)).getD []
  | .assignmentExpression left operator right =>
    wrap (oneLine (plain place left) ++ " " ++ operator ++ " ") (plain place right) ""
  | .callExpression callee arguments =>
    callLines (tight (plain place callee)) (plainEach place arguments)
  | .parenthesizedExpression value => ["(" ++ oneLine (plain place value) ++ ")"]
  | .path steps => [join "" (plainPath (steps.zip (plainEach place steps)))]
  | .index value => ["[" ++ oneLine (plain place value) ++ "]"]
  | .reference name => [name]
  | .numberLiteral value => [numeral value]
  | .booleanLiteral value => [value]
  | .nullLiteral => ["null"]
  | .stringLiteral value => [value]
  | .userDefinedLiteral text => [text]

def plainEach (place : Place) : List Node → List (List String)
  | [] => []
  | n :: ns => plain place n :: plainEach place ns

def plainOption (place : Place) : Option Node → Option (List String)
  | none => none
  | some n => some (plain place n)

def plainDeclarators (place : Place) : List Declarator → List (List String)
  | [] => []
  | ⟨name, typeName, none, _⟩ :: rest =>
    [TypeName.annotate (place.declare name) typeName] :: plainDeclarators place rest
  | ⟨name, typeName, some init, _⟩ :: rest =>
    wrap (TypeName.annotate (place.declare name) typeName ++ " = ") (plain place init) "" ::
      plainDeclarators place rest

def plainParameters (place : Place) : List Parameter → List String
  | [] => []
  | ⟨name, typeName, none, _, _⟩ :: rest =>
    oneLine [TypeName.annotate name typeName] :: plainParameters place rest
  | ⟨name, typeName, some value, _, _⟩ :: rest =>
    oneLine [TypeName.annotate name typeName ++ " = " ++ oneLine (plain place value)] ::
      plainParameters place rest

def plainChoices (place : Place) : List Choice → List (Option (List String) × List String)
  | [] => []
  | ⟨condition, statements⟩ :: rest =>
    (plainOption place condition, (plainEach place statements).flatten) ::
      plainChoices place rest

def plainInits (place : Place) : List Node → List String
  | [] => []
  | .declaration declarators :: rest =>
    ("let " ++ join ", " ((plainDeclarators place declarators).map oneLine)) ::
      plainInits place rest
  | n :: rest => oneLine (plain place n) :: plainInits place rest
end

/-- The lines of a program: of its nodes one after the other. -/
def plainProgram (program : List Node) : List String := (plainEach .top program).flatten

end Printing

namespace Recorded
variable {ω ε α β : Type}

/-- Whatever comes of it is the given value, and nothing is recorded, not even if it fails. -/
structure Says (x : Recorded ω ε α) (a : α) : Prop where
  record : x.record = []
  result : ∀ v, x.result = .ok v → v = a

theorem says_ok (a : α) : (ok a : Recorded ω ε α).Says a where
  record := rfl
  result v hv := by simpa using hv.symm

theorem says_fail (e : ε) (a : α) : (fail e : Recorded ω ε α).Says a where
  record := rfl
  result v hv := by simp at hv

theorem Says.map {x : Recorded ω ε α} {a : α} (h : x.Says a) (f : α → β) :
    (x.map f).Says (f a) where
  record := h.record
  result v hv := by
    obtain ⟨w,hw,rfl⟩ := result_map_eq_ok.1 hv
    rw [h.result w hw]

theorem Says.bind {x : Recorded ω ε α} {f : α → Recorded ω ε β} {a : α} {b : β} (h : x.Says a)
    (hf : (f a).Says b) : (x.bind f).Says b where
  record := by
    cases hx : x.result with
    | error e => simp [Recorded.bind,hx,h.record]
    | ok v => simp [Recorded.bind,hx,h.record,h.result v hx,hf.record]
  result v hv := by
    obtain ⟨w,hw,hfw⟩ := result_bind_eq_ok.1 hv
    exact hf.result v (h.result w hw ▸ hfw)

theorem Says.all {xs : List (Recorded ω ε α)} {as : List α}
    (h : List.Forall₂ Says xs as) : (all xs).Says as := by
  induction h with
  | nil => exact says_ok []
  | cons hx _ ih => exact hx.bind (ih.map _)

end Recorded

namespace Printing
open Program Text

/-- What is printed, unless it fails, is the given lines, and no segment is opened for it, not even
if it fails. -/
structure Printed.Says (p : Printed) (lines : List String) : Prop where
  opened : p.opened = []
  lines : p.failure = .none → p.lines = lines

namespace Printed
variable {p q : Printed} {lines more : List String}

theorem says_text (lines : List String) : (text lines).Says lines := ⟨rfl,fun _ => rfl⟩

theorem Says.draft (h : p.Says lines) : p.draft.Says lines := by
  cases hp : p.failure with
  | some e =>
    rw [Printed.draft,hp]
    exact ⟨h.opened,by simp⟩
  | none =>
    rw [Printed.draft,hp]
    exact ⟨h.opened,by simp [h.lines hp]⟩

theorem Says.append (h : p.Says lines) (h' : q.Says more) :
    (p.append q).Says (lines ++ more) where
  opened := by cases hp : p.failure <;> simp [Printed.append,hp,h.opened,h'.opened]
  lines hok := by
    rw [failure_append,Option.or_eq_none_iff] at hok
    simp [Printed.append,hok.1,h.lines hok.1,h'.lines hok.2]

theorem Says.concat {ps : List Printed} {groups : List (List String)}
    (h : List.Forall₂ Says ps groups) : (concat ps).Says groups.flatten := by
  induction h with
  | nil => exact says_text []
  | cons hp _ ih => exact hp.append ih

theorem Says.concat_singleton (h : p.Says lines) : (Printed.concat [p]).Says lines := by
  simpa using Says.concat (.cons h .nil)

end Printed

end Printing

theorem Recorded.Says.printed {x : Printing.Draft (List String)} {lines : List String}
    (h : x.Says lines) : x.printed.Says lines := by
  cases hx : x.result with
  | error e =>
    rw [Recorded.printed,hx]
    exact ⟨h.record,by simp⟩
  | ok v =>
    rw [Recorded.printed,hx]
    exact ⟨h.record,fun _ => h.result v hx⟩

namespace Printing
open Program Text

/-- At a place a node is printed as its plain lines, if at all. -/
def Plainly (place : Place) (n : Node) : Prop := (print place n).Says (plain place n)

section Inside
variable {place : Place}

theorem says_printAll {ns : List Node} (h : ∀ n ∈ ns, Plainly place n) :
    List.Forall₂ Printed.Says (printAll place ns) (plainEach place ns) := by
  induction ns with
  | nil => exact .nil
  | cons n ns ih =>
    obtain ⟨hn,hns⟩ := List.forall_mem_cons.1 h
    exact .cons hn (ih hns)

theorem says_members {ns : List Node} (h : ∀ n ∈ ns, Plainly place n) :
    (Printed.concat (printAll place ns)).draft.Says (plainEach place ns).flatten :=
  (Printed.Says.concat (says_printAll h)).draft

theorem says_arguments {ns : List Node} (h : ∀ n ∈ ns, Plainly place n) :
    (Recorded.all ((printAll place ns).map Printed.draft)).Says (plainEach place ns) := by
  apply Recorded.Says.all
  rw [List.forall₂_map_left_iff]
  exact (says_printAll h).imp fun _ _ hn => hn.draft

theorem says_printOption {o : Option Node} (h : ∀ n ∈ o, Plainly place n) :
    (Recorded.option (printOption place o)).Says (plainOption place o) := by
  cases o with
  | none => exact Recorded.says_ok none
  | some n => exact (h n rfl).draft.map some

theorem says_printDeclarators {ds : List Declarator}
    (h : ∀ d ∈ ds, ∀ n ∈ d.init, Plainly place n) :
    List.Forall₂ Recorded.Says (printDeclarators place ds) (plainDeclarators place ds) := by
  induction ds with
  | nil => exact .nil
  | cons d ds ih =>
    obtain ⟨hd,hds⟩ := List.forall_mem_cons.1 h
    rcases d with ⟨name,typeName,_ | init,isConst⟩
    · exact .cons (Recorded.says_ok _) (ih hds)
    · exact .cons ((hd init rfl).draft.map _) (ih hds)

theorem says_declared {ds : List Declarator} {drafts : List (Draft (List String))}
    {groups : List (List String)} (h : List.Forall₂ Recorded.Says drafts groups) :
    (Printed.concat
      (List.zipWith (fun d lines => (lines.map (declare d)).printed) ds drafts)).Says
      (List.zipWith declare ds groups).flatten := by
  apply Printed.Says.concat
  induction h generalizing ds with
  | nil => cases ds <;> exact .nil
  | cons hx _ ih =>
    cases ds with
    | nil => exact .nil
    | cons d ds => exact .cons (hx.map (declare d)).printed ih

theorem says_parameter {p : Parameter}
    (h : ∀ n ∈ p.defaultValue, Plainly place n) :
    Plainly place (.parameter p) := by
  rcases p with ⟨name,typeName,_ | value,isConst,isRef⟩
  · exact Printed.says_text _
  · exact ((h value rfl).draft.map _).printed

theorem says_printParameters {ps : List Parameter}
    (h : ∀ p ∈ ps, ∀ n ∈ p.defaultValue, Plainly place n) :
    (Recorded.all (printParameters place ps)).Says (plainParameters place ps) := by
  apply Recorded.Says.all
  induction ps with
  | nil => exact .nil
  | cons p ps ih =>
    obtain ⟨hp,hps⟩ := List.forall_mem_cons.1 h
    rcases p with ⟨name,typeName,_ | value,isConst,isRef⟩
    · exact .cons (Recorded.says_ok _) (ih hps)
    · exact .cons ((hp value rfl).draft.map _) (ih hps)

theorem says_printChoices {cs : List Choice}
    (h : ∀ c ∈ cs, (∀ n ∈ c.condition, Plainly place n) ∧
      ∀ n ∈ c.statements, Plainly place n) :
    (Recorded.all (printChoices place cs)).Says (plainChoices place cs) := by
  apply Recorded.Says.all
  induction cs with
  | nil => exact .nil
  | cons c cs ih =>
    obtain ⟨⟨hcondition,hstatements⟩,hcs⟩ := List.forall_mem_cons.1 h
    rcases c with ⟨condition,statements⟩
    refine .cons ((says_members hstatements).bind ?_) (ih hcs)
    exact (says_printOption hcondition).map _

theorem says_printInits {ns : List Node}
    (h : ∀ n ∈ ns, Plainly place n)
    (hinit : ∀ ds, .declaration ds ∈ ns →
      List.Forall₂ Recorded.Says (printDeclarators place ds) (plainDeclarators place ds)) :
    (Recorded.all (printInits place ns)).Says (plainInits place ns) := by
  apply Recorded.Says.all
  induction ns with
  | nil => exact .nil
  | cons n ns ih =>
    obtain ⟨hn,hns⟩ := List.forall_mem_cons.1 h
    have hrest := ih hns fun ds hds => hinit ds (.tail _ hds)
    cases n with
    | declaration ds => exact .cons ((Recorded.Says.all (hinit ds (.head _))).map _) hrest
    | _ => exact .cons (hn.draft.map oneLine) hrest

theorem says_stepText {isFirst : Bool} {n : Node} (h : Plainly place n) :
    (stepText isFirst n (print place n)).Says (plainStep isFirst n (plain place n)) := by
  cases n with
  | reference name => exact Recorded.says_ok _
  | _ => exact h.draft.map oneLine

theorem says_path {steps : List Node} (h : ∀ n ∈ steps, Plainly place n) :
    (Recorded.all (pathTexts (steps.zip (printAll place steps)))).Says
      (plainPath (steps.zip (plainEach place steps))) := by
  have hlater : ∀ steps : List Node, (∀ n ∈ steps, Plainly place n) →
      List.Forall₂ Recorded.Says
        ((steps.zip (printAll place steps)).map fun s => stepText false s.1 s.2)
        ((steps.zip (plainEach place steps)).map fun s => plainStep false s.1 s.2) := by
    intro steps hsteps
    induction steps with
    | nil => exact .nil
    | cons n ns ih =>
      obtain ⟨hn,hns⟩ := List.forall_mem_cons.1 hsteps
      exact .cons (says_stepText hn) (ih hns)
  apply Recorded.Says.all
  cases steps with
  | nil => exact .nil
  | cons n ns =>
    obtain ⟨hn,hns⟩ := List.forall_mem_cons.1 h
    exact .cons (says_stepText hn) (hlater ns hns)

theorem says_functionDefinition {name : String} {ps : List Parameter} {returnType : Option String}
    {body : List Node}
    (hps : ∀ p ∈ ps, ∀ n ∈ p.defaultValue, Plainly place n)
    (hbody : ∀ n ∈ body, Plainly place.inFunction n) :
    (functionDraft place name ps returnType body).Says
      (plain place (.functionDefinition name ps returnType body)) := by
  refine (says_printParameters hps).bind ?_
  exact (says_members hbody).map _

end Inside

/-- Whether a node is printed together with all around it: no namespace is, and a function only
inside another one. -/
def InPlace (scope : Scope) (n : Node) : Prop :=
  ¬ n.IsNamespace ∧ (n.IsFunction → scope = .function)

theorem says_conditionalLines (test success failure : List String) :
    (match conditionalLines test success failure with
      | some lines => .ok lines
      | none => .fail .emptyPart : Draft (List String)).Says
      ((conditionalLines test success failure).getD []) := by
  cases conditionalLines test success failure with
  | none => exact Recorded.says_fail _ _
  | some lines => exact Recorded.says_ok lines

theorem plainly_of_children {place : Place} {n : Node} (hself : InPlace place.scope n)
    (h : ∀ c ∈ n.children, Plainly place c)
    (hinner : ∀ c ∈ n.children, ∀ m ∈ c.children, Plainly place m) : Plainly place n := by
  cases n with
  | namespaceBlock name body => exact absurd trivial hself.1
  | declaration ds =>
    exact says_declared (says_printDeclarators (Node.forall_children_declaration.1 h))
  | functionDefinition name ps returnType body =>
    have hscope : place.scope = .function := hself.2 trivial
    have hplace : place.inFunction = place := by rw [Place.inFunction,← hscope]
    obtain ⟨-,hbody⟩ := Node.forall_children_functionDefinition.1 h
    obtain ⟨hps,-⟩ := Node.forall_children_functionDefinition.1 hinner
    have hvalues := fun p hp => Node.forall_children_parameter.1 (hps p hp)
    rw [Plainly,print_function_inside hscope]
    exact (says_functionDefinition hvalues (hplace.symm ▸ hbody)).printed
  | parameter p => exact says_parameter (Node.forall_children_parameter.1 h)
  | block statements =>
    simp only [Node.children,Node.slots,List.map_map,List.forall_mem_map] at h
    exact ((says_members h).map _).printed
  | ifStatement cs =>
    exact ((says_printChoices (Node.forall_children_ifStatement.1 h)).map _).printed
  | forStatement init test update body =>
    obtain ⟨hinit,htest,hupdate,hbody⟩ := Node.forall_children_forStatement.1 h
    -- The declarations in the head are printed variable by variable, so their own parts count.
    obtain ⟨hdeclared,-⟩ := Node.forall_children_forStatement.1 hinner
    have hinits := says_printInits hinit fun ds hds =>
      says_printDeclarators (Node.forall_children_declaration.1 (hdeclared _ hds))
    refine (hinits.bind ?_).printed
    refine (says_printOption htest).bind ?_
    refine (says_printOption hupdate).bind ?_
    exact (says_members hbody).map _
  | whileStatement condition statements | switchStatement condition statements =>
    obtain ⟨hcondition,hstatements⟩ : Plainly place condition ∧
        ∀ n ∈ statements, Plainly place n := by
      simpa [Node.children,Node.slots] using h
    refine (hcondition.draft.bind ?_).printed
    exact (says_members hstatements).map _
  | doStatement statements condition =>
    obtain ⟨hstatements,hcondition⟩ := Node.forall_children_doStatement.1 h
    have hindented := ((says_members hstatements).map (indent 1)).printed
    have htail := (hcondition.draft.map fun lines => wrap "\x7d while (" lines ")").printed
    exact (Printed.says_text ["do \x7b"]).append (hindented.append htail.concat_singleton)
  | caseStatement isDefault test statements =>
    obtain ⟨htest,hstatements⟩ := Node.forall_children_caseStatement.1 h
    have hindented := ((says_members hstatements).map (indent 1)).printed
    cases isDefault with
    | true =>
      exact (Printed.says_text ["default:"]).append hindented.concat_singleton
    | false =>
      cases test with
      | none => exact (Recorded.says_fail _ _).printed
      | some test =>
        have hlabel := ((htest test rfl).draft.map fun lines => wrap "case " lines ":").printed
        exact hlabel.append hindented.concat_singleton
  | returnStatement value =>
    cases value with
    | none => exact Printed.says_text _
    | some value => exact ((h value (.head _)).draft.map _).printed
  | binaryExpression operator left right =>
    have hleft := h left (.head _)
    cases right with
    | none => exact (hleft.draft.map _).printed
    | some right =>
      refine (hleft.draft.bind ?_).printed
      exact (h right (.tail _ (.head _))).draft.map _
  | conditionalExpression test success failure =>
    obtain ⟨htest,hsuccess,hfailure⟩ := Node.forall_children_conditionalExpression.1 h
    refine (htest.draft.bind ?_).printed
    refine hsuccess.draft.bind ?_
    refine hfailure.draft.bind ?_
    exact says_conditionalLines _ _ _
  | assignmentExpression left operator right =>
    refine ((h left (.head _)).draft.bind ?_).printed
    exact (h right (.tail _ (.head _))).draft.map _
  | callExpression callee arguments =>
    obtain ⟨hcallee,harguments⟩ := Node.forall_children_callExpression.1 h
    refine (hcallee.draft.bind ?_).printed
    exact (says_arguments harguments).map _
  | path steps =>
    rw [Node.children_path] at h
    exact ((says_path h).map _).printed
  | throwStatement value | unaryExpression operator value
  | updateExpression operator value isPostfix | parenthesizedExpression value | index value =>
    exact ((h value (.head _)).draft.map _).printed
  | breakStatement | continueStatement | reference name | numberLiteral value
  | booleanLiteral value | nullLiteral | stringLiteral value | userDefinedLiteral text =>
    exact Printed.says_text _

/-- A node that has nothing in it to open a segment for is printed as its plain lines. -/
theorem plainly_of_inPlace {place : Place} (n : Node) (h : Everywhere (InPlace place.scope) [n]) :
    Plainly place n :=
  h.induct fun _ hself _ hchildren hinside => plainly_of_children hself hchildren hinside

theorem plainly_of_neither (place : Place) {n : Node}
    (h : Everywhere (fun n => ¬ n.IsNamespace ∧ ¬ n.IsFunction) [n]) : Plainly place n :=
  plainly_of_inPlace n (h.mono fun _ hm => ⟨hm.1,fun hm' => absurd hm' hm.2⟩)

theorem Plainly.flatten_segmentsOf {place : Place} {n : Node} (h : Plainly place n)
    (hok : failureAt place n = none) : (segmentsOf place n).flatten = plain place n := by
  simp [segmentsOf,Printed.inSegment,h.lines hok,h.opened]

theorem flatten_flatMap_segmentsOf {place : Place} {ns : List Node}
    (h : ∀ n ∈ ns, (segmentsOf place n).flatten = plain place n) :
    (ns.flatMap (segmentsOf place)).flatten = (plainEach place ns).flatten := by
  induction ns with
  | nil => rfl
  | cons n ns ih =>
    obtain ⟨hn,hns⟩ := List.forall_mem_cons.1 h
    rw [List.flatMap_cons,List.flatten_append,hn,ih hns,plainEach,List.flatten_cons]

theorem flatten_segmentsOf {n : Node} (h : DeclarationShaped n) : ∀ place : Place,
    place.scope ≠ .function → failureAt place n = none →
      (segmentsOf place n).flatten = plain place n := by
  induction h with
  | @namespaceBlock name body _ ih =>
    intro place _ hok
    obtain ⟨hbody,hsegments⟩ := segmentsOf_namespaceBlock hok
    rw [hsegments,plain,List.flatten_cons,List.nil_append]
    exact flatten_flatMap_segmentsOf fun n hn => ih n hn (place.enter name) nofun (hbody n hn)
  | @functionDefinition name ps returnType body hps hbody =>
    intro place hscope hok
    have hvalues : ∀ p ∈ ps, ∀ n ∈ p.defaultValue, Plainly place n := by
      intro p hp
      have hp' := everywhere_iff.1 hps (.parameter p) (List.mem_map_of_mem hp)
      have hinside := everywhere_iff.1 (everywhere_singleton.1 hp').2
      exact Node.forall_children_parameter.1 fun c hc => plainly_of_neither place (hinside c hc)
    have hmembers : ∀ n ∈ body, Plainly place.inFunction n := fun n hn =>
      plainly_of_inPlace n (everywhere_iff.1 (hbody.mono fun m hm => ⟨hm,fun _ => rfl⟩) n hn)
    rw [failureAt,print_function_outside hscope,Printed.failure_inSegment] at hok
    have hprinted : (functionDraft place name ps returnType body).printed.Says _ :=
      (says_functionDefinition hvalues hmembers).printed
    simp [segmentsOf,print_function_outside hscope,Printed.inSegment,hprinted.lines hok,
      hprinted.opened]
  | other hinside =>
    intro place _ hok
    exact (plainly_of_neither place hinside).flatten_segmentsOf hok

/-- The text of a document is that of the plain lines of its program. -/
theorem text_eq_plainProgram {program : List Node} {d : Document}
    (hshape : ∀ n ∈ program, DeclarationShaped n) (hd : document program = .ok d) :
    d.text = join "\n" (plainProgram program) := by
  obtain ⟨hok,hsegments⟩ := segments_of_document hd
  have hflat : d.segments.flatten = plainProgram program := by
    rw [hsegments]
    exact flatten_flatMap_segmentsOf fun n hn =>
      flatten_segmentsOf (hshape n hn) .top nofun (hok n hn)
  rw [Document.text,← join_flatten,hflat]

/-- A function with another one inside and two variables, at three depths of namespaces. -/
def nestedProgram : List Node :=
  [.namespaceBlock "a"
    [.functionDefinition "f" [⟨"n", some "number", some (.numberLiteral "1"), false, false⟩] none
      [.functionDefinition "g" [] none [.returnStatement none]],
      .namespaceBlock "b" [.declaration [⟨"x", some "number", some (.reference "n"), true⟩]],
      .namespaceBlock "c" []],
    .declaration [⟨"y", some "number", none, false⟩]]

def nestedDocument : Document :=
  ⟨[[], [], ["function a_f(n: number = 1) \x7b", "  function g() \x7b", "    return", "  \x7d",
    "\x7d"], [], ["const a_b_x: number = n"], [], ["let y: number"]]⟩

theorem text_nestedDocument : (∀ n ∈ nestedProgram, DeclarationShaped n) ∧
    document nestedProgram = .ok nestedDocument ∧
    nestedDocument.text = join "\n" (plainProgram nestedProgram) := by
  have hshape : ∀ n ∈ nestedProgram, DeclarationShaped n := by
    refine List.forall_mem_cons.2 ⟨.namespaceBlock ?_,List.forall_mem_singleton.2 (.other ?_)⟩
    · refine List.forall_mem_cons.2 ⟨.functionDefinition ?_ ?_,List.forall_mem_cons.2
        ⟨.namespaceBlock (List.forall_mem_singleton.2 (.other ?_)),
          List.forall_mem_singleton.2 (.namespaceBlock nofun)⟩⟩ <;>
        simp [everywhere_cons,Node.children,Node.slots,Node.IsNamespace,Node.IsFunction]
    · simp [everywhere_cons,Node.children,Node.slots,Node.IsNamespace,Node.IsFunction]
  have hd : document nestedProgram = .ok nestedDocument := rfl
  exact ⟨hshape,hd,text_eq_plainProgram hshape hd⟩

end Printing
end Scribe
