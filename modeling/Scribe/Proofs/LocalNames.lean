import Scribe.Proofs.PlainPrinting
import Scribe.Proofs.PrintingFaults

/-! Names inside functions. The names of the namespaces around are read only where a member of a
namespace is declared. At the top and inside functions nothing depends on them, as long as no
namespace is entered; of a function that is a member only the signature does. -/
namespace Scribe
namespace Printing
open Program Text

/-- Places that differ in the namespaces around them only, and where names are declared as they
are. -/
structure Alike (p q : Place) : Prop where
  scope : p.scope = q.scope
  not_member : p.scope ≠ .namespaceMember

theorem Alike.inFunction (p q : Place) : Alike p.inFunction q.inFunction :=
  ⟨rfl,by simp [Place.inFunction]⟩

theorem Alike.declare {p q : Place} (h : Alike p q) (name : String) :
    p.declare name = q.declare name := by
  obtain ⟨hscope,hmember⟩ := h
  unfold Place.declare
  rw [← hscope]
  cases hp : p.scope with
  | namespaceMember => exact absurd hp hmember
  | none => rfl
  | function => rfl

/-- A node is printed the same wherever places are alike. -/
def Unmoved (n : Node) : Prop := ∀ p q, Alike p q → print p n = print q n

section Inside
variable {p q : Place} (halike : Alike p q)
include halike

theorem printAll_unmoved {ns : List Node} (h : ∀ n ∈ ns, Unmoved n) :
    printAll p ns = printAll q ns := by
  rw [printAll_eq_map,printAll_eq_map]
  exact List.map_congr_left fun n hn => h n hn p q halike

theorem printOption_unmoved {o : Option Node} (h : ∀ n ∈ o, Unmoved n) :
    printOption p o = printOption q o := by
  cases o with
  | none => rfl
  | some n => rw [printOption,printOption,h n rfl p q halike]

theorem printDeclarators_unmoved {ds : List Declarator}
    (h : ∀ d ∈ ds, ∀ n ∈ d.init, Unmoved n) : printDeclarators p ds = printDeclarators q ds := by
  induction ds with
  | nil => rfl
  | cons d ds ih =>
    obtain ⟨hd,hds⟩ := List.forall_mem_cons.1 h
    rcases d with ⟨name,typeName,_ | init,isConst⟩
    · rw [printDeclarators,printDeclarators,halike.declare,ih hds]
    · rw [printDeclarators,printDeclarators,halike.declare,ih hds,hd init rfl p q halike]

theorem printParameters_unmoved {ps : List Parameter}
    (h : ∀ x ∈ ps, ∀ n ∈ x.defaultValue, Unmoved n) :
    printParameters p ps = printParameters q ps := by
  induction ps with
  | nil => rfl
  | cons x ps ih =>
    obtain ⟨hx,hps⟩ := List.forall_mem_cons.1 h
    rcases x with ⟨name,typeName,_ | value,isConst,isRef⟩
    · rw [printParameters,printParameters,ih hps]
    · rw [printParameters,printParameters,ih hps,hx value rfl p q halike]

theorem printChoices_unmoved {cs : List Choice}
    (h : ∀ c ∈ cs, (∀ n ∈ c.condition, Unmoved n) ∧ ∀ n ∈ c.statements, Unmoved n) :
    printChoices p cs = printChoices q cs := by
  induction cs with
  | nil => rfl
  | cons c cs ih =>
    obtain ⟨⟨hcondition,hstatements⟩,hcs⟩ := List.forall_mem_cons.1 h
    rcases c with ⟨condition,statements⟩
    rw [printChoices,printChoices,ih hcs,printAll_unmoved halike hstatements,
      printOption_unmoved halike hcondition]

theorem printInits_unmoved {ns : List Node} (h : ∀ n ∈ ns, Unmoved n)
    (hinit : ∀ ds, .declaration ds ∈ ns → printDeclarators p ds = printDeclarators q ds) :
    printInits p ns = printInits q ns := by
  induction ns with
  | nil => rfl
  | cons n ns ih =>
    obtain ⟨hn,hns⟩ := List.forall_mem_cons.1 h
    have hrest := ih hns fun ds hds => hinit ds (.tail _ hds)
    cases n with
    | declaration ds => rw [printInits,printInits,hinit ds (.head _),hrest]
    | _ => simp only [printInits,hn p q halike,hrest]

theorem functionDraft_unmoved (name : String) {ps : List Parameter} (returnType : Option String)
    {body : List Node} (hps : ∀ x ∈ ps, ∀ n ∈ x.defaultValue, Unmoved n)
    (hbody : ∀ n ∈ body, Unmoved n) :
    functionDraft p name ps returnType body = functionDraft q name ps returnType body := by
  rw [functionDraft,functionDraft,printParameters_unmoved halike hps,halike.declare,
    printAll_unmoved (.inFunction p q) hbody]

end Inside

theorem unmoved_of_children {n : Node} (hself : ¬n.IsNamespace) (h : ∀ c ∈ n.children, Unmoved c)
    (hinner : ∀ c ∈ n.children, ∀ m ∈ c.children, Unmoved m) : Unmoved n := by
  intro p q halike
  cases n with
  | namespaceBlock name body => exact absurd trivial hself
  | declaration ds =>
    rw [print,print,printDeclarators_unmoved halike (Node.forall_children_declaration.1 h)]
  | functionDefinition name ps returnType body =>
    obtain ⟨-,hbody⟩ := Node.forall_children_functionDefinition.1 h
    -- A parameter is printed by its signature, which asks for its value and not for itself.
    obtain ⟨hps,-⟩ := Node.forall_children_functionDefinition.1 hinner
    have hdraft := functionDraft_unmoved halike name returnType
      (fun x hx => Node.forall_children_parameter.1 (hps x hx)) hbody
    by_cases hscope : p.scope = .function
    · rw [print_function_inside hscope,print_function_inside (halike.scope ▸ hscope),hdraft]
    · rw [print_function_outside hscope,print_function_outside (halike.scope ▸ hscope),hdraft]
  | parameter x =>
    have hvalue := Node.forall_children_parameter.1 h
    rcases x with ⟨name,typeName,_ | value,isConst,isRef⟩
    · rfl
    · rw [print,print,hvalue value rfl p q halike]
  | block statements =>
    simp only [Node.children,Node.slots,List.map_map,List.forall_mem_map] at h
    rw [print,print,printAll_unmoved halike h]
  | ifStatement cs =>
    rw [print,print,printChoices_unmoved halike (Node.forall_children_ifStatement.1 h)]
  | forStatement init test update body =>
    obtain ⟨hinit,htest,hupdate,hbody⟩ := Node.forall_children_forStatement.1 h
    obtain ⟨hdeclared,-⟩ := Node.forall_children_forStatement.1 hinner
    have hinits := printInits_unmoved halike hinit fun ds hds =>
      printDeclarators_unmoved halike (Node.forall_children_declaration.1 (hdeclared _ hds))
    rw [print,print,hinits,printOption_unmoved halike htest,printOption_unmoved halike hupdate,
      printAll_unmoved halike hbody]
  | whileStatement condition statements | switchStatement condition statements
  | doStatement statements condition =>
    obtain ⟨hcondition,hstatements⟩ : Unmoved condition ∧ ∀ n ∈ statements, Unmoved n := by
      simpa [Node.children,Node.slots,or_imp,forall_and,and_comm] using h
    rw [print,print,hcondition p q halike,printAll_unmoved halike hstatements]
  | caseStatement isDefault test statements =>
    obtain ⟨htest,hstatements⟩ := Node.forall_children_caseStatement.1 h
    cases isDefault with
    | true => rw [print,print,printAll_unmoved halike hstatements]
    | false =>
      cases test with
      | none => rfl
      | some test => rw [print,print,htest test rfl p q halike,printAll_unmoved halike hstatements]
  | returnStatement value =>
    cases value with
    | none => rfl
    | some value => rw [print,print,h value (.head _) p q halike]
  | binaryExpression operator left right =>
    have hleft := h left (.head _) p q halike
    cases right with
    | none => rw [print,print,hleft]
    | some right => rw [print,print,hleft,h right (.tail _ (.head _)) p q halike]
  | conditionalExpression test success failure =>
    obtain ⟨htest,hsuccess,hfailure⟩ := Node.forall_children_conditionalExpression.1 h
    rw [print,print,htest p q halike,hsuccess p q halike,hfailure p q halike]
  | assignmentExpression left operator right =>
    rw [print,print,h left (.head _) p q halike,h right (.tail _ (.head _)) p q halike]
  | callExpression callee arguments =>
    obtain ⟨hcallee,harguments⟩ := Node.forall_children_callExpression.1 h
    rw [print,print,hcallee p q halike,printAll_unmoved halike harguments]
  | path steps =>
    rw [Node.children_path] at h
    rw [print,print,printAll_unmoved halike h]
  | throwStatement value | unaryExpression operator value | parenthesizedExpression value
  | updateExpression operator value isPostfix | index value =>
    rw [print,print,h value (.head _) p q halike]
  | breakStatement | continueStatement | reference name | numberLiteral value
  | booleanLiteral value | nullLiteral | stringLiteral value | userDefinedLiteral text => rfl

/-- What holds no namespace is printed the same wherever places are alike. -/
theorem unmoved_of_no_namespace (n : Node) (h : Everywhere (¬ ·.IsNamespace) [n]) : Unmoved n :=
  h.induct fun _ hself _ hchildren hinside => unmoved_of_children hself hchildren hinside

section Faults
variable {p q : Place}

/-- Either both places are inside functions, or neither is. -/
def SameSide (p q : Place) : Prop := p.scope = .function ↔ q.scope = .function

theorem isLineless_sameSide (h : SameSide p q) (n : Node) : isLineless p n = isLineless q n := by
  cases n with
  | functionDefinition name ps returnType body =>
    rw [isLineless,isLineless,Bool.eq_iff_iff,bne_iff_ne,bne_iff_ne]
    exact not_congr h
  | _ => rfl

theorem fault_sameSide (h : SameSide p q) (n : Node) : fault p n = fault q n := by
  cases n with
  | conditionalExpression test success failure =>
    simp only [fault,funext (isLineless_sameSide h)]
  | caseStatement isDefault test statements => cases isDefault <;> cases test <;> rfl
  | _ => rfl

theorem visits_sameSide (h : SameSide p q) (n : Node) :
    List.Forall₂ (fun v w => SameSide v.1 w.1 ∧ v.2 = w.2) (visits p n) (visits q n) := by
  have hmap : ∀ {p q : Place}, SameSide p q → ∀ ns : List Node,
      List.Forall₂ (fun v w => SameSide v.1 w.1 ∧ v.2 = w.2) (ns.map (p, ·)) (ns.map (q, ·)) := by
    intro p q hside ns
    rw [List.forall₂_map_left_iff,List.forall₂_map_right_iff,List.forall₂_same]
    exact fun n _ => ⟨hside,rfl⟩
  cases n with
  | namespaceBlock name body => exact hmap (p := p.enter name) (q := q.enter name) Iff.rfl body
  | functionDefinition name ps returnType body =>
    exact List.rel_append (hmap h _) (hmap (p := p.inFunction) (q := q.inFunction) Iff.rfl body)
  | caseStatement isDefault test statements =>
    cases isDefault with
    | true => exact hmap h statements
    | false =>
      cases test with
      | none => exact .nil
      | some test => exact hmap h (Node.caseStatement false (some test) statements).children
  | ifStatement choices => exact hmap h _
  | _ => exact hmap h (Node.children _)

theorem findSome?_forall₂ {α β γ : Type} {xs : List α} {ys : List β} {f : α → Option γ}
    {g : β → Option γ} (h : List.Forall₂ (fun x y => f x = g y) xs ys) :
    xs.findSome? f = ys.findSome? g := by
  induction h with
  | nil => rfl
  | cons hxy _ ih => rw [findSome?_cons_eq_or,findSome?_cons_eq_or,hxy,ih]

/-- A node fails alike on one side, whatever the namespaces around it. -/
theorem failureAt_sameSide (n : Node) : ∀ {p q : Place}, SameSide p q →
    failureAt p n = failureAt q n := by
  induction n using Node.induct_children with
  | step n ih =>
    intro p q h
    have hvisits : (visits p n).findSome? (fun v => failureAt v.1 v.2) =
        (visits q n).findSome? fun v => failureAt v.1 v.2 := by
      have hinside := (List.forall₂_and_left _ _).2
        ⟨fun v hv => mem_children_of_visits hv,visits_sameSide h n⟩
      apply findSome?_forall₂ (hinside.imp _)
      rintro ⟨p',c⟩ ⟨q',_⟩ ⟨hc,hside,rfl⟩
      exact ih c hc hside
    rw [failureAt_eq,failureAt_eq,hvisits]
    cases hfirst : (visits q n).findSome? fun v => failureAt v.1 v.2 with
    | some e => rfl
    | none =>
      rw [ownFailure_eq_fault (List.findSome?_eq_none_iff.1 hfirst),
        ownFailure_eq_fault (List.findSome?_eq_none_iff.1 (hvisits.trans hfirst)),
        fault_sameSide h]

end Faults

theorem failure?_printParameters_sameSide {p q : Place} (h : SameSide p q) (ps : List Parameter) :
    (Recorded.all (printParameters p ps)).failure? =
      (Recorded.all (printParameters q ps)).failure? := by
  simp only [Recorded.failure?_all,failure_printParameters]
  congr 1
  exact funext fun n => failureAt_sameSide n h

section Functions
variable {place : Place} (name : String) {ps : List Parameter} (returnType : Option String)
  {body : List Node}

theorem print_function_of_ok {texts lines : List String} (hscope : place.scope ≠ .function)
    (hps : (Recorded.all (printParameters place ps)).result = .ok texts)
    (hbody : (Printed.concat (printAll place.inFunction body)).draft.result = .ok lines) :
    print place (.functionDefinition name ps returnType body) =
      ⟨[],((signature (place.declare name) texts returnType ++ " \x7b") ::
          (indent 1 lines ++ ["\x7d"])) ::
        (functionDraft place name ps returnType body).record,none⟩ := by
  rw [print_function_outside hscope,functionDraft]
  simp [Recorded.bind,hps,hbody,Except.map,Recorded.printed,Printed.inSegment,braced,wrap,closeWith]

theorem print_function_of_error {e : Failure} (hscope : place.scope ≠ .function)
    (h : (Recorded.all (printParameters place ps)).failure?.or
      (Printed.concat (printAll place.inFunction body)).draft.failure? = some e) :
    print place (.functionDefinition name ps returnType body) =
      ⟨[],[] :: (functionDraft place name ps returnType body).record,some e⟩ := by
  have hdraft : (functionDraft place name ps returnType body).failure? = some e := by
    rw [functionDraft,Recorded.failure?_bind_map,h]
  rw [print_function_outside hscope]
  cases hresult : (functionDraft place name ps returnType body).result with
  | ok lines => simp [Recorded.failure?,hresult] at hdraft
  | error e' =>
    obtain rfl : e' = e := by simpa [Recorded.failure?,hresult] using hdraft
    simp [Recorded.printed,Printed.inSegment,hresult]

theorem record_functionDraft
    (hps : Everywhere (fun n => ¬n.IsNamespace ∧ ¬n.IsFunction) (ps.map .parameter))
    (hbody : Everywhere (¬ ·.IsNamespace) body) :
    (functionDraft place name ps returnType body).record = [] := by
  have hvalues : ∀ x ∈ ps, ∀ n ∈ x.defaultValue, Plainly place n := by
    intro x hx
    have hinside := everywhere_iff.1 hps (.parameter x) (List.mem_map_of_mem hx)
    have hvalue := everywhere_iff.1 (everywhere_singleton.1 hinside).2
    exact Node.forall_children_parameter.1 fun c hc => plainly_of_neither place (hvalue c hc)
  have hmembers : ∀ n ∈ body, Plainly place.inFunction n := fun n hn =>
    plainly_of_inPlace n (everywhere_iff.1 (hbody.mono fun m hm => ⟨hm,fun _ => rfl⟩) n hn)
  exact (says_functionDefinition hvalues hmembers).record

end Functions

/-- A function that is a member of the namespaces of a path is printed as at the top except for its
signature: all lines behind it are the same, or both fail alike. Further segments are opened only
for functions and namespaces in its parameters. -/
def QualifiedInSignature (path : List String) (name : String) (ps : List Parameter)
    (returnType : Option String) (body : List Node) : Prop :=
  ∃ more more',
    (Everywhere (fun n => ¬n.IsNamespace ∧ ¬n.IsFunction) (ps.map .parameter) →
      more = [] ∧ more' = []) ∧
    ((∃ texts texts' rest,
      print ⟨path,.namespaceMember⟩ (.functionDefinition name ps returnType body) =
        ⟨[],((signature (join "_" (path ++ [name])) texts returnType ++ " \x7b") :: rest) :: more,
          none⟩ ∧
      print .top (.functionDefinition name ps returnType body) =
        ⟨[],((signature name texts' returnType ++ " \x7b") :: rest) :: more',none⟩) ∨
    ∃ e,
      print ⟨path,.namespaceMember⟩ (.functionDefinition name ps returnType body) =
        ⟨[],[] :: more,some e⟩ ∧
      print .top (.functionDefinition name ps returnType body) = ⟨[],[] :: more',some e⟩)

theorem qualifiedInSignature (path : List String) (name : String) (ps : List Parameter)
    (returnType : Option String) {body : List Node} (hbody : Everywhere (¬ ·.IsNamespace) body) :
    QualifiedInSignature path name ps returnType body := by
  let member : Place := ⟨path,.namespaceMember⟩
  have hmember : member.scope ≠ .function := by simp [member]
  have htop : Place.top.scope ≠ .function := by simp [Place.top]
  have hstatements : printAll member.inFunction body = printAll Place.top.inFunction body :=
    printAll_unmoved (.inFunction _ _) fun n hn =>
      unmoved_of_no_namespace n (everywhere_iff.1 hbody n hn)
  have hparameters := failure?_printParameters_sameSide (p := member) (q := .top)
    (iff_of_false hmember htop) ps
  refine ⟨(functionDraft member name ps returnType body).record,
    (functionDraft .top name ps returnType body).record,fun hquiet =>
      ⟨record_functionDraft _ _ hquiet hbody,record_functionDraft _ _ hquiet hbody⟩,?_⟩
  cases hfailure : (Recorded.all (printParameters member ps)).failure?.or
      (Printed.concat (printAll member.inFunction body)).draft.failure? with
  | some e =>
    have hfailure' := hfailure
    rw [hparameters,hstatements] at hfailure'
    exact .inr ⟨e,print_function_of_error name returnType hmember hfailure,
      print_function_of_error name returnType htop hfailure'⟩
  | none =>
    obtain ⟨hps,hmembers⟩ := Option.or_eq_none_iff.1 hfailure
    obtain ⟨texts,htexts⟩ := Recorded.failure?_eq_none_iff.1 hps
    obtain ⟨texts',htexts'⟩ := Recorded.failure?_eq_none_iff.1 (hparameters ▸ hps)
    obtain ⟨lines,hlines⟩ := Recorded.failure?_eq_none_iff.1 hmembers
    exact .inl ⟨texts,texts',indent 1 lines ++ ["\x7d"],
      print_function_of_ok name returnType hmember htexts hlines,
      print_function_of_ok name returnType htop htexts' (hstatements ▸ hlines)⟩

/-- At the top and inside functions, what holds no namespace is printed as if no namespaces were
around, and of a function that is a member of a namespace, and has none in its body, only the
signature tells where it stands. -/
theorem print_apart_from_path :
    (∀ n : Node, Everywhere (¬ ·.IsNamespace) [n] → ∀ scope : Scope, scope ≠ .namespaceMember →
      ∀ path path' : List String, print ⟨path,scope⟩ n = print ⟨path',scope⟩ n) ∧
    ∀ (name : String) (ps : List Parameter) (returnType : Option String) (body : List Node),
      Everywhere (¬ ·.IsNamespace) body →
        ∀ path : List String, QualifiedInSignature path name ps returnType body := by
  constructor
  · intro n hn scope hscope path path'
    exact unmoved_of_no_namespace n hn _ _ ⟨rfl,hscope⟩
  · intro name ps returnType body hbody path
    exact qualifiedInSignature path name ps returnType hbody

/-- Statements that declare a variable and a function. -/
def declaringStatements : List Node :=
  [.declaration [⟨"x",some "number",some (.reference "n"),false⟩],
    .functionDefinition "g" [] none [.returnStatement (some (.reference "x"))]]

theorem print_apart_from_path_declaringStatements :
    Everywhere (¬ ·.IsNamespace) declaringStatements ∧
    print ⟨["a"],.function⟩ (.block declaringStatements) =
      print ⟨["b","c"],.function⟩ (.block declaringStatements) ∧
    QualifiedInSignature ["a","b"] "f" [⟨"n",none,some (.numberLiteral "1"),false,false⟩] none
      declaringStatements := by
  have hnone : Everywhere (¬ ·.IsNamespace) declaringStatements := by
    simp [declaringStatements,everywhere_cons,Node.children,Node.slots,Node.IsNamespace]
  have hblock : Everywhere (¬ ·.IsNamespace) [.block declaringStatements] := by
    simp [declaringStatements,everywhere_cons,Node.children,Node.slots,Node.IsNamespace]
  exact ⟨hnone,print_apart_from_path.1 _ hblock .function (by decide) ["a"] ["b","c"],
    print_apart_from_path.2 "f" _ none _ hnone ["a","b"]⟩

/-- A function in a parameter of a function without statements. -/
def callbackFunction : Node :=
  .functionDefinition "f" [⟨"x",none,some (.functionDefinition "g" [] none []),false,false⟩] none []

/-- A parameter is outside of its function, so a function in it is a member of the namespace. -/
theorem opened_callbackFunction :
    Everywhere (¬ ·.IsNamespace) ([] : List Node) ∧
    (print ⟨["a"],.namespaceMember⟩ callbackFunction).opened =
      [["function a_f(x =) \x7b","\x7d"],["function a_g() \x7b","\x7d"]] ∧
    (print .top callbackFunction).opened =
      [["function f(x =) \x7b","\x7d"],["function g() \x7b","\x7d"]] ∧
    (print ⟨["a"],.namespaceMember⟩ callbackFunction).opened.flatten.tail ≠
      (print .top callbackFunction).opened.flatten.tail := by
  have hmember : (print ⟨["a"],.namespaceMember⟩ callbackFunction).opened =
      [["function a_f(x =) \x7b","\x7d"],["function a_g() \x7b","\x7d"]] := by rfl
  have htop : (print .top callbackFunction).opened =
      [["function f(x =) \x7b","\x7d"],["function g() \x7b","\x7d"]] := by rfl
  refine ⟨everywhere_nil,hmember,htop,?_⟩
  simp [hmember,htop]

end Printing
end Scribe
