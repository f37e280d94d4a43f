import Scribe.Proofs.NestedItems

/-! Declared names. An item that declares a plain identifier, as a variable or as a function,
stands for a node that declares the same name. -/
namespace Scribe
namespace Reading
open Program

section Leaves
variable {context : String}

theorem run_leaf (children : List ParseTree) : Run .leaf context () children () := by
  induction children with
  | nil => exact .done _
  | cons child rest ih => exact .keep rfl ih

theorem read_leaf (tree : ParseTree) : (read .leaf context tree).result = .ok tree.text :=
  read_eq_ok.2 ⟨(),run_leaf _,.inl rfl⟩

end Leaves

/-- A declarator of a variable: an identifier, with any number of declarators around it in which
it is the first to declare a name. -/
inductive NamesVariable (x : String) : ParseTree → Prop
  | identifier {tree : ParseTree} : tree.kind = "identifier" → tree.text = x →
      NamesVariable x tree
  | wrapped {tree inner : ParseTree} {before after : List ParseTree} :
      tree.kind ∈ Rule.kinds .declaredName → tree.children = before ++ inner :: after →
      (∀ c ∈ before, name? c.kind = none) → NamesVariable x inner → NamesVariable x tree

/-- A declarator of a function: a function declarator with an identifier, perhaps wrapped as
one that gives a pointer or a reference. -/
inductive NamesFunction (x : String) : ParseTree → Prop
  | declarator {tree name : ParseTree} : tree.kind = "function_declarator" →
      name ∈ tree.children → name.kind = "identifier" → name.text = x → NamesFunction x tree
  | wrapped {tree inner : ParseTree} {before after : List ParseTree} :
      tree.kind ∈ wrappingDeclarators → tree.children = before ++ inner :: after →
      (∀ c ∈ before, ¬declaresFunction c) → NamesFunction x inner → NamesFunction x tree

/-- An item that declares an identifier: a declaration of variables, with or without initial
values, or the definition of a function. -/
inductive DeclaresIdentifier (x : String) : ParseTree → Prop
  | bare {tree declarator : ParseTree} : tree.kind = "declaration" →
      declarator ∈ tree.children → ¬declaresFunction declarator → NamesVariable x declarator →
      DeclaresIdentifier x tree
  | initialized {tree init declarator : ParseTree} {before after : List ParseTree} :
      tree.kind = "declaration" → init ∈ tree.children → init.kind = "init_declarator" →
      init.children = before ++ declarator :: after → (∀ c ∈ before, c.kind ≠ "=") →
      NamesVariable x declarator → DeclaresIdentifier x tree
  | function {tree declarator : ParseTree} : tree.kind = "function_definition" →
      declarator ∈ tree.children → NamesFunction x declarator → DeclaresIdentifier x tree

/-- Nodes that declare a name: a declaration with a variable of that name, or a function. -/
inductive DeclaresName (x : String) : List Node → Prop
  | declaration {earlier later : List Declarator} {v : Declarator} : v.name = x →
      DeclaresName x [.declaration (earlier ++ v :: later)]
  | function {parameters : List Parameter} {returnType : Option String} {body : List Node} :
      DeclaresName x [.functionDefinition x parameters returnType body]

theorem DeclaresIdentifier.item? {x : String} {tree : ParseTree} (h : DeclaresIdentifier x tree) :
    ∃ plan, Reading.item? tree.kind = some plan := by
  cases h with
  | bare hkind | initialized hkind =>
    refine ⟨.nested .declaration id,?_⟩
    rw [hkind]
    rfl
  | function hkind =>
    refine ⟨.nested .functionDefinition List.singleton,?_⟩
    rw [hkind]
    rfl

def variableKinds : List String := "identifier" :: Rule.kinds .declaredName

theorem NamesVariable.kind_mem {x : String} {tree : ParseTree} (h : NamesVariable x tree) :
    tree.kind ∈ variableKinds := by
  cases h with
  | identifier hkind => exact hkind ▸ List.mem_cons_self
  | wrapped hkind => exact List.mem_cons_of_mem _ hkind

theorem not_isNoise_of_variable {kind : String} (h : kind ∈ variableKinds) : ¬isNoise kind := by
  have hnoise : ∀ kind ∈ variableKinds, ¬isNoise kind := by decide
  exact hnoise kind h

section Variables
variable {context x : String} {child : ParseTree}

theorem Step.declaredName {s next : Option String} (h : Step .declaredName context s child next) :
    ((s ≠ none ∨ ¬(name? child.kind).isSome) ∧ next = s) ∨
      (s = none ∧ (name? child.kind).isSome ∧
        ∃ name, (∃ plan value, name? child.kind = some plan ∧
          (read plan.rule context child).result = .ok value ∧ plan.build value = name) ∧
          next = some name) := by
  cases s with
  | some name => exact .inl ⟨.inl nofun,h.of_keep rfl⟩
  | none =>
    cases hplan : name? child.kind with
    | none =>
      have hstep : stepDeclaredName none (head child) = .keep none := by
        simp [stepDeclaredName,head,hplan]
      exact .inl ⟨.inr nofun,h.of_keep hstep⟩
    | some plan =>
      have hstep : stepDeclaredName none (head child) = .descend (plan.map some) := by
        simp [stepDeclaredName,head,hplan]
      obtain ⟨value,hread,hnext⟩ := h.of_descend hstep
      exact .inr ⟨rfl,rfl,_,⟨plan,value,rfl,hread,rfl⟩,hnext⟩

theorem NamesVariable.read {tree : ParseTree} (h : NamesVariable x tree) :
    ∀ {plan : Plan String}, name? tree.kind = some plan → ∀ {context value},
      (Reading.read plan.rule context tree).result = .ok value → plan.build value = x := by
  induction h with
  | @identifier tree hkind htext =>
    intro plan hplan context value hread
    rw [hkind] at hplan
    obtain rfl : Plan.direct .leaf id = plan := Option.some.inj hplan
    have hvalue := Except.ok.inj ((read_leaf tree).symm.trans hread)
    exact hvalue.symm.trans htext
  | @wrapped tree inner before after hkind hsplit hbefore hinner ih =>
    intro plan hplan context value hread
    have hwrapper : ∀ kind ∈ Rule.kinds .declaredName, ∀ plan, name? kind = some plan →
        plan = .direct .declaredName id := by
      simp only [Rule.kinds,List.forall_mem_cons]
      exact ⟨fun _ h => (Option.some.inj h).symm,fun _ h => (Option.some.inj h).symm,
        fun _ h => (Option.some.inj h).symm,List.forall_mem_nil _⟩
    obtain rfl := hwrapper _ hkind _ hplan
    obtain ⟨s,hrun,hfinish⟩ := read_eq_ok.1 hread
    rw [hsplit,heard_append,heard_cons (not_isNoise_of_variable hinner.kind_mem)] at hrun
    have hnamed : ∀ kind ∈ variableKinds, (name? kind).isSome := by decide
    obtain ⟨name,⟨plan,value',hplan,hvalue,hname⟩,hfinal⟩ :=
      hrun.finds_first (fun s : Option String => s) (fun c => (name? c.kind).isSome) _
        (fun _ _ _ => Step.declaredName) rfl
        (fun c hc => by simp [hbefore c (mem_heard.1 hc).1]) (hnamed _ hinner.kind_mem)
    obtain rfl : name = x := hname.symm.trans (ih hplan hvalue)
    subst hfinal
    exact Ending.eq_of_done hfinish

theorem Step.initDeclarator {s next : InitSlots} (h : Step .initDeclarator context s child next) :
    (child.kind = "=" ∧ next = { s with seenEquals := true }) ∨
      (s.seenEquals = false ∧ s.name = none ∧ ∃ plan value, name? child.kind = some plan ∧
        (read plan.rule context child).result = .ok value ∧
        next = { s with name := some (plan.build value) }) ∨
      (s.seenEquals ∧ ∃ init, next = { s with init := some init }) := by
  by_cases hequals : child.kind = "="
  · exact .inl ⟨hequals,h.of_keep (if_pos hequals)⟩
  by_cases hname : !s.seenEquals ∧ s.name.isNone
  · refine .inr (.inl ⟨by simpa using hname.1,Option.isNone_iff_eq_none.1 hname.2,?_⟩)
    exact h.of_expect ((if_neg hequals).trans (if_pos hname))
  by_cases hinit : s.seenEquals ∧ s.init.isNone
  · obtain ⟨plan,value,-,-,hnext⟩ :=
      h.of_expect ((if_neg hequals).trans ((if_neg hname).trans (if_pos hinit)))
    exact .inr (.inr ⟨hinit.1,_,hnext⟩)
  · exact absurd ((if_neg hequals).trans ((if_neg hname).trans (if_neg hinit))) h.not_reject

theorem NamesVariable.initialized {init declarator : ParseTree} {before after : List ParseTree}
    (h : NamesVariable x declarator) (hsplit : init.children = before ++ declarator :: after)
    (hbefore : ∀ c ∈ before, c.kind ≠ "=") {value : Initialized}
    (hread : (Reading.read .initDeclarator context init).result = .ok value) : value.name = x := by
  obtain ⟨s,hrun,hfinish⟩ := read_eq_ok.1 hread
  rw [hsplit,heard_append,heard_cons (not_isNoise_of_variable h.kind_mem)] at hrun
  obtain ⟨mid,next,hfirst,hstep,hafter⟩ := hrun.at_child
  -- No equals sign stands in front, so the declarator is read as the name and not as the value.
  have hmid : InitSlots.seenEquals mid = false := by
    refine hfirst.preserves (fun s : InitSlots => s.seenEquals = false)
      (fun s c next hc hstep hs => ?_) rfl
    rcases Step.initDeclarator hstep with ⟨hequals,-⟩ | ⟨-,-,plan,value,-,-,rfl⟩ | ⟨hseen,-⟩
    · exact absurd hequals (hbefore c (mem_heard.1 hc).1)
    · exact hs
    · simp [hs] at hseen
  have hnext : InitSlots.name next = some x := by
    rcases Step.initDeclarator hstep with ⟨hequals,-⟩ | ⟨-,-,plan,value,hplan,hread,rfl⟩ | ⟨hseen,-⟩
    · have hkind := h.kind_mem
      rw [hequals] at hkind
      exact absurd hkind (by decide)
    · exact congrArg some (h.read hplan hread)
    · simp [hmid] at hseen
  have hfinal : InitSlots.name s = some x := by
    refine hafter.preserves (fun s : InitSlots => s.name = some x)
      (fun s c next _ hstep hs => ?_) hnext
    rcases Step.initDeclarator hstep with ⟨-,rfl⟩ | ⟨-,hnone,-⟩ | ⟨-,init,rfl⟩
    · exact hs
    · simp [hnone] at hs
    · exact hs
  have hdone : InitSlots.finish s = .done ⟨x,InitSlots.init s⟩ := by
    simp [InitSlots.finish,hfinal,Ending.ofOption]
  rw [Ending.eq_of_eq_done hdone hfinish]

theorem Step.declaration_grows {s next : DeclarationSlots}
    (h : Step .declaration context s child next) : s.declarators <+: next.declarators := by
  refine h.leads (fun next : DeclarationSlots => s.declarators <+: next.declarators) ?_
  change (DeclarationSlots.step s (head child)).Leads _ _
  rw [DeclarationSlots.step]
  split_ifs
  · exact List.prefix_refl _
  · exact List.prefix_refl _
  · exact List.prefix_refl _
  · exact List.prefix_refl _
  · exact fun value _ => List.prefix_append _ _
  · exact leads_of_expect fun _ _ _ _ => List.prefix_append _ _

theorem Step.declarator {s next : DeclarationSlots} (h : Step .declaration context s child next)
    (hfunction : ¬declaresFunction child) (hnames : NamesVariable x child) :
    ∃ v : Declarator, v.name = x ∧ next.declarators = s.declarators ++ [v] := by
  have hother : ∀ kind ∈ variableKinds, ¬(kind ∈ [",",";"] ∨ kind ∈ ignoredSpecifiers) ∧
      kind ≠ "type_qualifier" ∧ kind ∉ typeSpecifiers ∧ kind ≠ "init_declarator" := by decide
  obtain ⟨htoken,hqualifier,htype,hinit⟩ := hother _ hnames.kind_mem
  have hstep : DeclarationSlots.step s (head child) =
      .expect (name? child.kind) fun name => s.add ⟨name,none⟩ :=
    (if_neg htoken).trans ((if_neg hqualifier).trans ((if_neg fun h => htype h.1).trans
      ((if_neg hfunction).trans (if_neg hinit))))
  obtain ⟨plan,value,hplan,hread,rfl⟩ := h.of_expect hstep
  exact ⟨_,hnames.read hplan hread,rfl⟩

theorem Step.init_declarator {s next : DeclarationSlots}
    (h : Step .declaration context s child next) (hkind : child.kind = "init_declarator") :
    ∃ value : Initialized, (read .initDeclarator context child).result = .ok value ∧
      ∃ v : Declarator, v.name = value.name ∧ next.declarators = s.declarators ++ [v] := by
  have hfunction : ¬declaresFunction child := by
    intro hfunction
    have hdeclares := kind_of_declaresFunction hfunction
    rw [hkind] at hdeclares
    exact absurd hdeclares (by decide)
  have hother : ¬(child.kind ∈ [",",";"] ∨ child.kind ∈ ignoredSpecifiers) ∧
      child.kind ≠ "type_qualifier" ∧ child.kind ∉ typeSpecifiers := by
    rw [hkind]
    decide
  obtain ⟨htoken,hqualifier,htype⟩ := hother
  have hstep : DeclarationSlots.step s (head child) = .descend (.nested .initDeclarator s.add) :=
    (if_neg htoken).trans ((if_neg hqualifier).trans ((if_neg fun h => htype h.1).trans
      ((if_neg hfunction).trans (if_pos hkind))))
  obtain ⟨value,hread,rfl⟩ := h.of_descend hstep
  exact ⟨value,hread,_,rfl,rfl⟩

end Variables

section Functions
variable {context x : String} {child : ParseTree}

theorem NamesFunction.declaresFunction {tree : ParseTree} (h : NamesFunction x tree) :
    Reading.declaresFunction tree := by
  induction h with
  | @declarator tree name hkind =>
    rcases tree with ⟨kind,text,children⟩
    obtain rfl : kind = "function_declarator" := hkind
    simp [Reading.declaresFunction]
  | @wrapped tree inner before after hkind hsplit _ _ ih =>
    rcases tree with ⟨kind,text,children⟩
    obtain rfl : children = before ++ inner :: after := hsplit
    have hany : anyDeclaresFunction (before ++ inner :: after) :=
      anyDeclaresFunction_iff.2 ⟨inner,by simp,ih⟩
    have hkind' : kind ∈ wrappingDeclarators := hkind
    simp [Reading.declaresFunction,hkind',hany]

theorem Step.signature_name {s next : SignatureSlots}
    (h : Step .functionDeclarator context s child next) (hkind : child.kind = "identifier") :
    next.name = some child.text := by
  have hignored : child.kind ∉ ["type_qualifier","noexcept"] := by
    rw [hkind]
    decide
  have hparameters : ¬(child.kind = "parameter_list" ∧ s.name.isSome ∧ s.parameters.isNone) := by
    rw [hkind]
    exact fun hlist => absurd hlist.1 (by decide)
  by_cases hname : child.kind ∈ ["identifier","field_identifier","qualified_identifier"] ∧
      s.name.isNone
  · obtain ⟨plan,value,hplan,hread,rfl⟩ := h.of_expect ((if_neg hignored).trans (if_pos hname))
    have hnames : NamesVariable child.text child := .identifier hkind rfl
    exact congrArg some (hnames.read hplan hread)
  · have hreject : SignatureSlots.step s (head child) = .reject :=
      (if_neg hignored).trans ((if_neg hname).trans (if_neg hparameters))
    exact absurd hreject h.not_reject

theorem Step.signature_kept {s next : SignatureSlots}
    (h : Step .functionDeclarator context s child next) (hs : s.name = some x) :
    next.name = some x := by
  refine h.leads (fun next : SignatureSlots => next.name = some x) ?_
  change (SignatureSlots.step s (head child)).Leads _ _
  rw [SignatureSlots.step]
  split_ifs with hignored hname hparameters
  · exact hs
  · simp [hs] at hname
  · exact fun _ _ => hs
  · trivial

theorem NamesFunction.read {tree : ParseTree} (h : NamesFunction x tree) : ∀ {context value},
    (Reading.read (Reading.function tree.kind).rule context tree).result = .ok value →
      ((Reading.function tree.kind).build value).name = x := by
  induction h with
  | @declarator tree name hkind hname hnameKind htext =>
    rw [hkind]
    intro context value hread
    obtain ⟨s,hrun,hfinish⟩ := read_eq_ok.1 hread
    have hheard : name ∈ heard tree.children := by
      have hnoise : ¬isNoise "identifier" := by decide
      exact mem_heard.2 ⟨hname,hnameKind ▸ hnoise⟩
    have hfinal : SignatureSlots.name s = some x := by
      rw [← htext]
      exact hrun.sets hheard (fun s : SignatureSlots => s.name = some name.text)
        (fun s next hstep => Step.signature_name hstep hnameKind)
        fun s c next hstep => Step.signature_kept hstep
    have hdone : SignatureSlots.finish s = .done ⟨x,(SignatureSlots.parameters s).getD []⟩ := by
      simp [SignatureSlots.finish,hfinal,Ending.ofOption]
    obtain rfl := Ending.eq_of_eq_done hdone hfinish
    rfl
  | @wrapped tree inner before after hkind hsplit hbefore hinner ih =>
    have hplan : Reading.function tree.kind = .direct .wrappedFunction id := by
      have hother : ∀ kind ∈ wrappingDeclarators, kind ≠ "function_declarator" := by decide
      exact if_neg (hother _ hkind)
    rw [hplan]
    intro context value hread
    obtain ⟨s,hrun,hfinish⟩ := read_eq_ok.1 hread
    rw [hsplit,heard_append,
      heard_cons (not_isNoise_of_declaresFunction hinner.declaresFunction)] at hrun
    obtain ⟨signature,⟨value',hvalue,hsignature⟩,hfinal⟩ :=
      hrun.finds_first (fun s : Option Signature => s) (fun c => Reading.declaresFunction c) _
        (fun _ _ _ => Step.wrappedFunction) rfl
        (fun c hc => hbefore c (mem_heard.1 hc).1) hinner.declaresFunction
    have hname : signature.name = x := hsignature ▸ ih hvalue
    subst hfinal
    obtain rfl := Ending.eq_of_done hfinish
    exact hname

theorem Step.function_signature {s next : FunctionSlots}
    (h : Step .functionDefinition context s child next) (hnames : NamesFunction x child) :
    ∃ signature, signature.name = x ∧ next.signature = some signature := by
  have hkind := kind_of_declaresFunction hnames.declaresFunction
  have hother : ∀ kind, kind = "function_declarator" ∨ kind ∈ wrappingDeclarators →
      ¬(kind ∈ ignoredSpecifiers ∨ kind = "type_qualifier") ∧ kind ∉ typeSpecifiers ∧
        kind ≠ "compound_statement" := by
    simp only [← List.mem_cons]
    decide
  obtain ⟨hignored,htype,hbody⟩ := hother _ hkind
  by_cases hfound : declaresFunction child ∧ s.signature.isNone
  · obtain ⟨value,hread,rfl⟩ := h.of_descend
      ((if_neg hignored).trans ((if_neg fun h => htype h.1).trans (if_pos hfound)))
    exact ⟨_,hnames.read hread,rfl⟩
  · have hreject : FunctionSlots.step s (head child) = .reject :=
      (if_neg hignored).trans ((if_neg fun h => htype h.1).trans ((if_neg hfound).trans
        (if_neg fun h => hbody h.1)))
    exact absurd hreject h.not_reject

theorem Step.function_kept {s next : FunctionSlots}
    (h : Step .functionDefinition context s child next) {signature : Signature}
    (hs : s.signature = some signature) : next.signature = some signature := by
  refine h.leads (fun next : FunctionSlots => next.signature = some signature) ?_
  change (FunctionSlots.step s (head child)).Leads _ _
  rw [FunctionSlots.step]
  split_ifs with hignored htype hfound hbody
  · exact hs
  · exact hs
  · simp [hs] at hfound
  · exact fun _ _ => hs
  · trivial

end Functions

section Items
variable {x : String} {tree : ParseTree} {nodes : List Node}

theorem Stands.declaration (h : Stands tree nodes) (hkind : tree.kind = "declaration")
    {child : ParseTree} (hchild : child ∈ tree.children) (hnoise : ¬isNoise child.kind)
    (hadds : ∀ s next : DeclarationSlots, Step .declaration tree.kind s child next →
      ∃ v : Declarator, v.name = x ∧ next.declarators = s.declarators ++ [v]) :
    DeclaresName x nodes := by
  have hplan : item? tree.kind = some (.nested .declaration id) := by
    rw [hkind]
    rfl
  obtain ⟨s,value,hrun,hfinish,rfl⟩ := h.run hplan
  obtain ⟨before,after,hsplit⟩ := List.append_of_mem (mem_heard.2 ⟨hchild,hnoise⟩)
  rw [hsplit] at hrun
  obtain ⟨mid,next,-,hstep,hafter⟩ := hrun.at_child
  obtain ⟨v,hname,hadded⟩ := hadds mid next hstep
  obtain ⟨later,hlater⟩ : DeclarationSlots.declarators next <+: DeclarationSlots.declarators s :=
    hafter.grows DeclarationSlots.declarators fun _ _ _ hstep => Step.declaration_grows hstep
  have hall : DeclarationSlots.declarators s =
      DeclarationSlots.declarators mid ++ v :: later := by
    rw [← hlater,hadded,List.append_assoc,List.singleton_append]
  have hdone : DeclarationSlots.finish s =
      .done [.declaration (DeclarationSlots.declarators mid ++ v :: later)] := by
    simp [DeclarationSlots.finish,hall]
  obtain rfl := Ending.eq_of_eq_done hdone hfinish
  exact .declaration hname

theorem Stands.functionDefinition (h : Stands tree nodes)
    (hkind : tree.kind = "function_definition") {child : ParseTree}
    (hchild : child ∈ tree.children) (hnames : NamesFunction x child) : DeclaresName x nodes := by
  have hplan : item? tree.kind = some (.nested .functionDefinition List.singleton) := by
    rw [hkind]
    rfl
  obtain ⟨s,value,hrun,hfinish,rfl⟩ := h.run hplan
  have hnoise := not_isNoise_of_declaresFunction hnames.declaresFunction
  obtain ⟨signature,hname,hfinal⟩ : ∃ signature, signature.name = x ∧
      FunctionSlots.signature s = some signature := by
    refine hrun.sets (mem_heard.2 ⟨hchild,hnoise⟩)
      (fun s : FunctionSlots => ∃ signature, signature.name = x ∧ s.signature = some signature)
      (fun s next hstep => Step.function_signature hstep hnames) ?_
    rintro s c next hstep ⟨signature,hname,hs⟩
    exact ⟨signature,hname,Step.function_kept hstep hs⟩
  cases hbody : FunctionSlots.body s with
  | none =>
    have hlacks : FunctionSlots.finish s = .incomplete := by
      simp [FunctionSlots.finish,hfinal,hbody]
    rcases hfinish with hvalue | hvalue <;> cases hlacks.symm.trans hvalue
  | some body =>
    have hdone : FunctionSlots.finish s = .done (.functionDefinition signature.name
        signature.parameters (FunctionSlots.returnType s) body) := by
      simp [FunctionSlots.finish,hfinal,hbody]
    obtain rfl := Ending.eq_of_eq_done hdone hfinish
    rw [← hname]
    exact .function

/-- What an item that declares an identifier stands for declares the same name. -/
theorem DeclaresIdentifier.declaresName (h : DeclaresIdentifier x tree) (hs : Stands tree nodes) :
    DeclaresName x nodes := by
  cases h with
  | bare hkind hdeclarator hfunction hnames =>
    refine hs.declaration hkind hdeclarator (not_isNoise_of_variable hnames.kind_mem) ?_
    exact fun s next hstep => hstep.declarator hfunction hnames
  | initialized hkind hinit hinitKind hsplit hbefore hnames =>
    have hnoise : ¬isNoise "init_declarator" := by decide
    refine hs.declaration hkind hinit (hinitKind ▸ hnoise) fun s next hstep => ?_
    obtain ⟨value,hread,v,hname,hadded⟩ := hstep.init_declarator hinitKind
    exact ⟨v,hname.trans (hnames.initialized hsplit hbefore hread),hadded⟩
  | function hkind hdeclarator hnames => exact hs.functionDefinition hkind hdeclarator hnames

end Items

end Reading
end Scribe
