import Scribe.Proofs.DeclaratorNames

/-! Variables of declarations. A declaration that is read has one declarator for each child that
declares a variable, in order. A child that declares a function is passed over without a look at
what the function is declared over, so that a variable of function type is lost. -/
namespace Scribe
namespace Reading
open Program

def isVariable (t : ParseTree) : Bool :=
  t.kind == "init_declarator" || isNaming t && !declaresFunction t

/-- The type among the children of a declaration: the first that is spelled as one, unless a
variable stands in front of it. -/
def typeOf : List ParseTree → Option ParseTree
  | [] => none
  | c :: rest =>
    if c.kind ∈ typeSpecifiers then some c
    else if isVariable c then none
    else typeOf rest

/-- The children of a declaration that declare variables; a name may stand for the type. -/
def variablesOf : List ParseTree → List ParseTree
  | [] => []
  | c :: rest =>
    if c.kind ∈ typeSpecifiers then rest.filter isVariable
    else if isVariable c then c :: rest.filter isVariable
    else variablesOf rest

/-- A declarator has the given type, and the name and initial value that a child is read with. -/
def DeclaredAs (context : String) (type : Option String) (t : ParseTree) (d : Declarator) : Prop :=
  d.typeName = type ∧
    if t.kind = "init_declarator" then
      (read .initDeclarator context t).result = .ok ⟨d.name, d.init⟩
    else declaratorName context t = .ok d.name ∧ d.init = none

/-- A function declarator with a name of its own, perhaps of a function that gives a pointer or a
reference. -/
inductive IsPrototype : ParseTree → Prop
  | declarator {t name : ParseTree} : t.kind = "function_declarator" → name ∈ t.children →
      name.kind ∈ nameKinds → IsPrototype t
  | wrapped {t inner : ParseTree} : t.kind ∈ wrappingDeclarators → inner ∈ t.children →
      IsPrototype inner → IsPrototype t

section Kinds
variable {t : ParseTree}

/-- Separators, specifiers, qualifiers and noise: what a declaration passes over. -/
def passedKinds : List String := [",",";"] ++ ignoredSpecifiers ++ ["type_qualifier"] ++ noiseKinds

theorem declares_nothing_of_passed (h : t.kind ∈ passedKinds) :
    t.kind ∉ typeSpecifiers ∧ isVariable t = false ∧ declaresFunction t = false := by
  have hpassed : ∀ kind ∈ passedKinds, kind ∉ typeSpecifiers ∧ kind ≠ "init_declarator" ∧
      (name? kind).isSome = false ∧ kind ∉ "function_declarator" :: wrappingDeclarators := by decide
  obtain ⟨htype,hinit,hname,hfunction⟩ := hpassed _ h
  have hdeclares : declaresFunction t = false := by
    by_contra hdeclares
    exact hfunction (List.mem_cons.2 (kind_of_declaresFunction (by simpa using hdeclares)))
  exact ⟨htype,by simp [isVariable,isNaming,hinit,hname],hdeclares⟩

theorem kind_of_function (h : declaresFunction t) :
    t.kind ∉ passedKinds ∧ t.kind ∉ typeSpecifiers ∧ t.kind ≠ "init_declarator" := by
  have hother : ∀ kind ∈ "function_declarator" :: wrappingDeclarators,
      kind ∉ passedKinds ∧ kind ∉ typeSpecifiers ∧ kind ≠ "init_declarator" := by decide
  exact hother _ (List.mem_cons.2 (kind_of_declaresFunction h))

theorem isVariable_of_function (h : declaresFunction t) : isVariable t = false := by
  simp [isVariable,h,(kind_of_function h).2.2]

theorem not_function_of_variable (h : isVariable t) : declaresFunction t = false := by
  by_contra hfunction
  simp [isVariable_of_function (by simpa using hfunction)] at h

theorem variablesOf_heard (children : List ParseTree) :
    variablesOf (heard children) = variablesOf children ∧
      typeOf (heard children) = typeOf children ∧
      (heard children).filter isVariable = children.filter isVariable := by
  induction children with
  | nil => exact ⟨rfl,rfl,rfl⟩
  | cons c rest ih =>
    obtain ⟨hvariables,htype,hfilter⟩ := ih
    by_cases hnoise : isNoise c.kind
    · have hkind : c.kind ∈ noiseKinds := by simpa [isNoise] using hnoise
      obtain ⟨hother,hvariable,-⟩ := declares_nothing_of_passed (List.mem_append_right _ hkind)
      rw [heard_cons_of_noise hnoise]
      simp [variablesOf,typeOf,hother,hvariable,hvariables,htype,hfilter]
    · rw [heard_cons hnoise]
      simp only [variablesOf,typeOf,List.filter_cons,hvariables,htype,hfilter,and_self]

end Kinds

section Steps
variable {context : String} {child : ParseTree} {s next final : DeclarationSlots}

/-- Neither the type nor a variable has been read. -/
def DeclarationSlots.Fresh (s : DeclarationSlots) : Prop := s.typeName = none ∧ s.declarators = []

/-- A child of a declaration is passed over, gives the type, is set aside as a function or adds a
variable. -/
theorem Step.declaration (h : Step .declaration context s child next) :
    (child.kind ∈ passedKinds ∧ next.typeName = s.typeName ∧ next.declarators = s.declarators ∧
      next.seenPrototype = s.seenPrototype) ∨
    (child.kind ∈ typeSpecifiers ∧ s.Fresh ∧
      next = { s with typeName := some (typeText (head child)) }) ∨
    (declaresFunction child ∧ next = { s with seenPrototype := true }) ∨
    (¬(child.kind ∈ typeSpecifiers ∧ s.Fresh) ∧ isVariable child ∧ ∃ d : Declarator,
      DeclaredAs context s.typeName child d ∧
        next = { s with declarators := s.declarators ++ [d] }) := by
  have hfresh : s.Fresh ↔ s.typeName.isNone ∧ s.declarators.isEmpty := by
    simp [DeclarationSlots.Fresh]
  by_cases hpassed : child.kind ∈ [",",";"] ∨ child.kind ∈ ignoredSpecifiers
  · have hnext := h.of_keep (if_pos hpassed)
    have hkind : child.kind ∈ passedKinds := by
      simp only [passedKinds,List.mem_append]
      tauto
    exact .inl ⟨hkind,hnext ▸ ⟨rfl,rfl,rfl⟩⟩
  by_cases hqualifier : child.kind = "type_qualifier"
  · have hnext := h.of_keep ((if_neg hpassed).trans (if_pos hqualifier))
    have hkind : child.kind ∈ passedKinds := by
      rw [hqualifier]
      decide
    exact .inl ⟨hkind,hnext ▸ ⟨rfl,rfl,rfl⟩⟩
  by_cases htype : child.kind ∈ typeSpecifiers ∧ s.typeName.isNone ∧ s.declarators.isEmpty
  · have hnext := h.of_keep ((if_neg hpassed).trans ((if_neg hqualifier).trans (if_pos htype)))
    exact .inr (.inl ⟨htype.1,hfresh.2 htype.2,hnext⟩)
  by_cases hfunction : declaresFunction child
  · have hnext := h.of_keep ((if_neg hpassed).trans ((if_neg hqualifier).trans ((if_neg htype).trans
      (if_pos hfunction))))
    exact .inr (.inr (.inl ⟨hfunction,hnext⟩))
  refine .inr (.inr (.inr ⟨by rwa [hfresh],?_⟩))
  by_cases hinit : child.kind = "init_declarator"
  · obtain ⟨value,hread,hnext⟩ := h.of_descend ((if_neg hpassed).trans ((if_neg hqualifier).trans
      ((if_neg htype).trans ((if_neg hfunction).trans (if_pos hinit)))))
    refine ⟨by simp [isVariable,hinit],_,⟨rfl,?_⟩,hnext⟩
    rw [if_pos hinit]
    exact hread
  · have hexpect : DeclarationSlots.step s (head child) =
        .expect (name? child.kind) fun name => s.add ⟨name,none⟩ :=
      (if_neg hpassed).trans ((if_neg hqualifier).trans ((if_neg htype).trans
        ((if_neg hfunction).trans (if_neg hinit))))
    obtain ⟨name,hname,hnext⟩ := h.of_expect_name hexpect
    have hnaming : isNaming child := by
      rw [isNaming,Option.isSome_iff_ne_none]
      intro hnone
      simp [declaratorName,hnone] at hname
    refine ⟨by simp [isVariable,hnaming,hfunction],_,⟨rfl,?_⟩,hnext⟩
    rw [if_neg hinit]
    exact ⟨hname,rfl⟩

theorem Step.declaration_settled (h : Step .declaration context s child next) (hs : ¬s.Fresh) :
    next.typeName = s.typeName ∧ ¬next.Fresh ∧
      next.seenPrototype = (s.seenPrototype || declaresFunction child) ∧
      ∃ ds, next.declarators = s.declarators ++ ds ∧
        List.Forall₂ (DeclaredAs context s.typeName) ([child].filter isVariable) ds := by
  rcases h.declaration with ⟨hpassed,htype,hsame,hseen⟩ | ⟨-,hfresh,-⟩ | ⟨hfunction,rfl⟩ |
    ⟨-,hvariable,d,hd,rfl⟩
  · obtain ⟨-,hvariable,hfunction⟩ := declares_nothing_of_passed hpassed
    have hnext : ¬next.Fresh := by rwa [DeclarationSlots.Fresh,htype,hsame]
    refine ⟨htype,hnext,by simp [hseen,hfunction],[],by simp [hsame],?_⟩
    simp [hvariable]
  · exact absurd hfresh hs
  · refine ⟨rfl,hs,by simp [hfunction],[],by simp,?_⟩
    simp [isVariable_of_function hfunction]
  · have hfunction := not_function_of_variable hvariable
    refine ⟨rfl,by simp [DeclarationSlots.Fresh],by simp [hfunction],[d],rfl,?_⟩
    simpa [hvariable] using hd

theorem Run.declaration_settled {children : List ParseTree}
    (h : Run .declaration context s children final) (hs : ¬s.Fresh) :
    final.seenPrototype = (s.seenPrototype || children.any declaresFunction) ∧
      ∃ ds, final.declarators = s.declarators ++ ds ∧
        List.Forall₂ (DeclaredAs context s.typeName) (children.filter isVariable) ds := by
  induction children generalizing s with
  | nil =>
    obtain rfl := run_nil.1 h
    exact ⟨by simp,[],by simp,.nil⟩
  | cons child rest ih =>
    obtain ⟨next,hstep,hrest⟩ := run_cons.1 h
    obtain ⟨htype,hnext,hseen,ds,hds,hchild⟩ := Step.declaration_settled hstep hs
    obtain ⟨hseen',es,hes,hothers⟩ := ih hrest hnext
    refine ⟨by simp [hseen',hseen,Bool.or_assoc],ds ++ es,by rw [hes,hds,List.append_assoc],?_⟩
    rw [← List.singleton_append,List.filter_append]
    exact List.rel_append hchild (htype ▸ hothers)

/-- A declaration has one declarator for each child that declares a variable, in order. -/
theorem Run.declaration_fresh {children : List ParseTree}
    (h : Run .declaration context s children final) (hs : s.Fresh) :
    final.seenPrototype = (s.seenPrototype || children.any declaresFunction) ∧
      List.Forall₂ (DeclaredAs context ((typeOf children).map (typeText ∘ head)))
        (variablesOf children) final.declarators := by
  induction children generalizing s with
  | nil =>
    obtain rfl := run_nil.1 h
    exact ⟨by simp,by simp [variablesOf,hs.2]⟩
  | cons child rest ih =>
    obtain ⟨next,hstep,hrest⟩ := run_cons.1 h
    rcases Step.declaration hstep with ⟨hpassed,htype,hsame,hseen⟩ | ⟨htype,-,rfl⟩ |
      ⟨hfunction,rfl⟩ | ⟨hother,hvariable,d,hd,rfl⟩
    · obtain ⟨hother,hvariable,hfunction⟩ := declares_nothing_of_passed hpassed
      obtain ⟨hseen',hdeclared⟩ := ih hrest ⟨htype.trans hs.1,hsame.trans hs.2⟩
      refine ⟨by simp [hseen',hseen,hfunction],?_⟩
      simpa [variablesOf,typeOf,hother,hvariable] using hdeclared
    · have hfunction : declaresFunction child = false := by
        by_contra hfunction
        exact (kind_of_function (by simpa using hfunction)).2.1 htype
      obtain ⟨hseen,ds,hds,hdeclared⟩ :=
        Run.declaration_settled hrest (by simp [DeclarationSlots.Fresh])
      have hall : final.declarators = ds := by simpa [hs.2] using hds
      refine ⟨by simp [hseen,hfunction],?_⟩
      simpa [variablesOf,typeOf,htype,hall] using hdeclared
    · obtain ⟨-,hother,-⟩ := kind_of_function hfunction
      obtain ⟨hseen,hdeclared⟩ := ih hrest hs
      refine ⟨by simp [hseen,hfunction],?_⟩
      simpa [variablesOf,typeOf,hother,isVariable_of_function hfunction] using hdeclared
    · have hkind : child.kind ∉ typeSpecifiers := fun hkind => hother ⟨hkind,hs⟩
      obtain ⟨hseen,ds,hds,hdeclared⟩ :=
        Run.declaration_settled hrest (by simp [DeclarationSlots.Fresh])
      have hall : final.declarators = d :: ds := by simpa [hs.2] using hds
      refine ⟨by simp [hseen,not_function_of_variable hvariable],?_⟩
      rw [hs.1] at hd hdeclared
      simp only [variablesOf,typeOf,if_neg hkind,if_pos hvariable,hall]
      exact .cons hd hdeclared

theorem DeclarationSlots.finish_cases {nodes : List Node}
    (h : s.finish = .done nodes ∨ s.finish = .lacksRight nodes) :
    s.declarators ≠ [] ∧ nodes = [.declaration s.declarators] ∨
      s.declarators = [] ∧ nodes = [] ∧ s.seenPrototype := by
  rw [DeclarationSlots.finish] at h
  split_ifs at h with hne hseen
  · have hnodes : nodes = [.declaration s.declarators] := by simpa [eq_comm] using h
    exact .inl ⟨by simpa using hne,hnodes⟩
  · have hnodes : nodes = [] := by simpa [eq_comm] using h
    exact .inr ⟨by simpa using hne,hnodes,hseen⟩
  · simp at h

end Steps

theorem readChildren_function {kind : String} (s : DeclarationSlots) {c : ParseTree}
    (h : declaresFunction c) (rest : List ParseTree) :
    readChildren .declaration kind s (c :: rest) =
      readChildren .declaration kind { s with seenPrototype := true } rest := by
  obtain ⟨hpassed,htype,-⟩ := kind_of_function h
  have htoken : ¬(c.kind ∈ [",",";"] ∨ c.kind ∈ ignoredSpecifiers) := by
    simp only [passedKinds,List.mem_append] at hpassed
    tauto
  have hqualifier : c.kind ≠ "type_qualifier" := fun hkind => hpassed (by rw [hkind]; decide)
  have hkeep : DeclarationSlots.step s (head c) = .keep { s with seenPrototype := true } :=
    (if_neg htoken).trans ((if_neg hqualifier).trans ((if_neg fun hkind => htype hkind.1).trans
      (if_pos h)))
  have hstep : Rule.step .declaration s (head c) = .keep { s with seenPrototype := true } := hkeep
  refine (readChildren_cons .declaration kind s c rest).trans ?_
  rw [if_neg (not_isNoise_of_declaresFunction h),hstep]

theorem read_function_congr {context kind text : String} {before after : List ParseTree}
    {c c' : ParseTree} (h : declaresFunction c) (h' : declaresFunction c') :
    read .declaration context (.node kind text (before ++ c :: after)) =
      read .declaration context (.node kind text (before ++ c' :: after)) := by
  have hsame : readChildren .declaration kind (Rule.start .declaration) (before ++ c :: after) =
      readChildren .declaration kind (Rule.start .declaration) (before ++ c' :: after) := by
    rw [readChildren_append,readChildren_append]
    refine congrArg _ (funext fun s => ?_)
    rw [readChildren_function s h,readChildren_function s h']
  rw [read_node,read_node,hsame]

def declaratorKinds : List String :=
  ["init_declarator", "function_declarator"] ++ nameKinds ++ Rule.kinds .declaredName

section Children
variable {t c : ParseTree} {children : List ParseTree}

theorem variable_or_function (h : t.kind ∈ declaratorKinds) :
    isVariable t ∨ declaresFunction t := by
  rcases t with ⟨kind,text,children⟩
  have hcases : kind = "init_declarator" ∨ kind = "function_declarator" ∨
      isNaming (.node kind text children) := by
    simpa [declaratorKinds,isNaming_iff,or_assoc] using h
  rcases hcases with rfl | rfl | hnaming
  · exact .inl (by simp [isVariable])
  · exact .inr (by simp [declaresFunction])
  · by_cases hfunction : declaresFunction (.node kind text children)
    · exact .inr hfunction
    · exact .inl (by simp [isVariable,hnaming,hfunction])

theorem isVariable_of_mem (h : c ∈ variablesOf children) : isVariable c := by
  induction children with
  | nil => cases h
  | cons first rest ih =>
    rw [variablesOf] at h
    split_ifs at h with htype hvariable
    · exact (List.mem_filter.1 h).2
    · rcases List.mem_cons.1 h with rfl | hrest
      · exact hvariable
      · exact (List.mem_filter.1 hrest).2
    · exact ih h

theorem variablesOf_sublist (children : List ParseTree) :
    (variablesOf children).Sublist children := by
  induction children with
  | nil => exact .slnil
  | cons first rest ih =>
    rw [variablesOf]
    split_ifs
    · exact List.filter_sublist.cons first
    · exact List.filter_sublist.cons_cons first
    · exact ih.cons first

theorem kind_of_typeOf (h : typeOf children = some c) : c.kind ∈ typeSpecifiers := by
  induction children with
  | nil => cases h
  | cons first rest ih =>
    rw [typeOf] at h
    split_ifs at h with htype
    · exact Option.some.inj h ▸ htype
    · exact ih h

theorem typeOf_or_mem_variablesOf (hc : c ∈ children) (h : isVariable c) :
    typeOf children = some c ∨ c ∈ variablesOf children := by
  induction children with
  | nil => cases hc
  | cons first rest ih =>
    rw [typeOf,variablesOf]
    split_ifs with htype hvariable
    · rcases List.mem_cons.1 hc with rfl | hrest
      · exact .inl rfl
      · exact .inr (List.mem_filter.2 ⟨hrest,h⟩)
    · rcases List.mem_cons.1 hc with rfl | hrest
      · exact .inr (.head _)
      · exact .inr (.tail _ (List.mem_filter.2 ⟨hrest,h⟩))
    · rcases List.mem_cons.1 hc with rfl | hrest
      · exact absurd h hvariable
      · exact ih hrest

theorem not_mem_of_function (h : declaresFunction c) :
    typeOf children ≠ some c ∧ c ∉ variablesOf children := by
  refine ⟨fun htype => (kind_of_function h).2.1 (kind_of_typeOf htype),fun hmem => ?_⟩
  simp [not_function_of_variable (isVariable_of_mem hmem)] at h

end Children

/-- A declaration that is read has one declarator for each child that declares a variable, in order,
and stands for nothing if all that it declares are functions. Every declarator among its children is
the type, one of the variables or declares a function; that it is a prototype follows only where
every child that declares a function is one, since such a child may be replaced by any other. -/
theorem declaration_variables {context : String} {tree : ParseTree} {nodes : List Node}
    (h : (read .declaration context tree).result = .ok nodes) :
    (∃ ds, List.Forall₂ (DeclaredAs tree.kind ((typeOf tree.children).map (typeText ∘ head)))
        (variablesOf tree.children) ds ∧
      (ds ≠ [] ∧ nodes = [.declaration ds] ∨
        ds = [] ∧ nodes = [] ∧ ∃ c ∈ tree.children, declaresFunction c)) ∧
    (variablesOf tree.children).Sublist tree.children ∧
    (∀ c ∈ tree.children, c.kind ∈ declaratorKinds → typeOf tree.children = some c ∨
      c ∈ variablesOf tree.children ∨ declaresFunction c) ∧
    ((∀ c ∈ tree.children, c.kind ∈ declaratorKinds → typeOf tree.children = some c ∨
      c ∈ variablesOf tree.children ∨ IsPrototype c) ↔
        ∀ c ∈ tree.children, declaresFunction c → IsPrototype c) ∧
    ∀ before c after c', tree.children = before ++ c :: after → declaresFunction c →
      declaresFunction c' → (read .declaration context
        (.node tree.kind tree.text (before ++ c' :: after))).result = .ok nodes := by
  obtain ⟨s,hrun,hfinish⟩ := read_eq_ok.1 h
  obtain ⟨hseen,hdeclared⟩ := Run.declaration_fresh hrun ⟨rfl,rfl⟩
  obtain ⟨hvariables,htype,-⟩ := variablesOf_heard tree.children
  rw [hvariables,htype] at hdeclared
  refine ⟨⟨_,hdeclared,?_⟩,variablesOf_sublist _,fun c hc hkind => ?_,⟨fun hall c hc hf => ?_,
    fun hall c hc hkind => ?_⟩,?_⟩
  · rcases DeclarationSlots.finish_cases hfinish with ⟨hne,hnodes⟩ | ⟨hempty,hnodes,hsome⟩
    · exact .inl ⟨hne,hnodes⟩
    · obtain ⟨c,hc,hfunction⟩ : ∃ c ∈ heard tree.children, declaresFunction c := by
        have hany : (heard tree.children).any declaresFunction := hseen.symm.trans hsome
        exact List.any_eq_true.1 hany
      exact .inr ⟨hempty,hnodes,c,(mem_heard.1 hc).1,hfunction⟩
  · rcases variable_or_function hkind with hvariable | hfunction
    · exact (typeOf_or_mem_variablesOf hc hvariable).imp_right .inl
    · exact .inr (.inr hfunction)
  · have hkind : c.kind ∈ declaratorKinds := by
      have hkinds : ∀ kind ∈ "function_declarator" :: wrappingDeclarators,
          kind ∈ declaratorKinds := by decide
      exact hkinds _ (List.mem_cons.2 (kind_of_declaresFunction hf))
    obtain ⟨htype,hvariable⟩ := not_mem_of_function hf
    exact ((hall c hc hkind).resolve_left htype).resolve_left hvariable
  · rcases variable_or_function hkind with hvariable | hfunction
    · exact (typeOf_or_mem_variablesOf hc hvariable).imp_right .inl
    · exact .inr (.inr (hall c hc hfunction))
  · intro before c after c' hsplit hc hc'
    rcases tree with ⟨kind,text,children⟩
    obtain rfl : children = before ++ c :: after := hsplit
    rw [read_function_congr hc' hc]
    exact h

/-- `const n::T x, *y = 1, f(int);`. -/
def mixedDeclaration : ParseTree :=
  .node "declaration" "" [.node "type_qualifier" "const" [],
    .node "qualified_identifier" "n::T" [],.node "identifier" "x" [],.node "," "," [],
    .node "init_declarator" "*y = 1" [
      .node "pointer_declarator" "*y" [.node "*" "*" [],.node "identifier" "y" []],
      .node "=" "=" [],.node "number_literal" "1" []],
    .node "," "," [],
    .node "function_declarator" "f(int)" [.node "identifier" "f" [],
      .node "parameter_list" "(int)" [.node "(" "(" [],.node ")" ")" []]],
    .node ";" ";" []]

def mixedVariables : List Declarator :=
  [⟨"x",some "n::T",none,true⟩,⟨"y",some "n::T",some (.numberLiteral "1"),true⟩]

theorem declaration_variables_mixedDeclaration :
    (read .declaration "translation_unit" mixedDeclaration).result =
        .ok [.declaration mixedVariables] ∧
      (variablesOf mixedDeclaration.children).map ParseTree.text = ["x","*y = 1"] ∧
      ∀ c ∈ mixedDeclaration.children, c.kind ∈ declaratorKinds →
        typeOf mixedDeclaration.children = some c ∨
          c ∈ variablesOf mixedDeclaration.children ∨ IsPrototype c := by
  have hread : (read .declaration "translation_unit" mixedDeclaration).result =
      .ok [.declaration mixedVariables] := rfl
  have hprototypes : ∀ c ∈ mixedDeclaration.children, declaresFunction c → IsPrototype c := by
    have hnamed : ∀ c ∈ mixedDeclaration.children, declaresFunction c →
        c.kind = "function_declarator" ∧ c.children.any (·.kind ∈ nameKinds) := by decide
    intro c hc hfunction
    obtain ⟨hkind,hany⟩ := hnamed c hc hfunction
    obtain ⟨name,hname,hnameKind⟩ := List.any_eq_true.1 hany
    exact .declarator hkind hname (by simpa using hnameKind)
  obtain ⟨-,-,-,hiff,-⟩ := declaration_variables hread
  exact ⟨hread,rfl,hiff.2 hprototypes⟩

/-- `(*fp)(int)`, a pointer to a function. -/
def functionPointer : ParseTree :=
  .node "function_declarator" "(*fp)(int)" [
    .node "parenthesized_declarator" "(*fp)" [.node "(" "(" [],
      .node "pointer_declarator" "*fp" [.node "*" "*" [],.node "identifier" "fp" []],
      .node ")" ")" []],
    .node "parameter_list" "(int)" [.node "(" "(" [],
      .node "parameter_declaration" "int" [.node "primitive_type" "int" []],.node ")" ")" []]]

/-- `int x, (*fp)(int);`. -/
def functionPointerFile : ParseTree :=
  .node "translation_unit" "" [.node "declaration" "" [.node "primitive_type" "int" [],
    .node "identifier" "x" [],.node "," "," [],functionPointer,.node ";" ";" []]]

/-- A pointer to a function is dropped like a prototype. -/
theorem functionPointer_dropped :
    (readFile functionPointerFile).result = .ok [.declaration [⟨"x",some "int",none,false⟩]] ∧
      functionPointer.kind ∈ declaratorKinds ∧ ¬isVariable functionPointer ∧
      ¬IsPrototype functionPointer := by
  refine ⟨rfl,by decide,by decide,?_⟩
  rintro (⟨-,hname,hkind⟩ | ⟨hkind,-,-⟩)
  · have hother : ∀ c ∈ functionPointer.children, c.kind ∉ nameKinds := by decide
    exact hother _ hname hkind
  · exact absurd hkind (by decide)

end Reading
end Scribe
