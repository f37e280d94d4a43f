import Mathlib.Logic.Relation
import Scribe.Proofs.Composition
import Scribe.Proofs.DeclaredNames

/-! Names of declarators. A name is looked for level by level, each time in the first child that
may declare one. In an array declarator that child is the declared part only if the declared part is
of a kind that may declare a name; otherwise the search goes on in the bounds. -/
namespace Scribe
namespace Reading
open Relation

/-- The name that a declarator in a node of kind `context` is read as. -/
def declaratorName (context : String) (t : ParseTree) : Except Failure String :=
  match name? t.kind with
  | some plan => (read plan.rule context t).result.map plan.build
  | none => .error (.unsupported ⟨t.kind, context⟩)

def nameKinds : List String := ["identifier", "field_identifier", "qualified_identifier"]

/-- What a name is in the output: the scopes of a qualified one become part of it. -/
def nameText (t : ParseTree) : String :=
  if t.kind = "qualified_identifier" then Text.flattenScopes t.text else t.text

def isNaming (t : ParseTree) : Bool := (name? t.kind).isSome

theorem isNaming_iff {t : ParseTree} :
    isNaming t ↔ t.kind ∈ nameKinds ∨ t.kind ∈ Rule.kinds .declaredName := by
  have hnamed : ∀ kind ∈ nameKinds ++ Rule.kinds .declaredName, (name? kind).isSome := by decide
  have hkeys : ∀ entry ∈ nameRules, entry.1 ∈ nameKinds ++ Rule.kinds .declaredName := by decide
  rw [← List.mem_append]
  constructor
  · intro h
    obtain ⟨plan,hplan⟩ := Option.isSome_iff_exists.1 h
    exact hkeys _ (mem_of_lookup hplan)
  · exact hnamed _

theorem not_isNaming_of_isNoise {t : ParseTree} (h : isNoise t.kind) : ¬isNaming t := by
  have hnoise : ∀ kind ∈ noiseKinds, (name? kind).isSome = false := by decide
  have hkind : t.kind ∈ noiseKinds := by simpa [isNoise] using h
  simp [isNaming,hnoise _ hkind]

section Names
variable {context : String} {t : ParseTree}

theorem declaratorName_of_name (h : t.kind ∈ nameKinds) :
    declaratorName context t = .ok (nameText t) := by
  have hcases : t.kind = "identifier" ∨ t.kind = "field_identifier" ∨
      t.kind = "qualified_identifier" := by simpa [nameKinds] using h
  have hleaf : (read .leaf context t).result = .ok t.text := read_leaf t
  have hidentifier : name? "identifier" = some (.direct .leaf id) := rfl
  have hfield : name? "field_identifier" = some (.direct .leaf id) := rfl
  have hqualified : name? "qualified_identifier" = some (.direct .leaf Text.flattenScopes) := rfl
  rcases hcases with hkind | hkind | hkind
  · simp [declaratorName,nameText,hkind,hidentifier,hleaf,Except.map,id]
  · simp [declaratorName,nameText,hkind,hfield,hleaf,Except.map,id]
  · simp [declaratorName,nameText,hkind,hqualified,hleaf,Except.map]

/-- Go over children of a node of kind `context` for a name that may have been found before. -/
def searchName (context : String) (found : Option String) (children : List ParseTree) :
    Outcome (Option String) :=
  readChildren .declaredName context found children

theorem searchName_some (name : String) (children : List ParseTree) :
    searchName context (some name) children = .ok (some name) := by
  induction children with
  | nil => rfl
  | cons child rest ih =>
    refine (readChildren_cons .declaredName context (some name) child rest).trans ?_
    by_cases hnoise : isNoise child.kind
    · rw [if_pos hnoise]
      exact ih
    · rw [if_neg hnoise]
      exact ih

theorem searchName_cons_other {child : ParseTree} (h : ¬isNaming child) (rest : List ParseTree) :
    searchName context none (child :: rest) = searchName context none rest := by
  have hplan : name? child.kind = none := by simpa [isNaming] using h
  have hkeep : stepDeclaredName none (head child) = .keep none := by
    simp [stepDeclaredName,head,hplan]
  have hstep : Rule.step .declaredName none (head child) = .keep none := hkeep
  refine (readChildren_cons .declaredName context none child rest).trans ?_
  rw [hstep]
  exact ite_self _

theorem searchName_cons_naming {child : ParseTree} {plan : Plan String}
    (h : name? child.kind = some plan) (rest : List ParseTree) :
    searchName context none (child :: rest) =
      (read plan.rule context child).bind fun value => .ok (some (plan.build value)) := by
  have hnoise : ¬isNoise child.kind := fun hnoise =>
    not_isNaming_of_isNoise hnoise (by simp [isNaming,h])
  have hdescend : stepDeclaredName none (head child) = .descend (plan.map some) := by
    simp [stepDeclaredName,head,h]
  have hstep : Rule.step .declaredName none (head child) = .descend (plan.map some) := hdescend
  have hrest : ∀ value, searchName context (some (plan.build value)) rest =
      .ok (some (plan.build value)) := fun value => searchName_some _ rest
  refine (readChildren_cons .declaredName context none child rest).trans ?_
  rw [if_neg hnoise,hstep]
  exact congrArg (Recorded.bind _) (funext hrest)

/-- Over children the first that may declare a name counts, and no later one is looked at. -/
theorem result_searchName (children : List ParseTree) :
    (searchName context none children).result =
      match children.find? isNaming with
      | some child => (declaratorName context child).map some
      | none => .ok none := by
  induction children with
  | nil => rfl
  | cons child rest ih =>
    by_cases hnaming : isNaming child
    · obtain ⟨plan,hplan⟩ := Option.isSome_iff_exists.1 hnaming
      have hname : declaratorName context child =
          (read plan.rule context child).result.map plan.build := by
        simp [declaratorName,hplan]
      rw [searchName_cons_naming hplan,List.find?_cons_of_pos hnaming,Recorded.result_bind]
      simp only [hname]
      cases (read plan.rule context child).result <;> rfl
    · rw [searchName_cons_other hnaming,ih,List.find?_cons_of_neg hnaming]

theorem declaratorName_of_wrapper (h : t.kind ∈ Rule.kinds .declaredName) :
    declaratorName context t =
      match t.children.find? isNaming with
      | some child => declaratorName t.kind child
      | none => .error (.unsupported ⟨t.kind,context⟩) := by
  have hplan : ∀ kind ∈ Rule.kinds .declaredName, name? kind = some (.direct .declaredName id) := by
    simp only [Rule.kinds,List.forall_mem_cons]
    exact ⟨rfl,rfl,rfl,List.forall_mem_nil _⟩
  have hname : declaratorName context t =
      ((searchName t.kind none t.children).bind fun found =>
        (Ending.ofOption .nameless found).outcome t.kind t.text context [context]).result.map
          id := by
    cases t with
    | node kind text children =>
      simp only [declaratorName,hplan _ h,read_node]
      rfl
  rw [hname,Recorded.result_bind,result_searchName]
  cases t.children.find? isNaming with
  | none => rfl
  | some child =>
    cases hinner : declaratorName t.kind child <;> simp only [hinner] <;> rfl

end Names

theorem Step.of_expect_name {rule : Rule} {context : String} {s next : rule.State}
    {child : ParseTree} {build : String → rule.State} (h : Step rule context s child next)
    (hexpect : rule.step s (head child) = .expect (name? child.kind) build) :
    ∃ name, declaratorName context child = .ok name ∧ next = build name := by
  obtain ⟨plan,value,hplan,hread,hnext⟩ := h.of_expect hexpect
  have hname : declaratorName context child = .ok (plan.build value) := by
    simp [declaratorName,hplan,hread,Except.map]
  exact ⟨_,hname,hnext⟩

/-- The search for a name goes from a wrapping declarator to its first child that may declare one.
Beside each declarator stands the kind of the node around it. -/
def Descends (x y : String × ParseTree) : Prop :=
  x.2.kind ∈ Rule.kinds .declaredName ∧ x.2.children.find? isNaming = some y.2 ∧ y.1 = x.2.kind

/-- The search has nowhere to go: the declarator is no name, and no child of it may declare one. -/
def Barren (t : ParseTree) : Prop :=
  t.kind ∉ nameKinds ∧ (t.kind ∈ Rule.kinds .declaredName → ∀ c ∈ t.children, ¬isNaming c)

/-- The declared part of an array declarator: what stands in front of its bounds. -/
def declaredPart (t : ParseTree) : List ParseTree := t.children.takeWhile (·.kind ≠ "[")

/-- The search goes to what is declared, and not into the bounds of an array. -/
def DescendsOwn (x y : String × ParseTree) : Prop :=
  Descends x y ∧ (x.2.kind = "array_declarator" → y.2 ∈ declaredPart x.2)

section Search
variable {x y z : String × ParseTree}

theorem Descends.declaratorName_eq (h : Descends x y) :
    declaratorName x.1 x.2 = declaratorName y.1 y.2 := by
  obtain ⟨hkind,hfind,hcontext⟩ := h
  rw [declaratorName_of_wrapper hkind,hfind,hcontext]

theorem declaratorName_eq_of_reaches (h : ReflTransGen Descends x y) :
    declaratorName x.1 x.2 = declaratorName y.1 y.2 := by
  induction h with
  | refl => rfl
  | tail _ hstep ih => exact ih.trans hstep.declaratorName_eq

theorem Descends.unique (hy : Descends x y) (hz : Descends x z) : y = z := by
  have hsecond : y.2 = z.2 := Option.some.inj (hy.2.1.symm.trans hz.2.1)
  exact Prod.ext (hy.2.2.trans hz.2.2.symm) hsecond

theorem not_descends_of_name (h : x.2.kind ∈ nameKinds) : ¬Descends x y := by
  have hother : ∀ kind ∈ nameKinds, kind ∉ Rule.kinds .declaredName := by decide
  exact fun hstep => hother _ h hstep.1

theorem declaratorName_of_barren (h : Barren x.2) :
    declaratorName x.1 x.2 = .error (.unsupported ⟨x.2.kind,x.1⟩) := by
  by_cases hwrapper : x.2.kind ∈ Rule.kinds .declaredName
  · have hnone : x.2.children.find? isNaming = none := by
      rw [List.find?_eq_none]
      exact h.2 hwrapper
    rw [declaratorName_of_wrapper hwrapper,hnone]
  · have hplan : name? x.2.kind = none := by
      have hother : ¬isNaming x.2 := fun hnaming =>
        (isNaming_iff.1 hnaming).elim h.1 hwrapper
      simpa [isNaming] using hother
    simp [declaratorName,hplan]

theorem exists_search_end (t : ParseTree) : ∀ context, ∃ y,
    ReflTransGen Descends (context,t) y ∧ (y.2.kind ∈ nameKinds ∨ Barren y.2) := by
  induction t using ParseTree.induct_children with
  | step t ih =>
    intro context
    by_cases hname : t.kind ∈ nameKinds
    · exact ⟨_,.refl,.inl hname⟩
    by_cases hbarren : Barren t
    · exact ⟨_,.refl,.inr hbarren⟩
    obtain ⟨hwrapper,c,hc,hnaming⟩ : t.kind ∈ Rule.kinds .declaredName ∧
        ∃ c ∈ t.children, isNaming c := by simpa [Barren,hname] using hbarren
    obtain ⟨inner,hinner⟩ : ∃ inner, t.children.find? isNaming = some inner := by
      rw [← Option.isSome_iff_exists,List.find?_isSome]
      exact ⟨c,hc,hnaming⟩
    have hstep : Descends (context,t) (t.kind,inner) := ⟨hwrapper,hinner,rfl⟩
    obtain ⟨y,hreaches,hend⟩ := ih inner (List.mem_of_find?_eq_some hinner) t.kind
    exact ⟨y,hreaches.head hstep,hend⟩

theorem descendsOwn_iff (h : Descends x y) :
    DescendsOwn x y ↔ (x.2.kind = "array_declarator" → ∃ c ∈ declaredPart x.2, isNaming c) := by
  have hnaming : isNaming y.2 := List.find?_some h.2.1
  refine ⟨fun hown harray => ⟨y.2,hown.2 harray,hnaming⟩,fun hpart => ⟨h,fun harray => ?_⟩⟩
  have hsplit : x.2.children.find? isNaming = ((declaredPart x.2).find? isNaming).or
      ((x.2.children.dropWhile (·.kind ≠ "[")).find? isNaming) := by
    rw [← List.find?_append,declaredPart,List.takeWhile_append_dropWhile]
  obtain ⟨inner,hinner⟩ : ∃ inner, (declaredPart x.2).find? isNaming = some inner := by
    rw [← Option.isSome_iff_exists,List.find?_isSome]
    exact hpart harray
  have hfound : some inner = some y.2 := by
    rw [← h.2.1,hsplit,hinner]
    rfl
  exact Option.some.inj hfound ▸ List.mem_of_find?_eq_some hinner

/-- A name is found in what is declared exactly if every array on the way to it has a part in front
of its bounds that may declare a name. -/
theorem reaches_own_iff (hreaches : ReflTransGen Descends x y) (hname : y.2.kind ∈ nameKinds) :
    ReflTransGen DescendsOwn x y ↔ ∀ z, ReflTransGen Descends x z →
      z.2.kind = "array_declarator" → ∃ c ∈ declaredPart z.2, isNaming c := by
  induction hreaches using ReflTransGen.head_induction_on with
  | refl =>
    refine ⟨fun _ z hz harray => ?_,fun _ => .refl⟩
    rcases hz.cases_head with rfl | ⟨w,hstep,-⟩
    · rw [harray] at hname
      exact absurd hname (by decide)
    · exact absurd hstep (not_descends_of_name hname)
  | @head x w hstep hrest ih =>
    constructor
    · intro hown z hz harray
      rcases hown.cases_head with rfl | ⟨v,hv,hlater⟩
      · exact absurd hstep (not_descends_of_name hname)
      · -- The search has one way to go, so both ways agree step by step.
        obtain rfl := hv.1.unique hstep
        rcases hz.cases_head with rfl | ⟨u,hu,hz⟩
        · exact (descendsOwn_iff hstep).1 hv harray
        · obtain rfl := hu.unique hstep
          exact ih.1 hlater z hz harray
    · intro hall
      have hown : DescendsOwn x w := (descendsOwn_iff hstep).2 (hall x .refl)
      exact .head hown (ih.2 fun z hz => hall z (hz.head hstep))

end Search

/-- The name of a declarator is the name that the search ends at, and there is none exactly if the
search ends at a declarator without one, which is then reported with the kind of the node around it.
The search keeps out of the bounds of arrays exactly if every array that it comes by has a part in
front of its bounds that may declare a name. -/
theorem declaratorName_search (context : String) (t : ParseTree) :
    (∀ name, declaratorName context t = .ok name ↔ ∃ y, ReflTransGen Descends (context,t) y ∧
      y.2.kind ∈ nameKinds ∧ nameText y.2 = name) ∧
    (∀ failure, declaratorName context t = .error failure ↔
      ∃ y, ReflTransGen Descends (context,t) y ∧ Barren y.2 ∧
        failure = .unsupported ⟨y.2.kind,y.1⟩) ∧
    ∀ y, ReflTransGen Descends (context,t) y → y.2.kind ∈ nameKinds →
      (ReflTransGen DescendsOwn (context,t) y ↔ ∀ z, ReflTransGen Descends (context,t) z →
        z.2.kind = "array_declarator" → ∃ c ∈ declaredPart z.2, isNaming c) := by
  have hok : ∀ y, ReflTransGen Descends (context,t) y → y.2.kind ∈ nameKinds →
      declaratorName context t = .ok (nameText y.2) := fun y hy hname =>
    (declaratorName_eq_of_reaches hy).trans (declaratorName_of_name hname)
  have herror : ∀ y, ReflTransGen Descends (context,t) y → Barren y.2 →
      declaratorName context t = .error (.unsupported ⟨y.2.kind,y.1⟩) := fun y hy hbarren =>
    (declaratorName_eq_of_reaches hy).trans (declaratorName_of_barren hbarren)
  obtain ⟨last,hlast,hend⟩ := exists_search_end t context
  refine ⟨fun name => ⟨fun h => ?_,?_⟩,fun failure => ⟨fun h => ?_,?_⟩,
    fun y hy hname => reaches_own_iff hy hname⟩
  · rcases hend with hname | hbarren
    · exact ⟨last,hlast,hname,Except.ok.inj ((hok last hlast hname).symm.trans h)⟩
    · exact nomatch (herror last hlast hbarren).symm.trans h
  · rintro ⟨y,hy,hname,rfl⟩
    exact hok y hy hname
  · rcases hend with hname | hbarren
    · exact nomatch (hok last hlast hname).symm.trans h
    · exact ⟨last,hlast,hbarren,Except.error.inj (h.symm.trans (herror last hlast hbarren))⟩
  · rintro ⟨y,hy,hbarren,rfl⟩
    exact herror y hy hbarren

/-- `*rows[N]`, an array of pointers. -/
def gridDeclarator : ParseTree :=
  .node "array_declarator" "*rows[N]" [
    .node "pointer_declarator" "*rows" [.node "*" "*" [],.node "identifier" "rows" []],
    .node "[" "[" [],.node "identifier" "N" [],.node "]" "]" []]

theorem declaratorName_gridDeclarator :
    ReflTransGen DescendsOwn ("declaration",gridDeclarator)
        ("pointer_declarator",.node "identifier" "rows" []) ∧
      declaratorName "declaration" gridDeclarator = .ok "rows" := by
  have harray : DescendsOwn ("declaration",gridDeclarator) ("array_declarator",
      .node "pointer_declarator" "*rows" [.node "*" "*" [],.node "identifier" "rows" []]) :=
    ⟨⟨by decide,rfl,rfl⟩,fun _ => .head _⟩
  have hpointer : DescendsOwn ("array_declarator",
      .node "pointer_declarator" "*rows" [.node "*" "*" [],.node "identifier" "rows" []])
      ("pointer_declarator",.node "identifier" "rows" []) :=
    ⟨⟨by decide,rfl,rfl⟩,fun h => absurd h (by decide)⟩
  have hfound : ReflTransGen Descends ("declaration",gridDeclarator)
      ("pointer_declarator",.node "identifier" "rows" []) := .head harray.1 (.single hpointer.1)
  obtain ⟨hname,-,-⟩ := declaratorName_search "declaration" gridDeclarator
  exact ⟨.head harray (.single hpointer),(hname "rows").2 ⟨_,hfound,by decide,rfl⟩⟩

/-- `(*p)[N]`, a pointer to an array. -/
def boundsDeclarator : ParseTree :=
  .node "array_declarator" "(*p)[N]" [
    .node "parenthesized_declarator" "(*p)" [.node "(" "(" [],
      .node "pointer_declarator" "*p" [.node "*" "*" [],.node "identifier" "p" []],
      .node ")" ")" []],
    .node "[" "[" [],.node "identifier" "N" [],.node "]" "]" []]

/-- `int (*p)[N];`. -/
def boundsFile : ParseTree :=
  .node "translation_unit" "" [.node "declaration" "" [.node "primitive_type" "int" [],
    boundsDeclarator,.node ";" ";" []]]

/-- A pointer to an array is declared under the name of the bound. -/
theorem declaratorName_boundsDeclarator :
    (readFile boundsFile).result = .ok [.declaration [⟨"N",some "int",none,false⟩]] ∧
      declaratorName "declaration" boundsDeclarator = .ok "N" ∧
      ¬∃ y, ReflTransGen DescendsOwn ("declaration",boundsDeclarator) y ∧
        y.2.kind ∈ nameKinds := by
  refine ⟨rfl,rfl,?_⟩
  rintro ⟨y,hy,hname⟩
  rcases hy.cases_head with rfl | ⟨z,⟨hstep,hown⟩,-⟩
  · exact absurd hname (by decide)
  · have hnaming : isNaming z.2 := List.find?_some hstep.2.1
    have hpart : z.2 ∈ declaredPart boundsDeclarator := hown rfl
    have hnone : ∀ c ∈ declaredPart boundsDeclarator, ¬isNaming c :=
      List.forall_mem_singleton.2 (by decide)
    exact hnone z.2 hpart hnaming

end Reading
end Scribe
