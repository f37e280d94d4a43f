import Scribe.Proofs.RuleRun

/-! Items inside namespaces and conditional regions. What an item of a file stands for is found
again in the program, inside the namespaces that have a name; those without one and the first
branches of regions leave no trace. -/
namespace Scribe
namespace Reading
open Program

def titleKinds : List String := ["identifier","namespace_identifier","nested_namespace_specifier"]

/-- What a region has in front of its items, next to noise and its later branches. -/
def regionTokens : List String := ["\n","#endif","#if","#ifdef","#ifndef"]

/-- Read as an item, a tree stands for these nodes. -/
def Stands (tree : ParseTree) (nodes : List Node) : Prop :=
  ∃ plan context value, item? tree.kind = some plan ∧
    (read plan.rule context tree).result = .ok value ∧ plan.build value = nodes

theorem Stands.run {tree : ParseTree} {nodes : List Node} (h : Stands tree nodes)
    {plan : Plan (List Node)} (hplan : item? tree.kind = some plan) :
    ∃ s value, Run plan.rule tree.kind plan.rule.start (heard tree.children) s ∧
      (plan.rule.finish tree.text s = .done value ∨
        plan.rule.finish tree.text s = .lacksRight value) ∧ plan.build value = nodes := by
  obtain ⟨plan',context,value,hplan',hread,hbuild⟩ := h
  obtain rfl : plan' = plan := Option.some.inj (hplan'.symm.trans hplan)
  obtain ⟨s,hrun,hfinish⟩ := read_eq_ok.1 hread
  exact ⟨s,value,hrun,hfinish,hbuild⟩

theorem Step.item {rule : Rule} {context : String} {s next : rule.State} {child : ParseTree}
    {build : List Node → rule.State} (h : Step rule context s child next)
    (hstep : rule.step s (head child) = .expect (item? child.kind) build) :
    ∃ nodes, Stands child nodes ∧ next = build nodes := by
  obtain ⟨plan,value,hplan,hread,hnext⟩ := h.of_expect hstep
  exact ⟨plan.build value,⟨plan,context,value,hplan,hread,rfl⟩,hnext⟩

theorem plain_of_item? {kind : String} {plan : Plan (List Node)} (h : item? kind = some plan) :
    ¬isNoise kind ∧ kind ∉ ["\x7b","\x7d"] ∧ kind ∉ regionTokens ∧ kind ∉ laterBranches := by
  have htables : ∀ entry ∈ itemRules.map (·.1) ++ statementRules.map (·.1),
      ¬isNoise entry ∧ entry ∉ ["\x7b","\x7d"] ∧ entry ∉ regionTokens ∧
        entry ∉ laterBranches := by
    decide
  apply htables
  rcases item?_cases h with hitem | hstatement
  · exact List.mem_append_left _ (List.mem_map_of_mem hitem)
  · exact List.mem_append_right _ (List.mem_map_of_mem hstatement)

section Steps
variable {context : String} {child : ParseTree}

theorem Step.items {s next : List Node} (h : Step .items context s child next) :
    (child.kind ∈ ["\x7b","\x7d"] ∧ next = s) ∨
      ∃ nodes, Stands child nodes ∧ next = s ++ nodes := by
  by_cases hbrace : child.kind ∈ ["\x7b","\x7d"]
  · exact .inl ⟨hbrace,h.of_keep (if_pos hbrace)⟩
  · exact .inr (h.item (if_neg hbrace))

theorem Step.region {s next : RegionSlots} (h : Step .conditionalRegion context s child next) :
    ((child.kind ∈ regionTokens ∨ child.kind ∈ laterBranches) ∧ next = s) ∨
      (s.seenCondition = false ∧ next = { s with seenCondition := true }) ∨
      (s.seenCondition ∧ ∃ nodes, Stands child nodes ∧
        next = { s with items := s.items ++ nodes }) := by
  by_cases htoken : child.kind ∈ regionTokens
  · exact .inl ⟨.inl htoken,h.of_keep (if_pos htoken)⟩
  by_cases hlater : child.kind ∈ laterBranches
  · exact .inl ⟨.inr hlater,h.of_keep ((if_neg htoken).trans (if_pos hlater))⟩
  by_cases hseen : s.seenCondition
  · have hrest : ¬(!s.seenCondition) = true := by simp [hseen]
    exact .inr (.inr ⟨hseen,
      h.item ((if_neg htoken).trans ((if_neg hlater).trans (if_neg hrest)))⟩)
  · have hfirst : (!s.seenCondition) = true := by simp [hseen]
    exact .inr (.inl ⟨by simpa using hseen,
      h.of_keep ((if_neg htoken).trans ((if_neg hlater).trans (if_pos hfirst)))⟩)

theorem Step.namespaceDefinition {s next : NamespaceSlots}
    (h : Step .namespaceDefinition context s child next) :
    (child.kind ∉ titleKinds ∧ child.kind ≠ "declaration_list" ∧ next = s) ∨
      (child.kind ∈ titleKinds ∧ s.name = none ∧ s.body = none ∧
        next = { s with name := some (Text.flattenScopes child.text) }) ∨
      (child.kind = "declaration_list" ∧ s.body = none ∧
        ∃ body, (read .items context child).result = .ok body ∧
          next = { s with body := some body }) := by
  by_cases htoken : child.kind ∈ ["namespace","inline"]
  · have hother : ∀ kind ∈ ["namespace","inline"], kind ∉ titleKinds ∧
        kind ≠ "declaration_list" := by decide
    obtain ⟨htitle,hlist⟩ := hother _ htoken
    exact .inl ⟨htitle,hlist,h.of_keep (if_pos htoken)⟩
  by_cases htitle : child.kind ∈ titleKinds ∧ s.name.isNone ∧ s.body.isNone
  · exact .inr (.inl ⟨htitle.1,Option.isNone_iff_eq_none.1 htitle.2.1,
      Option.isNone_iff_eq_none.1 htitle.2.2,
      h.of_keep ((if_neg htoken).trans (if_pos htitle))⟩)
  by_cases hlist : child.kind = "declaration_list" ∧ s.body.isNone
  · exact .inr (.inr ⟨hlist.1,Option.isNone_iff_eq_none.1 hlist.2,
      h.of_descend ((if_neg htoken).trans ((if_neg htitle).trans (if_pos hlist)))⟩)
  · exact absurd ((if_neg htoken).trans ((if_neg htitle).trans (if_neg hlist))) h.not_reject

end Steps

section Runs
variable {context : String} {children : List ParseTree} {child : ParseTree}

theorem Run.items_stand {s final : List Node} (h : Run .items context s children final)
    (hchild : child ∈ children) {plan : Plan (List Node)} (hplan : item? child.kind = some plan) :
    ∃ nodes earlier later, Stands child nodes ∧ final = earlier ++ nodes ++ later := by
  obtain ⟨before,after,rfl⟩ := List.append_of_mem hchild
  obtain ⟨mid,next,-,hstep,hafter⟩ := h.at_child
  have hgrows : next <+: final := by
    refine hafter.grows (fun items : List Node => items) fun s c next hstep => ?_
    rcases Step.items hstep with ⟨-,rfl⟩ | ⟨nodes,-,rfl⟩
    · exact List.prefix_refl _
    · exact List.prefix_append _ _
  rcases Step.items hstep with ⟨hbrace,-⟩ | ⟨nodes,hnodes,rfl⟩
  · exact absurd hbrace (plain_of_item? hplan).2.1
  · obtain ⟨later,rfl⟩ := hgrows
    exact ⟨nodes,mid,later,hnodes,rfl⟩

theorem Run.seenCondition {s final : RegionSlots}
    (h : Run .conditionalRegion context s children final) (hchild : child ∈ children)
    (hplain : child.kind ∉ regionTokens ∧ child.kind ∉ laterBranches) : final.seenCondition := by
  refine h.sets hchild (fun s : RegionSlots => s.seenCondition) (fun s next hstep => ?_)
    fun s c next hstep hs => ?_
  · rcases Step.region hstep with ⟨htoken | hlater,-⟩ | ⟨-,rfl⟩ | ⟨hseen,nodes,-,rfl⟩
    · exact absurd htoken hplain.1
    · exact absurd hlater hplain.2
    · rfl
    · exact hseen
  · rcases Step.region hstep with ⟨-,rfl⟩ | ⟨-,rfl⟩ | ⟨-,nodes,-,rfl⟩
    · exact hs
    · rfl
    · exact hs

theorem Run.region_stands {s final : RegionSlots} {before after : List ParseTree}
    (h : Run .conditionalRegion context s (before ++ child :: after) final)
    {condition : ParseTree} (hcondition : condition ∈ before)
    (hplain : condition.kind ∉ regionTokens ∧ condition.kind ∉ laterBranches)
    {plan : Plan (List Node)} (hplan : item? child.kind = some plan) :
    ∃ nodes earlier later, Stands child nodes ∧ final.items = earlier ++ nodes ++ later := by
  obtain ⟨mid,next,hbefore,hstep,hafter⟩ := h.at_child
  have hseen : RegionSlots.seenCondition mid := hbefore.seenCondition hcondition hplain
  have hgrows : RegionSlots.items next <+: final.items := by
    refine hafter.grows RegionSlots.items fun s c next hstep => ?_
    rcases Step.region hstep with ⟨-,rfl⟩ | ⟨-,rfl⟩ | ⟨-,nodes,-,rfl⟩
    · exact List.prefix_refl _
    · exact List.prefix_refl _
    · exact List.prefix_append _ _
  rcases Step.region hstep with ⟨htoken | hlater,-⟩ | ⟨hunseen,-⟩ | ⟨-,nodes,hnodes,rfl⟩
  · exact absurd htoken (plain_of_item? hplan).2.2.1
  · exact absurd hlater (plain_of_item? hplan).2.2.2
  · simp [hseen] at hunseen
  · obtain ⟨later,hlater⟩ := hgrows
    exact ⟨nodes,RegionSlots.items mid,later,hnodes,hlater.symm⟩

theorem Run.namespace_name {s final : NamespaceSlots}
    (h : Run .namespaceDefinition context s children final) (hchild : child ∈ children)
    (hkind : child.kind ∈ titleKinds) : final.name = some (Text.flattenScopes child.text) := by
  refine h.sets hchild (fun s : NamespaceSlots => s.name = some _) (fun s next hstep => ?_)
    fun s c next hstep hs => ?_
  · rcases Step.namespaceDefinition hstep with ⟨hother,-⟩ | ⟨-,-,-,rfl⟩ | ⟨hlist,-⟩
    · exact absurd hkind hother
    · rfl
    · rw [hlist] at hkind
      exact absurd hkind (by decide)
  · rcases Step.namespaceDefinition hstep with ⟨-,-,rfl⟩ | ⟨-,hnone,-,rfl⟩ | ⟨-,-,body,-,rfl⟩
    · exact hs
    · simp [hnone] at hs
    · exact hs

theorem Run.namespace_nameless {s final : NamespaceSlots}
    (h : Run .namespaceDefinition context s children final)
    (hkinds : ∀ c ∈ children, c.kind ∉ titleKinds) (hs : s.name = none) : final.name = none := by
  refine h.preserves (fun s : NamespaceSlots => s.name = none) (fun s c next hc hstep hs => ?_) hs
  rcases Step.namespaceDefinition hstep with ⟨-,-,rfl⟩ | ⟨htitle,-⟩ | ⟨-,-,body,-,rfl⟩
  · exact hs
  · exact absurd htitle (hkinds c hc)
  · exact hs

theorem Run.namespace_body {s final : NamespaceSlots}
    (h : Run .namespaceDefinition context s children final) (hchild : child ∈ children)
    (hkind : child.kind = "declaration_list") :
    ∃ body, (read .items context child).result = .ok body ∧ final.body = some body := by
  refine h.sets hchild (fun s : NamespaceSlots =>
      ∃ body, (read .items context child).result = .ok body ∧ s.body = some body)
    (fun s next hstep => ?_) fun s c next hstep hs => ?_
  · rcases Step.namespaceDefinition hstep with ⟨-,hother,-⟩ | ⟨htitle,-⟩ | ⟨-,-,body,hbody,rfl⟩
    · exact absurd hkind hother
    · rw [hkind] at htitle
      exact absurd htitle (by decide)
    · exact ⟨body,hbody,rfl⟩
  · rcases Step.namespaceDefinition hstep with ⟨-,-,rfl⟩ | ⟨-,-,-,rfl⟩ | ⟨-,hnone,-⟩
    · exact hs
    · exact hs
    · simp [hnone] at hs

end Runs

theorem stands_of_list {context : String} {list inner : ParseTree} {body : List Node}
    (h : (read .items context list).result = .ok body) (hinner : inner ∈ list.children)
    {plan : Plan (List Node)} (hplan : item? inner.kind = some plan) :
    ∃ nodes earlier later, Stands inner nodes ∧ body = earlier ++ nodes ++ later := by
  obtain ⟨s,hrun,hfinish⟩ := read_eq_ok.1 h
  obtain rfl : body = s := Ending.eq_of_done hfinish
  exact hrun.items_stand (mem_heard.2 ⟨hinner,(plain_of_item? hplan).1⟩) hplan

/-- A tree with an item inside, below namespaces with these names and any number of nameless
ones and of first branches of regions. -/
inductive Nested (item : ParseTree) : List String → ParseTree → Prop
  | here : Nested item [] item
  | named {tree title list inner : ParseTree} {names : List String} :
      tree.kind = "namespace_definition" → title ∈ tree.children → title.kind ∈ titleKinds →
      list ∈ tree.children → list.kind = "declaration_list" → inner ∈ list.children →
      Nested item names inner → Nested item (title.text :: names) tree
  | nameless {tree list inner : ParseTree} {names : List String} :
      tree.kind = "namespace_definition" → (∀ c ∈ tree.children, c.kind ∉ titleKinds) →
      list ∈ tree.children → list.kind = "declaration_list" → inner ∈ list.children →
      Nested item names inner → Nested item names tree
  | region {tree condition inner : ParseTree} {before after : List ParseTree}
      {names : List String} :
      tree.kind ∈ regionKinds → tree.children = before ++ inner :: after → condition ∈ before →
      ¬isNoise condition.kind → condition.kind ∉ regionTokens → condition.kind ∉ laterBranches →
      Nested item names inner → Nested item names tree

/-- Nodes with others among them, inside namespaces of these names. -/
inductive Within (nodes : List Node) : List String → List Node → Prop
  | here {before after : List Node} : Within nodes [] (before ++ nodes ++ after)
  | inNamespace {name : String} {names : List String} {body before after : List Node} :
      Within nodes names body →
      Within nodes (name :: names) (before ++ .namespaceBlock name body :: after)

theorem Within.widen {nodes ns : List Node} {names : List String} (h : Within nodes names ns)
    (before after : List Node) : Within nodes names (before ++ ns ++ after) := by
  cases h with
  | @here xs ys =>
    have heq : before ++ (xs ++ nodes ++ ys) ++ after = before ++ xs ++ nodes ++ (ys ++ after) := by
      simp
    rw [heq]
    exact .here
  | @inNamespace name names body xs ys hbody =>
    have heq : before ++ (xs ++ .namespaceBlock name body :: ys) ++ after =
        before ++ xs ++ .namespaceBlock name body :: (ys ++ after) := by
      simp
    rw [heq]
    exact .inNamespace hbody

theorem Stands.namespaceDefinition {tree : ParseTree} {nodes : List Node} (h : Stands tree nodes)
    (hkind : tree.kind = "namespace_definition") :
    ∃ s : NamespaceSlots, Run .namespaceDefinition tree.kind ({} : NamespaceSlots)
      (heard tree.children) s ∧ s.finish = .done nodes := by
  have hplan : item? tree.kind = some (.nested .namespaceDefinition id) := by
    rw [hkind]
    rfl
  obtain ⟨s,value,hrun,hfinish,rfl⟩ := h.run hplan
  refine ⟨s,hrun,?_⟩
  rcases hfinish with hdone | hlacks
  · exact hdone
  · have hlacks' : NamespaceSlots.finish s = .lacksRight value := hlacks
    cases hname : NamespaceSlots.name s <;> simp [NamespaceSlots.finish,hname] at hlacks'

theorem Stands.namespace_member {tree list inner : ParseTree} {ns : List Node} (h : Stands tree ns)
    (hkind : tree.kind = "namespace_definition") (hlist : list ∈ tree.children)
    (hlistKind : list.kind = "declaration_list") (hinner : inner ∈ list.children)
    {plan : Plan (List Node)} (hplan : item? inner.kind = some plan) :
    ∃ s : NamespaceSlots, Run .namespaceDefinition tree.kind ({} : NamespaceSlots)
      (heard tree.children) s ∧ s.finish = .done ns ∧
      ∃ nodes earlier later, Stands inner nodes ∧ s.body = some (earlier ++ nodes ++ later) := by
  obtain ⟨s,hrun,hfinish⟩ := h.namespaceDefinition hkind
  have hnoise : ¬isNoise list.kind := by
    rw [hlistKind]
    decide
  obtain ⟨body,hread,hbody⟩ := hrun.namespace_body (mem_heard.2 ⟨hlist,hnoise⟩) hlistKind
  obtain ⟨nodes,earlier,later,hnodes,rfl⟩ := stands_of_list hread hinner hplan
  exact ⟨s,hrun,hfinish,nodes,earlier,later,hnodes,hbody⟩

theorem Stands.region {tree : ParseTree} {nodes : List Node} (h : Stands tree nodes)
    (hkind : tree.kind ∈ regionKinds) :
    ∃ s : RegionSlots, Run .conditionalRegion tree.kind ({} : RegionSlots)
      (heard tree.children) s ∧ s.items = nodes := by
  have hplan : item? tree.kind = some (.nested .conditionalRegion id) := by
    simp only [regionKinds,List.mem_cons,List.not_mem_nil,or_false] at hkind
    rcases hkind with hkind | hkind <;> rw [hkind] <;> rfl
  obtain ⟨s,value,hrun,hfinish,rfl⟩ := h.run hplan
  refine ⟨s,hrun,?_⟩
  exact (Ending.eq_of_done hfinish).symm

section Nests
variable {item tree : ParseTree} {names : List String}

theorem Nested.item? (h : Nested item names tree) {plan : Plan (List Node)}
    (hitem : item? item.kind = some plan) : ∃ plan', Reading.item? tree.kind = some plan' := by
  cases h with
  | here => exact ⟨plan,hitem⟩
  | named hkind | nameless hkind =>
    refine ⟨.nested .namespaceDefinition id,?_⟩
    rw [hkind]
    rfl
  | region hkind =>
    refine ⟨.nested .conditionalRegion id,?_⟩
    simp only [regionKinds,List.mem_cons,List.not_mem_nil,or_false] at hkind
    rcases hkind with hkind | hkind <;> rw [hkind] <;> rfl

/-- What an item stands for is found where the item is, inside the namespaces around it. -/
theorem Nested.within (h : Nested item names tree) {plan : Plan (List Node)}
    (hitem : Reading.item? item.kind = some plan) {ns : List Node} (hns : Stands tree ns) :
    ∃ nodes, Stands item nodes ∧ Within nodes (names.map Text.flattenScopes) ns := by
  -- Each level of the nest adds its other members around what the level below stands for.
  induction h generalizing ns with
  | here =>
    refine ⟨ns,hns,?_⟩
    have hhere : Within ns [] ([] ++ ns ++ []) := .here
    simpa using hhere
  | @named tree title list inner names hkind htitle htitleKind hlist hlistKind hinner hnest ih =>
    obtain ⟨innerPlan,hplan⟩ := hnest.item? hitem
    obtain ⟨s,hrun,hfinish,members,earlier,later,hmembers,hbody⟩ :=
      hns.namespace_member hkind hlist hlistKind hinner hplan
    have hheard : title ∈ heard tree.children := by
      have hnoise : ∀ kind ∈ titleKinds, ¬isNoise kind := by decide
      exact mem_heard.2 ⟨htitle,hnoise _ htitleKind⟩
    have hname : s.name = some (Text.flattenScopes title.text) :=
      hrun.namespace_name hheard htitleKind
    obtain rfl : [.namespaceBlock (Text.flattenScopes title.text) (earlier ++ members ++ later)] =
        ns := by
      simpa [NamespaceSlots.finish,hname,hbody] using hfinish
    obtain ⟨nodes,hnodes,hwithin⟩ := ih hmembers
    have hblock : Within nodes ((title.text :: names).map Text.flattenScopes)
        ([] ++ [.namespaceBlock (Text.flattenScopes title.text) (earlier ++ members ++ later)]) :=
      .inNamespace (hwithin.widen earlier later)
    exact ⟨nodes,hnodes,hblock⟩
  | @nameless tree list inner names hkind hkinds hlist hlistKind hinner hnest ih =>
    obtain ⟨innerPlan,hplan⟩ := hnest.item? hitem
    obtain ⟨s,hrun,hfinish,members,earlier,later,hmembers,hbody⟩ :=
      hns.namespace_member hkind hlist hlistKind hinner hplan
    have hname : s.name = none :=
      hrun.namespace_nameless (fun c hc => hkinds c (mem_heard.1 hc).1) rfl
    obtain rfl : earlier ++ members ++ later = ns := by
      simpa [NamespaceSlots.finish,hname,hbody] using hfinish
    obtain ⟨nodes,hnodes,hwithin⟩ := ih hmembers
    exact ⟨nodes,hnodes,hwithin.widen earlier later⟩
  | @region tree condition inner before after names hkind hsplit hcondition hnoise htoken hlater
      hnest ih =>
    obtain ⟨innerPlan,hplan⟩ := hnest.item? hitem
    obtain ⟨s,hrun,rfl⟩ := hns.region hkind
    rw [hsplit,heard_append,heard_cons (plain_of_item? hplan).1] at hrun
    obtain ⟨members,earlier,later,hmembers,heq⟩ :=
      hrun.region_stands (mem_heard.2 ⟨hcondition,hnoise⟩) ⟨htoken,hlater⟩ hplan
    obtain ⟨nodes,hnodes,hwithin⟩ := ih hmembers
    rw [heq]
    exact ⟨nodes,hnodes,hwithin.widen earlier later⟩

/-- What an item of a file stands for is found in the program that is read from the file. -/
theorem within_of_readFile {root : ParseTree} {program : List Node}
    (hread : (readFile root).result = .ok program) (htree : tree ∈ root.children)
    (hnest : Nested item names tree) {plan : Plan (List Node)}
    (hitem : Reading.item? item.kind = some plan) :
    ∃ nodes, Stands item nodes ∧ Within nodes (names.map Text.flattenScopes) program := by
  have hroot : root.kind = "translation_unit" := by
    by_contra hroot
    rw [readFile_of_not_unit hroot] at hread
    simp [Outcome.unsupported] at hread
  rw [readFile_of_unit hroot] at hread
  obtain ⟨treePlan,hplan⟩ := hnest.item? hitem
  obtain ⟨ns,earlier,later,hns,rfl⟩ := stands_of_list hread htree hplan
  obtain ⟨nodes,hnodes,hwithin⟩ := hnest.within hitem hns
  exact ⟨nodes,hnodes,hwithin.widen earlier later⟩

end Nests
end Reading
end Scribe
