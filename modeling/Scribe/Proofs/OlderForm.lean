import Scribe.Proofs.RuleRun

/-! Two forms of parse trees. The alternative of an `if` stands in a clause or behind a bare
`else`, and an index in a list or between bare brackets. A tree in which the clauses and the lists
are replaced by what is in them is read as the same program. -/
namespace Scribe
namespace ParseTree
open Reading

/-- What a child of a node of kind `parent` is replaced by: a clause with one alternative by the
alternative behind an `else`, and a list with one index in brackets by the three. -/
def unwrap (parent : String) (child : ParseTree) : List ParseTree :=
  if parent = "if_statement" ∧ child.kind = "else_clause" then
    match (heard child.children).filter (·.kind != "else") with
    | [alternative] => [node "else" "else" [], alternative]
    | _ => [child]
  else if parent = "subscript_expression" ∧ child.kind = "subscript_argument_list" then
    match heard child.children with
    | [opening, index, closing] =>
      if opening.kind = "[" ∧ closing.kind = "]" then [opening, index, closing] else [child]
    | _ => [child]
  else [child]

mutual
/-- The older form of a tree, with every clause and list replaced at every depth. -/
def older : ParseTree → ParseTree
  | node kind text children => node kind text (olderAll kind children)

def olderAll (parent : String) : List ParseTree → List ParseTree
  | [] => []
  | child :: rest => unwrap parent (older child) ++ olderAll parent rest
end

@[simp] theorem kind_older (t : ParseTree) : t.older.kind = t.kind := by
  cases t
  rfl

@[simp] theorem text_older (t : ParseTree) : t.older.text = t.text := by
  cases t
  rfl

theorem children_older (t : ParseTree) : t.older.children = olderAll t.kind t.children := by
  cases t
  rfl

theorem unwrap_cases (parent : String) (child : ParseTree) :
    unwrap parent child = [child] ∨
    (∃ alternative, parent = "if_statement" ∧ child.kind = "else_clause" ∧
      (heard child.children).filter (·.kind != "else") = [alternative] ∧
      unwrap parent child = [node "else" "else" [],alternative]) ∨
    (∃ opening index closing, parent = "subscript_expression" ∧
      child.kind = "subscript_argument_list" ∧ heard child.children = [opening,index,closing] ∧
      opening.kind = "[" ∧ closing.kind = "]" ∧
      unwrap parent child = [opening,index,closing]) := by
  by_cases hclause : parent = "if_statement" ∧ child.kind = "else_clause"
  · rw [unwrap,if_pos hclause]
    split
    · rename_i alternative halternative
      exact .inr (.inl ⟨alternative,hclause.1,hclause.2,halternative,rfl⟩)
    · exact .inl rfl
  · rw [unwrap,if_neg hclause]
    split
    · rename_i hlist
      split
      · rename_i opening index closing hchildren
        split
        · rename_i hbrackets
          exact .inr (.inr ⟨opening,index,closing,hlist.1,hlist.2,hchildren,hbrackets.1,hbrackets.2,
            rfl⟩)
        · exact .inl rfl
      · exact .inl rfl
    · exact .inl rfl

theorem unwrap_of_kind {parent : String} {child : ParseTree} (hclause : child.kind ≠ "else_clause")
    (hlist : child.kind ≠ "subscript_argument_list") : unwrap parent child = [child] := by
  rw [unwrap,if_neg (fun h => hclause h.2),if_neg (fun h => hlist h.2)]

end ParseTree

namespace Reading
open Program ParseTree

theorem heard_unwrap {parent : String} {child : ParseTree} (h : ¬isNoise child.kind) :
    heard (unwrap parent child) = unwrap parent child := by
  have hheard : ∀ cs : List ParseTree, (∀ c ∈ cs, ¬isNoise c.kind) → heard cs = cs :=
    fun cs hcs => List.filter_eq_self.2 (by simpa using hcs)
  rcases unwrap_cases parent child with hsame | ⟨alternative,-,-,halternative,hunwrap⟩ |
    ⟨opening,index,closing,-,-,hchildren,-,-,hunwrap⟩
  · rw [hsame]
    exact hheard _ (by simpa using h)
  · have hmem : alternative ∈ heard child.children :=
      (List.mem_filter.1 (halternative ▸ List.mem_singleton_self alternative)).1
    rw [hunwrap]
    refine hheard _ (List.forall_mem_cons.2 ⟨by decide,List.forall_mem_singleton.2 ?_⟩)
    exact (mem_heard.1 hmem).2
  · rw [hunwrap,← hchildren]
    exact hheard _ fun c hc => (mem_heard.1 hc).2

theorem heard_olderAll (parent : String) (children : List ParseTree) :
    heard (olderAll parent children) =
      (heard children).flatMap fun child => unwrap parent child.older := by
  induction children with
  | nil => rfl
  | cons child rest ih =>
    rw [olderAll,heard_append,ih]
    by_cases hnoise : isNoise child.kind
    · have hne : ∀ kind, ¬isNoise kind → child.kind ≠ kind := fun kind hkind heq => hkind (heq ▸ hnoise)
      have hsame : unwrap parent child.older = [child.older] :=
        unwrap_of_kind (by simpa using hne _ (by decide)) (by simpa using hne _ (by decide))
      rw [hsame,heard_cons_of_noise (by simpa using hnoise),heard_cons_of_noise hnoise]
      rfl
    · rw [heard_unwrap (by simpa using hnoise),heard_cons hnoise,List.flatMap_cons]

theorem anyDeclaresFunction_append (xs ys : List ParseTree) :
    anyDeclaresFunction (xs ++ ys) = (anyDeclaresFunction xs || anyDeclaresFunction ys) := by
  induction xs with
  | nil => rfl
  | cons x xs ih => rw [List.cons_append,anyDeclaresFunction,ih,anyDeclaresFunction,Bool.or_assoc]

mutual
theorem declaresFunction_older : ∀ t : ParseTree, declaresFunction t.older = declaresFunction t
  | .node kind text children => by
    rw [older,declaresFunction,declaresFunction]
    by_cases hwrapping : kind ∈ wrappingDeclarators
    · rw [anyDeclaresFunction_olderAll kind hwrapping children]
    · simp [hwrapping]

theorem anyDeclaresFunction_olderAll (parent : String) (h : parent ∈ wrappingDeclarators) :
    ∀ children : List ParseTree,
      anyDeclaresFunction (olderAll parent children) = anyDeclaresFunction children
  | [] => rfl
  | child :: rest => by
    have hsame : unwrap parent child.older = [child.older] := by
      rw [unwrap,if_neg (by rintro ⟨rfl,-⟩; simp [wrappingDeclarators] at h),
        if_neg (by rintro ⟨rfl,-⟩; simp [wrappingDeclarators] at h)]
    rw [olderAll,anyDeclaresFunction_append,hsame,anyDeclaresFunction_olderAll parent h rest,
      anyDeclaresFunction,anyDeclaresFunction,anyDeclaresFunction,declaresFunction_older child,
      Bool.or_false]
end

theorem head_older (t : ParseTree) : head t.older = head t := by
  rw [head,head,kind_older,text_older,declaresFunction_older]

theorem read_context {rule : Rule} {tree : ParseTree} {value : rule.Result} {context : String}
    (h : (read rule context tree).result = .ok value) (other : String) :
    (read rule other tree).result = .ok value :=
  read_eq_ok.2 (read_eq_ok.1 h)

theorem Step.run {rule : Rule} {context : String} {s next : rule.State} {child : ParseTree}
    (h : Step rule context s child next) : Run rule context s [child] next := by
  cases h with
  | keep hstep => exact .keep hstep (.done next)
  | descend hstep hread => exact .descend hstep hread (.done _)

section Wrapped
variable {context : String}

theorem Step.else_token {s next : Option (List Choice)} {child : ParseTree}
    (h : Step .elseClause context s child next) (hkind : child.kind = "else") : next = s :=
  h.of_keep (if_pos hkind)

theorem alternative_of_clause {tree alternative : ParseTree} {choices : List Choice}
    (h : (read .elseClause context tree).result = .ok choices)
    (honly : (heard tree.children).filter (·.kind != "else") = [alternative]) :
    alternative.kind ≠ "else" ∧ ∃ plan value, alternative? alternative.kind = some plan ∧
      (read plan.rule tree.kind alternative).result = .ok value ∧ plan.build value = choices := by
  obtain ⟨before,after,hsplit,hbefore,hne,hafter⟩ := List.filter_eq_cons_iff.1 honly
  have hne : alternative.kind ≠ "else" := by simpa using hne
  have hbefore : ∀ c ∈ before, c.kind = "else" := by simpa using hbefore
  have hafter : ∀ c ∈ after, c.kind = "else" := by simpa using hafter
  obtain ⟨final,hrun,hfinish⟩ := read_eq_ok.1 h
  rw [hsplit] at hrun
  obtain ⟨mid,next,hfirst,hat,hlast⟩ := hrun.at_child
  have hmid : mid = none := hfirst.preserves (· = none)
    (fun s c next hc hnext hs => (hnext.else_token (hbefore c hc)).trans hs) rfl
  have hfinal : final = next := hlast.preserves (· = next)
    (fun s c t hc hnext hs => (hnext.else_token (hafter c hc)).trans hs) rfl
  subst hmid hfinal
  have hexpect : Rule.step .elseClause (none : Option (List Choice)) (head alternative) =
      .expect (alternative? alternative.kind) some :=
    (if_neg hne).trans (if_neg Bool.false_ne_true)
  obtain ⟨plan,value,hplan,hread,hnext⟩ := hat.of_expect hexpect
  refine ⟨hne,plan,value,hplan,hread,?_⟩
  subst hnext
  exact (Ending.eq_of_done hfinish).symm

theorem index_of_list {tree opening index closing : ParseTree} {e : Node}
    (h : (read (.operand ["[","]"]) context tree).result = .ok e)
    (hchildren : heard tree.children = [opening,index,closing]) (hopening : opening.kind = "[")
    (hclosing : closing.kind = "]") :
    index.kind ≠ "]" ∧ ∃ plan value, expression? index.kind = some plan ∧
      (read plan.rule tree.kind index).result = .ok value ∧ plan.build value = e := by
  obtain ⟨final,hrun,hfinish⟩ := read_eq_ok.1 h
  have hkeep : ∀ (s : Option Node) (c : ParseTree), c.kind ∈ ["[","]"] →
      Rule.step (.operand ["[","]"]) s (head c) = .keep s := fun s c hc => if_pos hc
  have hcut : heard tree.children = [opening] ++ index :: [closing] := hchildren
  rw [hcut] at hrun
  obtain ⟨mid,next,hfirst,hat,hlast⟩ := hrun.at_child
  have hmid : mid = none := hfirst.preserves (· = none) (fun s c t hc hnext hs => by
    rw [List.mem_singleton.1 hc] at hnext
    exact (hnext.of_keep (hkeep s opening (by simp [hopening]))).trans hs) rfl
  have hfinal : final = next := hlast.preserves (· = next) (fun s c t hc hnext hs => by
    rw [List.mem_singleton.1 hc] at hnext
    exact (hnext.of_keep (hkeep s closing (by simp [hclosing]))).trans hs) rfl
  subst hmid hfinal
  by_cases htoken : index.kind ∈ ["[","]"]
  · have hnone := hat.of_keep (hkeep none index htoken)
    subst hnone
    rcases hfinish with hdone | hlacks
    · cases hdone
    · cases hlacks
  · have hexpect : Rule.step (.operand ["[","]"]) (none : Option Node) (head index) =
        .expect (expression? index.kind) some :=
      (if_neg htoken).trans (if_neg Bool.false_ne_true)
    obtain ⟨plan,value,hplan,hread,hnext⟩ := hat.of_expect hexpect
    refine ⟨fun hkind => htoken (by simp [hkind]),plan,value,hplan,hread,?_⟩
    subst hnext
    exact (Ending.eq_of_done hfinish).symm

end Wrapped

section Replacing

/-- States that differ at most in having come by an `else`, once there is an alternative. -/
def Alike : (rule : Rule) → rule.State → rule.State → Prop
  | .ifChain => fun (s t : IfSlots) =>
    t = s ∨ s.alternatives.isSome ∧ t = { s with inElse := true }
  | _ => Eq

theorem alike_refl (rule : Rule) (s : rule.State) : Alike rule s s := by
  cases rule with
  | ifChain => exact .inl rfl
  | _ => exact rfl

theorem Alike.trans {rule : Rule} {s t u : rule.State} (hst : Alike rule s t)
    (htu : Alike rule t u) : Alike rule s u := by
  cases rule with
  | ifChain =>
    rcases hst with rfl | ⟨hsome,rfl⟩
    · exact htu
    · rcases htu with rfl | ⟨-,rfl⟩
      · exact .inr ⟨hsome,rfl⟩
      · exact .inr ⟨hsome,rfl⟩
  | _ => exact Eq.trans hst htu

theorem finish_alike {rule : Rule} {s t : rule.State} (h : Alike rule s t) (text : String) :
    rule.finish text t = rule.finish text s := by
  cases rule with
  | ifChain =>
    rcases h with rfl | ⟨-,rfl⟩
    · rfl
    · rfl
  | _ =>
    cases h
    rfl

theorem Step.alike {rule : Rule} {context : String} {s t next : rule.State} {child : ParseTree}
    (h : Step rule context s child next) (hst : Alike rule s t) :
    ∃ next', Step rule context t child next' ∧ Alike rule next next' := by
  cases rule with
  | ifChain =>
    rcases hst with rfl | ⟨hsome,rfl⟩
    · exact ⟨next,h,alike_refl _ next⟩
    · -- Behind the alternative only a few words are passed over.
      by_cases hword : (head child).kind ∈ ["if","constexpr"]
      · have hnext := h.of_keep (if_pos hword)
        subst hnext
        exact ⟨_,.keep (if_pos hword),.inr ⟨hsome,rfl⟩⟩
      · exact absurd ((if_neg hword).trans (if_pos hsome)) h.not_reject
  | _ =>
    cases hst
    exact ⟨next,h,rfl⟩

theorem IfSlots.step_clause {s : IfSlots} {child : Head} (hkind : child.kind = "else_clause")
    (h : s.step child ≠ .reject) :
    s.alternatives = none ∧ s.condition ≠ none ∧ s.inElse = false ∧
      s.step child = .descend (.nested .elseClause fun choices =>
        { s with alternatives := some choices }) := by
  have halternative : alternative? "else_clause" = none := rfl
  rcases s with ⟨condition,statements,alternatives,inElse⟩
  cases alternatives <;> cases condition <;> cases inElse <;>
    simp_all [IfSlots.step,Action.expect]

theorem SubscriptSlots.step_list {s : SubscriptSlots} {child : Head}
    (hkind : child.kind = "subscript_argument_list") (h : s.step child ≠ .reject) :
    s.steps ≠ [] ∧ s.inBrackets = false ∧
      s.step child = .descend (.nested (.operand ["[","]"]) fun e =>
        { s with steps := s.steps ++ [.index e] }) := by
  have hexpression : expression? "subscript_argument_list" = none := rfl
  rcases s with ⟨steps,inBrackets⟩
  cases steps <;> cases inBrackets <;> simp_all [SubscriptSlots.step,Action.expect]

theorem rule_of_if {rule : Rule} (h : "if_statement" ∈ rule.kinds) : rule = .ifChain := by
  cases rule with
  | ifChain => rfl
  | _ => simp [Rule.kinds,wrappingDeclarators,regionKinds] at h

theorem rule_of_subscript {rule : Rule} (h : "subscript_expression" ∈ rule.kinds) :
    rule = .subscriptExpression := by
  cases rule with
  | subscriptExpression => rfl
  | _ => simp [Rule.kinds,wrappingDeclarators,regionKinds] at h

theorem Step.of_older {rule : Rule} {context : String} {s next : rule.State} {child : ParseTree}
    (h : Step rule context s child next)
    (hread : ∀ inner value, child.kind ∈ Rule.kinds inner →
      (read inner context child).result = .ok value →
      (read inner context child.older).result = .ok value) :
    Step rule context s child.older next := by
  cases h with
  | keep hstep => exact .keep (by rw [head_older,hstep])
  | descend hstep hvalue =>
    have hinner := (suits_of_descend hstep).kind
    exact .descend (by rw [head_older,hstep]) (hread _ _ hinner hvalue)

theorem Step.run_clause {context : String} {s next : IfSlots} {clause alternative : ParseTree}
    (h : Step .ifChain context s clause next) (hkind : clause.kind = "else_clause")
    (honly : (heard clause.children).filter (·.kind != "else") = [alternative]) :
    ∃ next', Run .ifChain context s [.node "else" "else" [],alternative] next' ∧
      Alike .ifChain next next' := by
  obtain ⟨hnone,hcondition,helse,hstep⟩ := IfSlots.step_clause hkind h.not_reject
  obtain ⟨choices,hread,rfl⟩ := h.of_descend hstep
  obtain ⟨hne,plan,value,hplan,halternative,rfl⟩ := alternative_of_clause hread honly
  have hword : alternative.kind ∉ ["if","constexpr"] := by
    intro hmem
    simp only [List.mem_cons,List.not_mem_nil,or_false] at hmem
    rcases hmem with hkind | hkind
    · rw [hkind] at hplan
      cases hplan
    · rw [hkind] at hplan
      cases hplan
  have hmark : Rule.step .ifChain s (head (.node "else" "else" [])) =
      .keep ({ s with inElse := true } : IfSlots) := by
    change IfSlots.step s _ = _
    simp [IfSlots.step,head,hnone,hcondition,helse]
    rfl
  have htake : Rule.step .ifChain ({ s with inElse := true } : IfSlots) (head alternative) =
      .descend (plan.map fun choices =>
        ({ s with inElse := true, alternatives := some choices } : IfSlots)) := by
    change IfSlots.step _ _ = _
    simp [IfSlots.step,head,hnone,hcondition,hword,hplan,Action.expect]
    rfl
  refine ⟨_,.keep hmark (.descend htake (read_context halternative context) (.done _)),?_⟩
  exact .inr ⟨rfl,rfl⟩

theorem Step.run_list {context : String} {s next : SubscriptSlots}
    {list opening index closing : ParseTree} (h : Step .subscriptExpression context s list next)
    (hkind : list.kind = "subscript_argument_list")
    (hchildren : heard list.children = [opening,index,closing]) (hopening : opening.kind = "[")
    (hclosing : closing.kind = "]") :
    Run .subscriptExpression context s [opening,index,closing] next := by
  obtain ⟨hsteps,hbrackets,hstep⟩ := SubscriptSlots.step_list hkind h.not_reject
  obtain ⟨e,hread,rfl⟩ := h.of_descend hstep
  obtain ⟨hne,plan,value,hplan,hindex,rfl⟩ := index_of_list hread hchildren hopening hclosing
  have hopen : Rule.step .subscriptExpression s (head opening) =
      .keep ({ s with inBrackets := true } : SubscriptSlots) := by
    change SubscriptSlots.step s _ = _
    simp [SubscriptSlots.step,head,hopening,hsteps,hbrackets]
    rfl
  have htake : Rule.step .subscriptExpression ({ s with inBrackets := true } : SubscriptSlots)
      (head index) = .descend (plan.map fun e =>
        ({ steps := s.steps ++ [.index e], inBrackets := true } : SubscriptSlots)) := by
    change SubscriptSlots.step _ _ = _
    simp [SubscriptSlots.step,head,hsteps,hne,hplan,Action.expect]
    rfl
  have hclose : Rule.step .subscriptExpression
      ({ steps := s.steps ++ [.index (plan.build value)], inBrackets := true } : SubscriptSlots)
      (head closing) = .keep ({ s with steps := s.steps ++ [.index (plan.build value)] }
        : SubscriptSlots) := by
    change SubscriptSlots.step _ _ = _
    simp [SubscriptSlots.step,head,hclosing,hbrackets]
    rfl
  exact .keep hopen (.descend htake (read_context hindex context) (.keep hclose (.done _)))

/-- One step over a child is a run over what the child is replaced by. -/
theorem Step.run_older {rule : Rule} {context : String} (hkind : context ∈ rule.kinds)
    {s t next : rule.State} {child : ParseTree} (h : Step rule context s child next)
    (hread : ∀ inner value, child.kind ∈ Rule.kinds inner →
      (read inner context child).result = .ok value →
      (read inner context child.older).result = .ok value) (hst : Alike rule s t) :
    ∃ next', Run rule context t (unwrap context child.older) next' ∧ Alike rule next next' := by
  obtain ⟨next',hstep,hnext⟩ := (h.of_older hread).alike hst
  rcases unwrap_cases context child.older with hsame | ⟨alternative,rfl,hclause,honly,hunwrap⟩ |
    ⟨opening,index,closing,rfl,hlist,hchildren,hopening,hclosing,hunwrap⟩
  · rw [hsame]
    exact ⟨next',hstep.run,hnext⟩
  · obtain rfl := rule_of_if hkind
    obtain ⟨last,hrun,hlast⟩ := hstep.run_clause hclause honly
    rw [hunwrap]
    exact ⟨last,hrun,hnext.trans hlast⟩
  · obtain rfl := rule_of_subscript hkind
    rw [hunwrap]
    exact ⟨next',hstep.run_list hlist hchildren hopening hclosing,hnext⟩

theorem Run.older {rule : Rule} {context : String} (hkind : context ∈ rule.kinds)
    {children : List ParseTree} (hread : ∀ child ∈ children, ∀ inner value,
      child.kind ∈ Rule.kinds inner → (read inner context child).result = .ok value →
      (read inner context child.older).result = .ok value)
    {s t final : rule.State} (h : Run rule context s children final) (hst : Alike rule s t) :
    ∃ final', Run rule context t (children.flatMap fun child => unwrap context child.older) final' ∧
      Alike rule final final' := by
  induction children generalizing s t with
  | nil =>
    obtain rfl := run_nil.1 h
    exact ⟨t,.done t,hst⟩
  | cons child rest ih =>
    obtain ⟨hchild,hrest⟩ := List.forall_mem_cons.1 hread
    have hcut : Run rule context s ([] ++ child :: rest) final := h
    obtain ⟨mid,next,hfirst,hat,hlast⟩ := hcut.at_child
    obtain rfl := run_nil.1 hfirst
    obtain ⟨next',hrun,hnext⟩ := hat.run_older hkind hchild hst
    obtain ⟨final',hruns,hfinal⟩ := ih hrest hlast hnext
    exact ⟨final',hrun.append hruns,hfinal⟩

/-- A tree in the older form is read as the tree is. -/
theorem read_older (tree : ParseTree) : ∀ (rule : Rule) (context : String) (value : rule.Result),
    tree.kind ∈ rule.kinds → (read rule context tree).result = .ok value →
    (read rule context tree.older).result = .ok value := by
  induction tree using ParseTree.induct_children with
  | step tree ih =>
    intro rule context value hkind h
    obtain ⟨final,hrun,hfinish⟩ := read_eq_ok.1 h
    -- The rule runs over the children in the older form, by the induction hypothesis for each child
    -- that it has read.
    have hread : ∀ child ∈ heard tree.children, ∀ inner value, child.kind ∈ Rule.kinds inner →
        (read inner tree.kind child).result = .ok value →
        (read inner tree.kind child.older).result = .ok value :=
      fun child hchild inner value => ih child (mem_heard.1 hchild).1 inner tree.kind value
    obtain ⟨final',hrun',hfinal⟩ := hrun.older hkind hread (alike_refl rule rule.start)
    refine read_eq_ok.2 ⟨final',?_,?_⟩
    · rwa [kind_older,children_older,heard_olderAll]
    · rwa [text_older,finish_alike hfinal]

end Replacing

/-- A file in the older form is read as the same program as the file. -/
theorem readFile_older {root : ParseTree} {program : List Node}
    (h : (readFile root).result = .ok program) : (readFile root.older).result = .ok program := by
  by_cases hroot : root.kind = "translation_unit"
  · rw [readFile_of_unit hroot] at h
    rw [readFile_of_unit (root.kind_older.trans hroot)]
    exact read_older root .items _ program (by simp [hroot,Rule.kinds]) h
  · rw [readFile_of_not_unit hroot] at h
    cases h

def nameTree (name : String) : ParseTree := .node "identifier" name []

def choiceTree (condition : String) (body : ParseTree) (rest : List ParseTree) : ParseTree :=
  .node "if_statement" "" (.node "if" "if" [] ::
    .node "condition_clause" "" [.node "(" "(" [],nameTree condition,.node ")" ")" []] ::
    .node "expression_statement" "" [body,.node ";" ";" []] :: rest)

def indexTree (rest : List ParseTree) : ParseTree :=
  .node "subscript_expression" "" (nameTree "xs" :: rest)

def bracketed : List ParseTree := [.node "[" "[" [],nameTree "i",.node "]" "]" []]

/-- Two choices, the second in a clause with a comment, and an index in a list. -/
def wrappedFile : ParseTree :=
  .node "translation_unit" "" [choiceTree "a" (nameTree "x") [.node "else_clause" ""
    [.node "else" "else" [],.node "comment" "// or" [],
      choiceTree "b" (indexTree [.node "subscript_argument_list" "[i]" bracketed]) []]]]

def bareFile : ParseTree :=
  .node "translation_unit" "" [choiceTree "a" (nameTree "x") [.node "else" "else" [],
    choiceTree "b" (indexTree bracketed) []]]

def wrappedProgram : List Node :=
  [.ifStatement [⟨some (.reference "a"),[.reference "x"]⟩,
    ⟨some (.reference "b"),[.path [.reference "xs",.index (.reference "i")]]⟩]]

theorem readFile_older_wrappedFile :
    (readFile wrappedFile).result = .ok wrappedProgram ∧ wrappedFile.older = bareFile ∧
      (readFile bareFile).result = .ok wrappedProgram := by
  have hread : (readFile wrappedFile).result = .ok wrappedProgram := rfl
  have hbare : wrappedFile.older = bareFile := rfl
  exact ⟨hread,hbare,hbare ▸ readFile_older hread⟩

end Reading
end Scribe
