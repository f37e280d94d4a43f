import Scribe.Proofs.OlderForm

/-! Chains of choices. An `if` whose alternative is a further `if`, and so on, is read as one flat list
of choices. Evaluating the nested statements selects the same body as taking the first choice whose
condition holds, whatever the conditions evaluate to. -/
namespace Scribe
namespace Reading
open Program

/-- An `if` with what is nested in its alternative. -/
inductive IfNest where
  /-- There is no alternative. -/
  | bare (own : ParseTree)
  /-- The alternative is no `if`; a clause may have nothing in it. -/
  | orElse (own : ParseTree) (alternative : Option ParseTree)
  /-- The alternative is a further `if`. -/
  | orIf (own : ParseTree) (inner : IfNest)

/-- Words that stand in an `if` or in a clause without meaning anything by themselves. -/
def chainWords : List String := ["if", "constexpr", "else"]

mutual
def nest : ParseTree → IfNest
  | .node kind text children => nestBehind (.node kind text children) children

/-- The alternative is looked for among the children of the `if`: it stands behind a bare `else` or in
a clause. -/
def nestBehind (own : ParseTree) : List ParseTree → IfNest
  | [] => .bare own
  | .node kind _ children :: rest =>
    if kind = "else" then nestElse own (.bare own) rest
    else if kind = "else_clause" then nestElse own (.orElse own none) children
    else nestBehind own rest

/-- The alternative is the first that is neither noise nor a word. -/
def nestElse (own : ParseTree) (otherwise : IfNest) : List ParseTree → IfNest
  | [] => otherwise
  | child :: rest =>
    if isNoise child.kind ∨ child.kind ∈ chainWords then nestElse own otherwise rest
    else if child.kind = "if_statement" then .orIf own (nest child)
    else .orElse own (some child)
end

def clauseOf (own : ParseTree) : Option ParseTree :=
  (heard own.children).find? (·.kind = "condition_clause")

/-- What stands in front of the alternative, apart from the condition and words. -/
def bodyAmong (children : List ParseTree) : List ParseTree :=
  (children.takeWhile (·.kind ∉ ["else", "else_clause"])).filter
    (·.kind ∉ ["if", "constexpr", "condition_clause"])

def bodyOf (own : ParseTree) : List ParseTree := bodyAmong (heard own.children)

namespace IfNest

/-- What is selected, where `truth` says of the conditions, from the outermost one on, whether they
hold: the body of an `if` whose condition holds, or else what its alternative selects. -/
def selected (truth : Nat → Bool) : IfNest → List ParseTree
  | bare own => if truth 0 then bodyOf own else []
  | orElse own alternative => if truth 0 then bodyOf own else alternative.toList
  | orIf own inner => if truth 0 then bodyOf own else inner.selected fun i => truth (i + 1)

def ifs : IfNest → List ParseTree
  | bare own => [own]
  | orElse own _ => [own]
  | orIf own inner => own :: inner.ifs

/-- The alternative of the innermost `if`, if it has one; a clause may have nothing in it. -/
def ending? : IfNest → Option (Option ParseTree)
  | bare _ => none
  | orElse _ alternative => some alternative
  | orIf _ inner => inner.ending?

end IfNest

/-- The statements of the first choice that has no condition or one that holds. -/
def firstHolding (truth : Nat → Bool) : List Choice → List Node
  | [] => []
  | ⟨none, statements⟩ :: _ => statements
  | ⟨some _, statements⟩ :: rest =>
    if truth 0 then statements else firstHolding (fun i => truth (i + 1)) rest

/-- The statements that a tree is read as where it is the body of a control statement. -/
def bodyStatements (context : String) (t : ParseTree) : Except Failure (List Node) :=
  match body? t.kind with
  | some plan => (read plan.rule context t).result.map plan.build
  | none => .error (.unsupported ⟨t.kind, context⟩)

def statementsOf (context : String) : List ParseTree → Except Failure (List Node)
  | [] => .ok []
  | t :: rest => (bodyStatements context t).bind fun first =>
    (statementsOf context rest).map (first ++ ·)

/-- A choice has the condition and the statements of an `if`. -/
def ChoiceOf (context : String) (own : ParseTree) (choice : Choice) : Prop :=
  (∃ clause condition, clauseOf own = some clause ∧
    (read (.operand ["(",")"]) context clause).result = .ok condition ∧
    choice.condition = some condition) ∧
  statementsOf context (bodyOf own) = .ok choice.statements

/-- A chain is flattened to choices: one for each `if`, and one for the alternative of the innermost. -/
def IfNest.Flattens (context : String) : IfNest → List Choice → Prop
  | bare own, choices => ∃ choice, ChoiceOf context own choice ∧ choices = [choice]
  | orElse own alternative, choices => ∃ choice statements, ChoiceOf context own choice ∧
    statementsOf context alternative.toList = .ok statements ∧ choices = [choice, ⟨none, statements⟩]
  | orIf own inner, choices => ∃ choice rest, ChoiceOf context own choice ∧
    inner.Flattens context rest ∧ choices = choice :: rest

section Flat
variable {context : String} {n : IfNest} {choices : List Choice}

theorem IfNest.Flattens.selects (h : n.Flattens context choices) (truth : Nat → Bool) :
    statementsOf context (n.selected truth) = .ok (firstHolding truth choices) := by
  induction n generalizing choices truth with
  | bare own =>
    obtain ⟨⟨_,statements⟩,⟨⟨clause,condition,-,-,rfl⟩,hbody⟩,rfl⟩ := h
    cases htruth : truth 0 <;> simp [selected,firstHolding,htruth,hbody,statementsOf]
  | orElse own alternative =>
    obtain ⟨⟨_,statements⟩,others,⟨⟨clause,condition,-,-,rfl⟩,hbody⟩,halternative,rfl⟩ := h
    cases htruth : truth 0 <;> simp [selected,firstHolding,htruth,hbody,halternative]
  | orIf own inner ih =>
    obtain ⟨⟨_,statements⟩,rest,⟨⟨clause,condition,-,-,rfl⟩,hbody⟩,hinner,rfl⟩ := h
    cases htruth : truth 0
    · simpa [selected,firstHolding,htruth] using ih hinner _
    · simpa [selected,firstHolding,htruth] using hbody

theorem IfNest.Flattens.choices_eq (h : n.Flattens context choices) :
    ∃ arms, List.Forall₂ (ChoiceOf context) n.ifs arms ∧
      match n.ending? with
      | none => choices = arms
      | some alternative => ∃ statements,
        statementsOf context alternative.toList = .ok statements ∧
          choices = arms ++ [⟨none,statements⟩] := by
  induction n generalizing choices with
  | bare own =>
    obtain ⟨choice,hchoice,rfl⟩ := h
    exact ⟨[choice],.cons hchoice .nil,rfl⟩
  | orElse own alternative =>
    obtain ⟨choice,statements,hchoice,hstatements,rfl⟩ := h
    exact ⟨[choice],.cons hchoice .nil,statements,hstatements,rfl⟩
  | orIf own inner ih =>
    obtain ⟨choice,rest,hchoice,hinner,rfl⟩ := h
    obtain ⟨arms,harms,hending⟩ := ih hinner
    refine ⟨choice :: arms,.cons hchoice harms,?_⟩
    rw [ending?]
    cases hend : inner.ending? with
    | none =>
      rw [hend] at hending
      exact congrArg (choice :: ·) hending
    | some alternative =>
      rw [hend] at hending
      obtain ⟨statements,hstatements,rfl⟩ := hending
      exact ⟨statements,hstatements,rfl⟩

end Flat

/-- A tree is read as the choices of an alternative. -/
def ReadsAlternative (context : String) (t : ParseTree) (choices : List Choice) : Prop :=
  ∃ plan value, alternative? t.kind = some plan ∧ (read plan.rule context t).result = .ok value ∧
    plan.build value = choices

/-- The choices that are found among children, apart from words: those of an alternative, or none. -/
inductive Finds (context : String) : List ParseTree → Option (List Choice) → Prop
  | nothing : Finds context [] none
  | word {child : ParseTree} {rest : List ParseTree} {found : Option (List Choice)} :
      child.kind ∈ chainWords → Finds context rest found → Finds context (child :: rest) found
  | alternative {child : ParseTree} {rest : List ParseTree} {choices : List Choice} :
      child.kind ∉ chainWords → ReadsAlternative context child choices →
      Finds context (child :: rest) (some choices)

section Bodies
variable {context : String} {t : ParseTree}

theorem kind_of_body? {kind : String} {plan : Plan (List Node)} (h : body? kind = some plan) :
    kind ∉ chainWords ∧ ¬isNoise kind ∧ kind ≠ "condition_clause" ∧ kind ≠ "else_clause" := by
  have hnone : ∀ kind ∈ chainWords ++ noiseKinds ++ ["condition_clause","else_clause"],
      (body? kind).isNone := by decide
  have hkind : kind ∉ chainWords ++ noiseKinds ++ ["condition_clause","else_clause"] :=
    fun hmem => by simpa [h] using hnone kind hmem
  simpa [isNoise,not_or,and_assoc] using hkind

theorem bodyStatements_eq_ok {statements : List Node} :
    bodyStatements context t = .ok statements ↔ ∃ plan value, body? t.kind = some plan ∧
      (read plan.rule context t).result = .ok value ∧ plan.build value = statements := by
  rw [bodyStatements]
  cases body? t.kind with
  | none => simp
  | some plan => cases hread : (read plan.rule context t).result <;> simp [Except.map,hread]

theorem bodyStatements_context {statements : List Node}
    (h : bodyStatements context t = .ok statements) (other : String) :
    bodyStatements other t = .ok statements := by
  obtain ⟨plan,value,hplan,hread,hbuild⟩ := bodyStatements_eq_ok.1 h
  exact bodyStatements_eq_ok.2 ⟨plan,value,hplan,read_context hread other,hbuild⟩

theorem statementsOf_cons {rest : List ParseTree} {first more : List Node}
    (hfirst : bodyStatements context t = .ok first) (hmore : statementsOf context rest = .ok more) :
    statementsOf context (t :: rest) = .ok (first ++ more) := by
  simp [statementsOf,hfirst,hmore,Except.bind,Except.map]

theorem ReadsAlternative.cases {choices : List Choice} (h : ReadsAlternative context t choices) :
    ¬(isNoise t.kind ∨ t.kind ∈ chainWords) ∧
      ((t.kind = "if_statement" ∧ (read .ifChain context t).result = .ok choices) ∨
      (t.kind ≠ "if_statement" ∧ ∃ statements, bodyStatements context t = .ok statements ∧
        choices = [⟨none,statements⟩])) := by
  obtain ⟨plan,value,hplan,hread,rfl⟩ := h
  by_cases hif : t.kind = "if_statement"
  · rw [alternative?,if_pos hif] at hplan
    obtain rfl := Option.some.inj hplan
    exact ⟨by rw [hif]; decide,.inl ⟨hif,hread⟩⟩
  · rw [alternative?,if_neg hif] at hplan
    obtain ⟨body,hbody,rfl⟩ := Option.map_eq_some_iff.1 hplan
    have hstatements := bodyStatements_eq_ok.2 ⟨body,value,hbody,hread,rfl⟩
    obtain ⟨hword,hnoise,-⟩ := kind_of_body? hbody
    exact ⟨by simp [hword,hnoise],.inr ⟨hif,_,hstatements,rfl⟩⟩

end Bodies

section Steps
variable {context : String} {child : ParseTree}

theorem Step.ifChain {s next : IfSlots} (h : Step .ifChain context s child next) :
    (child.kind ∈ ["if","constexpr"] ∧ next = s) ∨
    (child.kind ∉ ["if","constexpr"] ∧ s.alternatives = none ∧
      ((s.condition = none ∧ child.kind = "condition_clause" ∧ ∃ condition,
        (read (.operand ["(",")"]) context child).result = .ok condition ∧
          next = { s with condition := some condition }) ∨
      (s.condition ≠ none ∧
        ((s.inElse = true ∧ ∃ choices, ReadsAlternative context child choices ∧
          next = { s with alternatives := some choices }) ∨
        (s.inElse = false ∧
          ((child.kind = "else" ∧ next = { s with inElse := true }) ∨
          (child.kind = "else_clause" ∧ ∃ choices,
            (read .elseClause context child).result = .ok choices ∧
              next = { s with alternatives := some choices }) ∨
          ∃ statements, bodyStatements context child = .ok statements ∧
            next = { s with statements := s.statements ++ statements })))))) := by
  by_cases hword : child.kind ∈ ["if","constexpr"]
  · exact .inl ⟨hword,h.of_keep (if_pos hword)⟩
  refine .inr ⟨hword,?_⟩
  by_cases hfound : s.alternatives.isSome
  · exact absurd ((if_neg hword).trans (if_pos hfound)) h.not_reject
  refine ⟨by simpa using hfound,?_⟩
  by_cases hclause : child.kind = "condition_clause" ∧ s.condition.isNone
  · obtain ⟨condition,hread,hnext⟩ := h.of_descend ((if_neg hword).trans ((if_neg hfound).trans
      (if_pos hclause)))
    exact .inl ⟨by simpa using hclause.2,hclause.1,condition,hread,hnext⟩
  by_cases hcondition : s.condition.isNone
  · exact absurd ((if_neg hword).trans ((if_neg hfound).trans ((if_neg hclause).trans
      (if_pos hcondition)))) h.not_reject
  refine .inr ⟨by simpa using hcondition,?_⟩
  have hopen : Rule.step .ifChain s (head child) = _ := (if_neg hword).trans ((if_neg hfound).trans
    ((if_neg hclause).trans (if_neg hcondition)))
  by_cases helse : child.kind = "else" ∧ !s.inElse
  · have hnext := h.of_keep (hopen.trans (if_pos helse))
    exact .inr ⟨by simpa using helse.2,.inl ⟨helse.1,hnext⟩⟩
  by_cases hwrapped : child.kind = "else_clause" ∧ !s.inElse
  · obtain ⟨choices,hread,hnext⟩ := h.of_descend (hopen.trans ((if_neg helse).trans
      (if_pos hwrapped)))
    exact .inr ⟨by simpa using hwrapped.2,.inr (.inl ⟨hwrapped.1,choices,hread,hnext⟩)⟩
  by_cases hinElse : s.inElse
  · obtain ⟨plan,value,hplan,hread,hnext⟩ := h.of_expect (hopen.trans ((if_neg helse).trans
      ((if_neg hwrapped).trans (if_pos hinElse))))
    exact .inl ⟨hinElse,_,⟨plan,value,hplan,hread,rfl⟩,hnext⟩
  · obtain ⟨plan,value,hplan,hread,hnext⟩ := h.of_expect (hopen.trans ((if_neg helse).trans
      ((if_neg hwrapped).trans (if_neg hinElse))))
    refine .inr ⟨by simpa using hinElse,.inr (.inr ⟨_,?_,hnext⟩)⟩
    exact bodyStatements_eq_ok.2 ⟨plan,value,hplan,hread,rfl⟩

theorem Step.elseClause {s next : Option (List Choice)} (h : Step .elseClause context s child next) :
    (child.kind = "else" ∧ next = s) ∨
      (s = none ∧ ∃ choices, ReadsAlternative context child choices ∧ next = some choices) := by
  by_cases helse : child.kind = "else"
  · exact .inl ⟨helse,h.else_token helse⟩
  by_cases hfound : s.isSome
  · exact absurd ((if_neg helse).trans (if_pos hfound)) h.not_reject
  · obtain ⟨plan,value,hplan,hread,hnext⟩ := h.of_expect ((if_neg helse).trans (if_neg hfound))
    exact .inr ⟨by simpa using hfound,_,⟨plan,value,hplan,hread,rfl⟩,hnext⟩

theorem Run.ifChain_found {s final : IfSlots} {children : List ParseTree}
    (h : Run .ifChain context s children final) (hs : s.alternatives ≠ none) : final = s := by
  refine h.preserves (· = s) (fun t c next _ hstep ht => ?_) rfl
  subst ht
  rcases hstep.ifChain with ⟨-,rfl⟩ | ⟨-,hnone,-⟩
  · rfl
  · exact absurd hnone hs

theorem Run.ifChain_else {s final : IfSlots} {children : List ParseTree}
    (h : Run .ifChain context s children final) (hcondition : s.condition ≠ none)
    (helse : s.inElse = true) (hnone : s.alternatives = none) :
    ∃ found, Finds context children found ∧ final = { s with alternatives := found } := by
  induction children with
  | nil =>
    obtain rfl := run_nil.1 h
    exact ⟨none,.nothing,by rw [← hnone]⟩
  | cons child rest ih =>
    obtain ⟨next,hstep,hrest⟩ := run_cons.1 h
    rcases hstep.ifChain with ⟨hword,rfl⟩ | ⟨-,-,⟨hunmet,-⟩ | ⟨-,⟨-,choices,hread,rfl⟩ | ⟨hother,-⟩⟩⟩
    · obtain ⟨found,hfinds,hfinal⟩ := ih hrest
      refine ⟨found,.word ?_ hfinds,hfinal⟩
      have hwords : ∀ kind ∈ ["if","constexpr"], kind ∈ chainWords := by decide
      exact hwords _ hword
    · exact absurd hunmet hcondition
    · have hfinal := Run.ifChain_found hrest (by simp)
      exact ⟨some choices,.alternative (fun hword => hread.cases.1 (.inr hword)) hread,hfinal⟩
    · simp [helse] at hother

theorem Run.elseClause {final : Option (List Choice)} {children : List ParseTree}
    (h : Run .elseClause context (none : Option (List Choice)) children final) :
    Finds context children final := by
  induction children with
  | nil =>
    obtain rfl := run_nil.1 h
    exact .nothing
  | cons child rest ih =>
    obtain ⟨next,hstep,hrest⟩ := run_cons.1 h
    rcases hstep.elseClause with ⟨helse,rfl⟩ | ⟨-,choices,hread,rfl⟩
    · exact .word (by rw [helse]; decide) (ih hrest)
    · have hfinal : final = some choices := by
        refine hrest.preserves (· = some choices) (fun t c next _ hstep ht => ?_) rfl
        subst ht
        rcases hstep.elseClause with ⟨-,rfl⟩ | ⟨hnone,-⟩
        · rfl
        · exact nomatch hnone
      subst hfinal
      exact .alternative (fun hword => hread.cases.1 (.inr hword)) hread

end Steps

section Nesting
variable {parent context : String} {own child : ParseTree} {otherwise : IfNest}

theorem nestElse_heard (children : List ParseTree) :
    nestElse own otherwise (heard children) = nestElse own otherwise children := by
  induction children with
  | nil => rfl
  | cons child rest ih =>
    by_cases hnoise : isNoise child.kind
    · rw [heard_cons_of_noise hnoise,ih,nestElse,if_pos (.inl hnoise)]
    · rw [heard_cons hnoise,nestElse,nestElse,ih]

theorem nestBehind_cons (rest : List ParseTree) : nestBehind own (child :: rest) =
    if child.kind = "else" then nestElse own (.bare own) rest
    else if child.kind = "else_clause" then nestElse own (.orElse own none) child.children
    else nestBehind own rest := by
  cases child
  rw [nestBehind]
  rfl

theorem nestBehind_heard (children : List ParseTree) :
    nestBehind own (heard children) = nestBehind own children := by
  induction children with
  | nil => rfl
  | cons child rest ih =>
    by_cases hnoise : isNoise child.kind
    · have hkind : child.kind ≠ "else" ∧ child.kind ≠ "else_clause" := by
        constructor <;> intro hkind <;> rw [hkind] at hnoise <;> exact absurd hnoise (by decide)
      rw [heard_cons_of_noise hnoise,ih,nestBehind_cons,if_neg hkind.1,if_neg hkind.2]
    · rw [heard_cons hnoise,nestBehind_cons,nestBehind_cons,ih,nestElse_heard]

theorem nest_eq (t : ParseTree) : nest t = nestBehind t (heard t.children) := by
  cases t
  rw [nest,nestBehind_heard]
  rfl

/-- What a tree is nested as flattens to what it is read as, as an `if` and as a clause. -/
structure NestsAlike (parent : String) (t : ParseTree) : Prop where
  chain : ∀ context choices, (read .ifChain context t).result = .ok choices →
    (nest t).Flattens parent choices
  clause : ∀ context choices own choice, ChoiceOf parent own choice →
    (read .elseClause context t).result = .ok choices →
    (nestElse own (.orElse own none) t.children).Flattens parent (choice :: choices)

theorem Finds.nestElse {children : List ParseTree} {found : Option (List Choice)}
    (h : Finds context children found) (hchildren : ∀ c ∈ children, NestsAlike parent c) :
    (found = none ∧ nestElse own otherwise children = otherwise) ∨
      ∃ choices, found = some choices ∧ ∀ choice, ChoiceOf parent own choice →
        (nestElse own otherwise children).Flattens parent (choice :: choices) := by
  induction h with
  | nothing => exact .inl ⟨rfl,rfl⟩
  | word hword _ ih =>
    rw [Reading.nestElse,if_pos (.inr hword)]
    exact ih fun c hc => hchildren c (List.mem_cons_of_mem _ hc)
  | @alternative child rest choices _ hread =>
    obtain ⟨hplain,hcases⟩ := hread.cases
    refine .inr ⟨choices,rfl,fun choice hchoice => ?_⟩
    rw [Reading.nestElse,if_neg hplain]
    rcases hcases with ⟨hif,hchain⟩ | ⟨hif,statements,hstatements,rfl⟩
    · rw [if_pos hif]
      have hinner := (hchildren child List.mem_cons_self).chain context choices hchain
      exact ⟨choice,choices,hchoice,hinner,rfl⟩
    · rw [if_neg hif]
      have halone := statementsOf_cons (bodyStatements_context hstatements parent)
        (rfl : statementsOf parent [] = .ok [])
      exact ⟨choice,statements,hchoice,by simpa using halone,rfl⟩

theorem bodyAmong_cons (rest : List ParseTree) : bodyAmong (child :: rest) =
    if child.kind ∈ ["else","else_clause"] then []
    else if child.kind ∈ ["if","constexpr","condition_clause"] then bodyAmong rest
    else child :: bodyAmong rest := by
  rw [bodyAmong,bodyAmong]
  by_cases hend : child.kind ∈ ["else","else_clause"]
  · rw [if_pos hend,List.takeWhile_cons_of_neg (by simpa only [decide_eq_true_eq,not_not] using hend),
      List.filter_nil]
  · rw [if_neg hend,List.takeWhile_cons_of_pos (by simpa only [decide_eq_true_eq] using hend)]
    by_cases hword : child.kind ∈ ["if","constexpr","condition_clause"]
    · rw [if_pos hword,List.filter_cons_of_neg (by simpa only [decide_eq_true_eq,not_not] using hword)]
    · rw [if_neg hword,List.filter_cons_of_pos (by simpa only [decide_eq_true_eq] using hword)]

theorem passed_cons (hkind : child.kind ∈ ["if","constexpr","condition_clause"])
    (rest : List ParseTree) : bodyAmong (child :: rest) = bodyAmong rest ∧
      ∀ own, nestBehind own (child :: rest) = nestBehind own rest := by
  have hkinds : ∀ kind ∈ ["if","constexpr","condition_clause"],
      kind ∉ ["else","else_clause"] ∧ kind ≠ "else" ∧ kind ≠ "else_clause" := by decide
  obtain ⟨hend,helse,hclause⟩ := hkinds _ hkind
  refine ⟨by rw [bodyAmong_cons,if_neg hend,if_pos hkind],fun own => ?_⟩
  rw [nestBehind_cons,if_neg helse,if_neg hclause]

theorem Run.ifChain_body {s final : IfSlots} {children : List ParseTree}
    (h : Run .ifChain context s children final) (hcondition : s.condition ≠ none)
    (helse : s.inElse = false) (hnone : s.alternatives = none)
    (hchildren : ∀ c ∈ children, NestsAlike parent c) :
    final.condition = s.condition ∧
    (∃ statements, statementsOf parent (bodyAmong children) = .ok statements ∧
      final.statements = s.statements ++ statements) ∧
    ∀ own choice, ChoiceOf parent own choice →
      (nestBehind own children).Flattens parent (choice :: final.alternatives.getD []) := by
  induction children generalizing s with
  | nil =>
    obtain rfl := run_nil.1 h
    refine ⟨rfl,⟨[],rfl,by simp⟩,fun own choice hchoice => ⟨choice,hchoice,?_⟩⟩
    rw [hnone]
    rfl
  | cons child rest ih =>
    obtain ⟨next,hstep,hrest⟩ := run_cons.1 h
    have hlater : ∀ c ∈ rest, NestsAlike parent c := fun c hc => hchildren c (.tail _ hc)
    have hfirst : NestsAlike parent child := hchildren child (.head _)
    rcases hstep.ifChain with ⟨hword,rfl⟩ | ⟨-,-,⟨hunmet,-⟩ | ⟨-,⟨hother,-⟩ | ⟨-,⟨hkind,rfl⟩ |
      ⟨hkind,choices,hread,rfl⟩ | ⟨statements,hread,rfl⟩⟩⟩⟩
    · obtain ⟨hbody,hnest⟩ := passed_cons (List.mem_append_left ["condition_clause"] hword) rest
      simp only [hbody,hnest]
      exact ih hrest hcondition helse hnone hlater
    · exact absurd hunmet hcondition
    · simp [helse] at hother
    · -- A bare `else`: the alternative stands among the children behind it.
      obtain ⟨found,hfinds,rfl⟩ := Run.ifChain_else hrest hcondition rfl hnone
      refine ⟨rfl,⟨[],by simp [bodyAmong_cons,hkind,statementsOf],by simp⟩,
        fun own choice hchoice => ?_⟩
      rw [nestBehind_cons,if_pos hkind]
      rcases hfinds.nestElse hlater with ⟨rfl,hnest⟩ | ⟨choices,rfl,hflat⟩
      · rw [hnest]
        exact ⟨choice,hchoice,rfl⟩
      · exact hflat choice hchoice
    · -- A clause: the alternative stands in it.
      obtain rfl := Run.ifChain_found hrest (by simp)
      refine ⟨rfl,⟨[],by simp [bodyAmong_cons,hkind,statementsOf],by simp⟩,
        fun own choice hchoice => ?_⟩
      have hne : child.kind ≠ "else" := by simp [hkind]
      rw [nestBehind_cons,if_neg hne,if_pos hkind]
      exact hfirst.clause context choices own choice hchoice hread
    · obtain ⟨hsame,⟨more,hmore,hall⟩,hnest⟩ := ih hrest hcondition helse hnone hlater
      obtain ⟨plan,-,hplan,-⟩ := bodyStatements_eq_ok.1 hread
      obtain ⟨hword,-,hclause,hwrapped⟩ := kind_of_body? hplan
      have hne : child.kind ≠ "else" := fun hkind => hword (by rw [hkind]; decide)
      have hend : child.kind ∉ ["else","else_clause"] := by simp [hne,hwrapped]
      have hpart : child.kind ∉ ["if","constexpr","condition_clause"] := by
        simp only [chainWords,List.mem_cons] at hword ⊢
        tauto
      simp only [bodyAmong_cons,nestBehind_cons,if_neg hend,if_neg hpart,if_neg hne,if_neg hwrapped]
      refine ⟨hsame,⟨statements ++ more,?_,by rw [hall,List.append_assoc]⟩,hnest⟩
      exact statementsOf_cons (bodyStatements_context hread parent) hmore

/-- The children of an `if` give the condition, the body and the alternative that are read off them. -/
theorem Run.ifChain {s final : IfSlots} {children : List ParseTree} {condition : Node}
    (h : Run .ifChain context s children final) (hs : s = {})
    (hfinal : final.condition = some condition)
    (hchildren : ∀ c ∈ children, NestsAlike parent c) :
    (∃ clause, children.find? (·.kind = "condition_clause") = some clause ∧
      (read (.operand ["(",")"]) parent clause).result = .ok condition) ∧
    statementsOf parent (bodyAmong children) = .ok final.statements ∧
    ∀ own choice, ChoiceOf parent own choice →
      (nestBehind own children).Flattens parent (choice :: final.alternatives.getD []) := by
  induction children with
  | nil =>
    obtain rfl := run_nil.1 h
    simp [hs] at hfinal
  | cons child rest ih =>
    obtain ⟨next,hstep,hrest⟩ := run_cons.1 h
    have hlater : ∀ c ∈ rest, NestsAlike parent c := fun c hc => hchildren c (.tail _ hc)
    rcases hstep.ifChain with ⟨hword,rfl⟩ | ⟨-,-,⟨-,hkind,read,hread,rfl⟩ | ⟨hmet,-⟩⟩
    · obtain ⟨hbody,hnest⟩ := passed_cons (List.mem_append_left ["condition_clause"] hword) rest
      have hother : child.kind ≠ "condition_clause" := fun hkind => by simp [hkind] at hword
      rw [hbody,List.find?_cons_of_neg (by simpa using hother)]
      simp only [hnest]
      exact ih hrest hlater
    · have hpassed : child.kind ∈ ["if","constexpr","condition_clause"] := by simp [hkind]
      obtain ⟨hbody,hnest⟩ := passed_cons hpassed rest
      obtain ⟨hsame,⟨statements,hstatements,hall⟩,hflat⟩ :=
        Run.ifChain_body hrest (by simp) (by simp [hs]) (by simp [hs]) hlater
      obtain rfl : read = condition := Option.some.inj (hsame.symm.trans hfinal)
      refine ⟨⟨child,by simp [hkind],read_context hread parent⟩,?_,?_⟩
      · rw [hbody,hstatements,hall]
        simp [hs]
      · simpa only [hnest] using hflat
    · simp [hs] at hmet

theorem IfSlots.finish_cases {s : IfSlots} {choices : List Choice}
    (h : s.finish = .done choices ∨ s.finish = .lacksRight choices) :
    ∃ condition, s.condition = some condition ∧
      choices = ⟨some condition,s.statements⟩ :: s.alternatives.getD [] := by
  rw [IfSlots.finish] at h
  cases hcondition : s.condition with
  | none => simp [hcondition] at h
  | some condition =>
    rw [hcondition] at h
    exact ⟨condition,rfl,Ending.eq_of_check h⟩

/-- Every tree is nested as it is read. -/
theorem nestsAlike (parent : String) (t : ParseTree) : NestsAlike parent t := by
  induction t using ParseTree.induct_children with
  | step t ih =>
    have hheard : ∀ c ∈ heard t.children, NestsAlike parent c := fun c hc => ih c (mem_heard.1 hc).1
    constructor
    · intro context choices h
      obtain ⟨final,hrun,hfinish⟩ := read_eq_ok.1 h
      obtain ⟨condition,hcondition,hchoices⟩ := IfSlots.finish_cases hfinish
      -- The alternative is nested in a child, for which the induction hypothesis holds.
      obtain ⟨⟨clause,hclause,hread⟩,hbody,hflat⟩ := Run.ifChain hrun rfl hcondition hheard
      rw [nest_eq,hchoices]
      exact hflat t _ ⟨⟨clause,condition,hclause,hread,rfl⟩,hbody⟩
    · intro context choices own choice hchoice h
      obtain ⟨final,hrun,hfinish⟩ := read_eq_ok.1 h
      have hchoices : choices = final.getD [⟨none,[]⟩] := Ending.eq_of_done hfinish
      rw [← nestElse_heard,hchoices]
      rcases (Run.elseClause hrun).nestElse hheard with ⟨rfl,hnest⟩ | ⟨found,rfl,hflat⟩
      · rw [hnest]
        exact ⟨choice,[],hchoice,rfl,rfl⟩
      · exact hflat choice hchoice

end Nesting

/-- Whatever the conditions of a chain evaluate to, the nested statements select what the first choice
that holds has. The choices are one for each `if` of the chain, in order, with its condition and body,
and a last one without a condition exactly if the innermost `if` has an alternative. -/
theorem ifChain_selects {context : String} {tree : ParseTree} {choices : List Choice}
    (h : (read .ifChain context tree).result = .ok choices) (parent : String) :
    (∀ truth : Nat → Bool, statementsOf parent ((nest tree).selected truth) =
      .ok (firstHolding truth choices)) ∧
    ∃ arms, List.Forall₂ (ChoiceOf parent) (nest tree).ifs arms ∧
      match (nest tree).ending? with
      | none => choices = arms
      | some alternative => ∃ statements,
        statementsOf parent alternative.toList = .ok statements ∧
          choices = arms ++ [⟨none,statements⟩] := by
  have hflat : (nest tree).Flattens parent choices :=
    (nestsAlike parent tree).chain context choices h
  exact ⟨hflat.selects,hflat.choices_eq⟩

/-- `if (b) y; else { z; }`, with a bare `else`. -/
def innerIf : ParseTree :=
  .node "if_statement" "" [.node "if" "if" [],
    .node "condition_clause" "" [.node "(" "(" [],.node "identifier" "b" [],.node ")" ")" []],
    .node "expression_statement" "" [.node "identifier" "y" [],.node ";" ";" []],
    .node "else" "else" [],
    .node "compound_statement" "" [.node "\x7b" "\x7b" [],
      .node "expression_statement" "" [.node "identifier" "z" [],.node ";" ";" []],
      .node "\x7d" "\x7d" []]]

/-- `if (a) x; else if (b) y; else { z; }`, where the outer alternative stands in a clause. -/
def mixedChain : ParseTree :=
  .node "if_statement" "" [.node "if" "if" [],
    .node "condition_clause" "" [.node "(" "(" [],.node "identifier" "a" [],.node ")" ")" []],
    .node "expression_statement" "" [.node "identifier" "x" [],.node ";" ";" []],
    .node "else_clause" "" [.node "else" "else" [],.node "comment" "// b" [],innerIf]]

def mixedChoices : List Choice :=
  [⟨some (.reference "a"),[.reference "x"]⟩,⟨some (.reference "b"),[.reference "y"]⟩,
    ⟨none,[.reference "z"]⟩]

theorem ifChain_selects_mixedChain :
    (read .ifChain "compound_statement" mixedChain).result = .ok mixedChoices ∧
      (nest mixedChain).ifs = [mixedChain,innerIf] ∧
      ∀ truth : Nat → Bool, statementsOf "if_statement" ((nest mixedChain).selected truth) =
        .ok (if truth 0 then [.reference "x"] else if truth 1 then [.reference "y"]
          else [.reference "z"]) := by
  have hread : (read .ifChain "compound_statement" mixedChain).result = .ok mixedChoices := rfl
  exact ⟨hread,rfl,fun truth => (ifChain_selects hread "if_statement").1 truth⟩

end Reading
end Scribe
