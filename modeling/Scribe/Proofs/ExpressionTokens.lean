import Scribe.Proofs.ExpressionSlots
import Scribe.Proofs.RuleRun

/-! What an expression says. Its operands and operators, from left to right, are those of the
parse tree that it was read from: none is lost, made up, said twice or moved. -/
namespace Scribe

/-- An operand or an operator. -/
inductive Token where
  | operand (text : String)
  | null
  | operator (sign : String)
deriving DecidableEq, Repr

namespace Program

mutual
/-- The operands and operators of an expression in order. -/
def Node.tokens : Node → List Token
  | .binaryExpression operator left right =>
    left.tokens ++ .operator operator :: tokensOption right
  | .unaryExpression operator value => .operator operator :: value.tokens
  | .updateExpression operator value true => value.tokens ++ [.operator operator]
  | .updateExpression operator value false => .operator operator :: value.tokens
  | .conditionalExpression test success failure =>
    test.tokens ++ success.tokens ++ failure.tokens
  | .assignmentExpression left operator right =>
    left.tokens ++ .operator operator :: right.tokens
  | .callExpression callee arguments => callee.tokens ++ tokensAll arguments
  | .parenthesizedExpression value => value.tokens
  | .path steps => tokensAll steps
  | .index value => value.tokens
  | .reference name => [.operand name]
  | .numberLiteral value => [.operand value]
  | .booleanLiteral value => [.operand value]
  | .nullLiteral => [.null]
  | .stringLiteral value => [.operand value]
  | .userDefinedLiteral text => [.operand text]
  | _ => []

def tokensOption : Option Node → List Token
  | none => []
  | some n => n.tokens

def tokensAll : List Node → List Token
  | [] => []
  | n :: ns => n.tokens ++ tokensAll ns
end

theorem tokens_path (steps : List Node) : (Node.path steps).tokens = tokensAll steps := by
  rw [Node.tokens]

@[simp] theorem tokensOption_none : tokensOption none = [] := rfl

@[simp] theorem tokensOption_some (n : Node) : tokensOption (some n) = n.tokens := rfl

@[simp] theorem tokensAll_nil : tokensAll [] = [] := rfl

@[simp] theorem tokensAll_cons (n : Node) (ns : List Node) :
    tokensAll (n :: ns) = n.tokens ++ tokensAll ns :=
  rfl

@[simp] theorem tokensAll_append (xs ys : List Node) :
    tokensAll (xs ++ ys) = tokensAll xs ++ tokensAll ys := by
  induction xs with
  | nil => simp
  | cons x xs ih => simp [ih]

end Program

namespace ParseTree
open Reading

/-- What nodes of a kind say in an expression. -/
inductive Sense where
  /-- An operand, in the words of the text. -/
  | verbatim
  /-- An operand, named by a text with scopes. -/
  | scoped
  /-- An operand, named by the kind. -/
  | keyword
  | null
  | operator
  /-- Nothing at all. -/
  | silent
  /-- What the children say, with a `+` between them. -/
  | sum
  /-- What the children say. -/
  | compound
deriving DecidableEq, Repr

def punctuation : List String := ["(",")",",","[","]",".","->","?",":"]

def senseOf (kind : String) : Sense :=
  if kind ∈ ["identifier","field_identifier","this","number_literal","string_literal",
    "char_literal","raw_string_literal","user_defined_literal"] then .verbatim
  else if kind = "qualified_identifier" then .scoped
  else if kind ∈ ["true","false"] then .keyword
  else if kind ∈ ["null","nullptr"] then .null
  else if kind ∈ binaryOperators ++ unaryOperators ++ updateOperators ++ assignmentOperators then
    .operator
  else if kind ∈ punctuation then .silent
  else if kind = "concatenated_string" then .sum
  else .compound

mutual
/-- The operands and operators of the parse tree of an expression in order. -/
def tokens : ParseTree → List Token
  | node kind text children =>
    match senseOf kind with
    | .verbatim => [.operand text]
    | .scoped => [.operand (Text.flattenScopes text)]
    | .keyword => [.operand kind]
    | .null => [.null]
    | .operator => [.operator kind]
    | .silent => []
    | .sum => [Token.operator "+"].intercalate (tokensHeard children)
    | .compound => (tokensHeard children).flatten

/-- What each of the children says that are no noise. -/
def tokensHeard : List ParseTree → List (List Token)
  | [] => []
  | c :: cs => if isNoise c.kind then tokensHeard cs else tokens c :: tokensHeard cs
end

theorem tokensHeard_eq_map (cs : List ParseTree) : tokensHeard cs = (heard cs).map tokens := by
  induction cs with
  | nil => simp [tokensHeard]
  | cons c cs ih =>
    rw [tokensHeard]
    by_cases hnoise : isNoise c.kind
    · rw [if_pos hnoise,heard_cons_of_noise hnoise,ih]
    · rw [if_neg hnoise,heard_cons hnoise,ih,List.map_cons]

section Senses
variable {t : ParseTree}

theorem tokens_eq (t : ParseTree) : t.tokens =
    match senseOf t.kind with
    | .verbatim => [.operand t.text]
    | .scoped => [.operand (Text.flattenScopes t.text)]
    | .keyword => [.operand t.kind]
    | .null => [.null]
    | .operator => [.operator t.kind]
    | .silent => []
    | .sum => [Token.operator "+"].intercalate ((heard t.children).map tokens)
    | .compound => (heard t.children).flatMap tokens := by
  cases t with
  | node kind text children =>
    rw [tokens,tokensHeard_eq_map,← List.flatMap_def]
    rfl

theorem tokens_verbatim (h : senseOf t.kind = .verbatim) : t.tokens = [.operand t.text] := by
  rw [tokens_eq,h]

theorem tokens_scoped (h : senseOf t.kind = .scoped) :
    t.tokens = [.operand (Text.flattenScopes t.text)] := by
  rw [tokens_eq,h]

theorem tokens_keyword (h : senseOf t.kind = .keyword) : t.tokens = [.operand t.kind] := by
  rw [tokens_eq,h]

theorem tokens_null (h : senseOf t.kind = .null) : t.tokens = [.null] := by
  rw [tokens_eq,h]

theorem tokens_operator (h : senseOf t.kind = .operator) : t.tokens = [.operator t.kind] := by
  rw [tokens_eq,h]

theorem tokens_silent (h : senseOf t.kind = .silent) : t.tokens = [] := by
  rw [tokens_eq,h]

theorem tokens_sum (h : senseOf t.kind = .sum) :
    t.tokens = [Token.operator "+"].intercalate ((heard t.children).map tokens) := by
  rw [tokens_eq,h]

theorem tokens_compound (h : senseOf t.kind = .compound) :
    t.tokens = (heard t.children).flatMap tokens := by
  rw [tokens_eq,h]

theorem senseOf_operator {kind : String} (h : kind ∈ binaryOperators ++ unaryOperators ++
    updateOperators ++ assignmentOperators) : senseOf kind = .operator := by
  have hall : ∀ k ∈ binaryOperators ++ unaryOperators ++ updateOperators ++ assignmentOperators,
      senseOf k = .operator := by decide
  exact hall kind h

theorem senseOf_punctuation {kind : String} (h : kind ∈ punctuation) : senseOf kind = .silent := by
  have hall : ∀ k ∈ punctuation, senseOf k = .silent := by decide
  exact hall kind h

end Senses
end ParseTree

namespace Reading
open Program ParseTree

/-- What the slots of a rule say that were filled. -/
def OperatorSlots.tokens (s : OperatorSlots) : List Token :=
  tokensOption s.left ++ (s.operator.toList.map .operator ++ tokensOption s.right)

def UnarySlots.tokens (s : UnarySlots) : List Token :=
  s.operator.toList.map .operator ++ tokensOption s.expression

def UpdateSlots.tokens (s : UpdateSlots) : List Token :=
  if s.isPostfix then tokensOption s.expression ++ s.operator.toList.map .operator
  else s.operator.toList.map .operator ++ tokensOption s.expression

def ConditionalSlots.tokens (s : ConditionalSlots) : List Token :=
  tokensOption s.test ++ (tokensOption s.success ++ tokensOption s.failure)

def CallSlots.tokens (s : CallSlots) : List Token :=
  tokensOption s.callee ++ tokensAll (s.arguments.getD [])

/-- Slots are filled from left to right. -/
def OperatorSlots.Ordered (s : OperatorSlots) : Prop :=
  (s.left = none → s.operator = none) ∧ (s.operator = none → s.right = none)

def UnarySlots.Ordered (s : UnarySlots) : Prop := s.operator = none → s.expression = none

/-- An operator counts as one behind the operand only if there is an operand in front. -/
def UpdateSlots.Ordered (s : UpdateSlots) : Prop := s.expression = none → s.isPostfix = false

def ConditionalSlots.Ordered (s : ConditionalSlots) : Prop :=
  match s.slot with
  | 0 => s.success = none ∧ s.failure = none
  | 1 => s.failure = none
  | _ => True

def CallSlots.Ordered (s : CallSlots) : Prop := s.callee = none → s.arguments = none

/-- What a rule has heard from the children that it has come by. -/
def said (before : List ParseTree) : List Token := before.flatMap tokens

@[simp] theorem said_nil : said [] = [] := rfl

@[simp] theorem said_append (xs ys : List ParseTree) : said (xs ++ ys) = said xs ++ said ys :=
  List.flatMap_append

@[simp] theorem said_singleton (t : ParseTree) : said [t] = t.tokens := by simp [said]

/-- The state of a rule for expressions says what has been heard so far. -/
def spokenState : (rule : Rule) → List ParseTree → rule.State → Prop
  | .operand skipped => fun before (value : Option Node) =>
    (∀ k ∈ skipped, k ∈ punctuation) → tokensOption value = said before
  | .concatenation => fun before (parts : List Node) =>
    parts.map Node.tokens = before.map ParseTree.tokens
  | .binaryExpression => fun before (s : OperatorSlots) => s.Ordered ∧ s.tokens = said before
  | .assignmentExpression => fun before (s : OperatorSlots) => s.Ordered ∧ s.tokens = said before
  | .unaryExpression => fun before (s : UnarySlots) => s.Ordered ∧ s.tokens = said before
  | .updateExpression => fun before (s : UpdateSlots) => s.Ordered ∧ s.tokens = said before
  | .conditionalExpression => fun before (s : ConditionalSlots) =>
    s.Ordered ∧ s.tokens = said before
  | .callExpression => fun before (s : CallSlots) => s.Ordered ∧ s.tokens = said before
  | .arguments => fun before (arguments : List Node) => tokensAll arguments = said before
  | .fieldExpression => fun before (s : FieldSlots) => tokensAll s.steps = said before
  | .subscriptExpression => fun before (s : SubscriptSlots) => tokensAll s.steps = said before
  | _ => fun _ _ => True

def spokenResult : (rule : Rule) → ParseTree → rule.Result → Prop
  | .leaf => fun tree (text : String) => text = tree.text
  | .operand skipped => fun tree (n : Node) =>
    (∀ k ∈ skipped, k ∈ punctuation) → n.tokens = tree.tokens
  | .concatenation => fun tree (n : Node) => n.tokens = tree.tokens
  | .binaryExpression => fun tree (n : Node) => n.tokens = tree.tokens
  | .assignmentExpression => fun tree (n : Node) => n.tokens = tree.tokens
  | .unaryExpression => fun tree (n : Node) => n.tokens = tree.tokens
  | .updateExpression => fun tree (n : Node) => n.tokens = tree.tokens
  | .conditionalExpression => fun tree (n : Node) => n.tokens = tree.tokens
  | .callExpression => fun tree (n : Node) => n.tokens = tree.tokens
  | .arguments => fun tree (ns : List Node) => tokensAll ns = tree.tokens
  | .fieldExpression => fun tree (n : Node) => n.tokens = tree.tokens
  | .subscriptExpression => fun tree (n : Node) => n.tokens = tree.tokens
  | _ => fun _ _ => True

theorem spelledOperands_verbatim : ∀ entry ∈ spelledOperands,
    senseOf entry.1 = .verbatim ∧ ∀ text, (entry.2 text).tokens = [.operand text] := by
  have hsense : ∀ entry ∈ spelledOperands, senseOf entry.1 = .verbatim := by decide
  have htokens : ∀ entry ∈ spelledOperands, ∀ text, (entry.2 text).tokens = [.operand text] := by
    simp [spelledOperands,Node.tokens]
  exact fun entry hentry => ⟨hsense entry hentry,htokens entry hentry⟩

theorem ExpressionEntry.tokens_build {kind : String} {plan : Plan Node}
    (hentry : ExpressionEntry kind plan) {t : ParseTree} (hkind : t.kind = kind)
    {value : plan.rule.Result} (h : spokenResult plan.rule t value) :
    (plan.build value).tokens = t.tokens := by
  cases hentry with
  | spelled hspelled =>
    obtain ⟨hsense,htokens⟩ := spelledOperands_verbatim _ hspelled
    obtain rfl : value = t.text := h
    rw [tokens_verbatim (hkind ▸ hsense)]
    exact htokens t.text
  | qualified =>
    obtain rfl : value = t.text := h
    rw [tokens_scoped (by rw [hkind]; decide),Node.tokens]
  | boolean hkeyword =>
    have hsense : ∀ k ∈ ["true","false"], senseOf k = .keyword := by decide
    rw [tokens_keyword (hkind ▸ hsense _ hkeyword),Node.tokens,hkind]
  | null hnull =>
    have hsense : ∀ k ∈ ["null","nullptr"], senseOf k = .null := by decide
    rw [tokens_null (hkind ▸ hsense _ hnull),Node.tokens]
  | parenthesized =>
    have hinner : Node.tokens value = t.tokens := h (by decide)
    change Node.tokens (.parenthesizedExpression value) = t.tokens
    simpa [Node.tokens] using hinner
  | concatenation | binary | unary | update | conditional | assignment | call | field
  | subscript => exact h

section Leads
variable {σ : Type} {P : σ → Prop} {result : (rule : Rule) → rule.Result → Prop}

theorem Action.Leads.mono {Q : σ → Prop} {action : Action σ} (h : action.Leads result P)
    (hPQ : ∀ s, P s → Q s) : action.Leads result Q := by
  cases action with
  | keep s => exact hPQ s h
  | descend plan => exact fun value hvalue => hPQ _ (h value hvalue)
  | reject | overrun => trivial

theorem gives_true {α : Type} (ending : Ending α) : ending.Gives fun _ => True := by
  cases ending <;> trivial

end Leads

def spokenBy (child : ParseTree) (rule : Rule) (value : rule.Result) : Prop :=
  child.kind ∈ rule.kinds ∧ spokenResult rule child value

theorem leads_spoken {σ : Type} {P : σ → Prop} {child : ParseTree} {build : Node → σ}
    (h : ∀ e : Node, e.tokens = child.tokens → P (build e)) :
    (Action.expect (expression? (head child).kind) build).Leads (spokenBy child) P := by
  refine leads_of_expect fun plan hplan value hvalue => h _ ?_
  exact (entry_of_expression? hplan).tokens_build rfl hvalue.2

section Steps
variable {before : List ParseTree} {child : ParseTree}

theorem stepOperand_spoken {skipped : List String} (hskipped : ∀ k ∈ skipped, k ∈ punctuation)
    {value : Option Node} (h : tokensOption value = said before) :
    (stepOperand skipped value (head child)).Leads (spokenBy child)
      fun value => tokensOption value = said (before ++ [child]) := by
  apply leads_stepOperand
  · intro hskip
    have hsilent := tokens_silent (senseOf_punctuation (hskipped _ hskip))
    rw [said_append,said_singleton,hsilent,h,List.append_nil]
  · rintro rfl
    refine leads_spoken fun e he => ?_
    rw [said_append,said_singleton,← h,← he]
    simp

theorem stepConcatenation_spoken {parts : List Node}
    (h : parts.map Node.tokens = before.map ParseTree.tokens) :
    (stepConcatenation parts (head child)).Leads (spokenBy child)
      fun parts => parts.map Node.tokens = (before ++ [child]).map ParseTree.tokens := by
  refine leads_spoken fun e he => ?_
  rw [List.map_append,List.map_append,h,List.map_singleton,List.map_singleton,he]

theorem OperatorSlots.step_spoken {operators : List String}
    (hoperators : ∀ k ∈ operators, senseOf k = .operator) {s : OperatorSlots}
    (h : s.Ordered ∧ s.tokens = said before) :
    (s.step operators (head child)).Leads (spokenBy child)
      fun s => s.Ordered ∧ s.tokens = said (before ++ [child]) := by
  obtain ⟨⟨hleft,hoperator⟩,htokens⟩ := h
  apply leads_step
  · intro hkind hsome hnone
    have hchild := tokens_operator (hoperators _ hkind)
    refine ⟨⟨fun hl => absurd hl hsome,by simp⟩,?_⟩
    rw [said_append,said_singleton,← htokens,hchild]
    simp [tokens,hnone,hoperator hnone,head]
  · intro hnone
    refine leads_spoken fun e he => ⟨⟨by simp,hoperator⟩,?_⟩
    rw [said_append,said_singleton,← htokens,← he]
    simp [tokens,hnone,hleft hnone,hoperator (hleft hnone)]
  · intro hsome hnone
    refine leads_spoken fun e he => ⟨⟨hleft,fun ho => absurd ho hsome⟩,?_⟩
    rw [said_append,said_singleton,← htokens,← he]
    simp [tokens,hnone]

theorem UnarySlots.step_spoken {s : UnarySlots} (h : s.Ordered ∧ s.tokens = said before) :
    (s.step (head child)).Leads (spokenBy child)
      fun s => s.Ordered ∧ s.tokens = said (before ++ [child]) := by
  obtain ⟨hordered,htokens⟩ := h
  apply leads_step
  · intro hsign hnone
    have hsense : senseOf child.kind = .operator := senseOf_operator (by simp_all [head])
    have hchild := tokens_operator hsense
    refine ⟨by simp [Ordered],?_⟩
    rw [said_append,said_singleton,← htokens,hchild]
    simp [tokens,hnone,hordered hnone,head]
  · intro hsome hnone
    refine leads_spoken fun e he => ⟨fun ho => absurd ho hsome,?_⟩
    rw [said_append,said_singleton,← htokens,← he]
    simp [tokens,hnone]

theorem UpdateSlots.step_spoken {s : UpdateSlots} (h : s.Ordered ∧ s.tokens = said before) :
    (s.step (head child)).Leads (spokenBy child)
      fun s => s.Ordered ∧ s.tokens = said (before ++ [child]) := by
  obtain ⟨hordered,htokens⟩ := h
  apply leads_step
  · intro hsign hnone
    have hsense : senseOf child.kind = .operator := senseOf_operator (by simp_all [head])
    have hchild := tokens_operator hsense
    refine ⟨fun he => by simp [show s.expression = none from he],?_⟩
    rw [said_append,said_singleton,← htokens,hchild]
    cases hexpression : s.expression <;> simp [tokens,hnone,hexpression,head]
  · intro hnone
    refine leads_spoken fun e he => ⟨by simp [Ordered],?_⟩
    rw [said_append,said_singleton,← htokens,← he]
    simp [tokens,hnone,hordered hnone]

theorem ConditionalSlots.step_spoken {s : ConditionalSlots}
    (h : s.Ordered ∧ s.tokens = said before) :
    (s.step (head child)).Leads (spokenBy child)
      fun s => s.Ordered ∧ s.tokens = said (before ++ [child]) := by
  obtain ⟨hordered,htokens⟩ := h
  have hsilent : (head child).kind = "?" ∨ (head child).kind = ":" → child.tokens = [] := by
    intro hkind
    refine tokens_silent (senseOf_punctuation ?_)
    rcases hkind with hkind | hkind <;> simp [show child.kind = _ from hkind,punctuation]
  rw [said_append,said_singleton,← htokens]
  apply leads_step
  · intro hplace hnone
    have hlater : s.success = none ∧ s.failure = none := by simpa [Ordered,hplace] using hordered
    refine leads_spoken fun e he => ⟨by simpa [Ordered,hplace] using hordered,?_⟩
    simp [tokens,hnone,hlater,he]
  · intro hplace hkind
    simp only [Ordered,hplace] at hordered
    exact ⟨by simp [Ordered,hordered],by simp [tokens,hsilent (.inl hkind)]⟩
  · intro hplace hnone
    have hlater : s.failure = none := by simpa [Ordered,hplace] using hordered
    refine leads_spoken fun e he => ⟨by simpa [Ordered,hplace] using hordered,?_⟩
    simp [tokens,hnone,hlater,he]
  · intro hplace hkind
    exact ⟨by simp [Ordered],by simp [tokens,hsilent (.inr hkind)]⟩
  · intro hplace hnone
    refine leads_spoken fun e he => ⟨by simp [Ordered,hplace],?_⟩
    simp [tokens,hnone,he]

theorem CallSlots.step_spoken {s : CallSlots} (h : s.Ordered ∧ s.tokens = said before) :
    (s.step (head child)).Leads (spokenBy child)
      fun s => s.Ordered ∧ s.tokens = said (before ++ [child]) := by
  obtain ⟨hordered,htokens⟩ := h
  apply leads_step
  · rintro - hsome hnone arguments ⟨-,hspoken⟩
    have hspoken : tokensAll arguments = child.tokens := hspoken
    refine ⟨fun hc => absurd hc hsome,?_⟩
    change tokensOption s.callee ++ tokensAll arguments = _
    rw [said_append,said_singleton,← htokens,← hspoken]
    simp [tokens,hnone]
  · intro hnone
    refine leads_spoken fun e he => ⟨by simp [Ordered],?_⟩
    rw [said_append,said_singleton,← htokens,← he]
    simp [tokens,hnone,hordered hnone]

theorem stepArguments_spoken {arguments : List Node} (h : tokensAll arguments = said before) :
    (stepArguments arguments (head child)).Leads (spokenBy child)
      fun arguments => tokensAll arguments = said (before ++ [child]) := by
  apply leads_stepArguments
  · intro hskip
    have hmarks : ∀ k ∈ ["(",")",","], k ∈ punctuation := by decide
    have hmark : child.kind ∈ punctuation := hmarks _ hskip
    rw [said_append,said_singleton,tokens_silent (senseOf_punctuation hmark),h,List.append_nil]
  · refine leads_spoken fun e he => ?_
    rw [said_append,said_singleton,← h,← he]
    simp

theorem tokensAll_pathSteps (e : Node) : tokensAll (pathSteps e) = e.tokens := by
  cases e <;> simp [pathSteps,tokens_path]

theorem FieldSlots.step_spoken {s : FieldSlots} (h : tokensAll s.steps = said before) :
    (s.step (head child)).Leads (spokenBy child)
      fun s => tokensAll s.steps = said (before ++ [child]) := by
  apply leads_step
  · intro hdot _
    have hmarks : ∀ k ∈ [".","->"], k ∈ punctuation := by decide
    have hmark : child.kind ∈ punctuation := hmarks _ hdot
    change tokensAll s.steps = _
    rw [said_append,said_singleton,tokens_silent (senseOf_punctuation hmark),h,List.append_nil]
  · intro hempty
    refine leads_spoken fun e he => ?_
    rw [said_append,said_singleton,← h,hempty,← he]
    simp [tokensAll_pathSteps]
  · intro _ hname
    have hsense : senseOf child.kind = .verbatim := by
      rw [show child.kind = _ from hname]
      decide
    have hchild := tokens_verbatim hsense
    change tokensAll (s.steps ++ [.reference child.text]) = _
    rw [said_append,said_singleton,tokensAll_append,h,hchild]
    simp [Node.tokens]

theorem SubscriptSlots.step_spoken {s : SubscriptSlots} (h : tokensAll s.steps = said before) :
    (s.step (head child)).Leads (spokenBy child)
      fun s => tokensAll s.steps = said (before ++ [child]) := by
  have hsilent : (head child).kind = "[" ∨ (head child).kind = "]" →
      tokensAll s.steps = said (before ++ [child]) := by
    intro hkind
    have hmark : child.kind ∈ punctuation := by
      rcases hkind with hkind | hkind <;> simp [show child.kind = _ from hkind,punctuation]
    rw [said_append,said_singleton,tokens_silent (senseOf_punctuation hmark),h,List.append_nil]
  have hindex : ∀ e : Node, e.tokens = child.tokens →
      tokensAll (s.steps ++ [.index e]) = said (before ++ [child]) := by
    intro e he
    rw [said_append,said_singleton,tokensAll_append,h,← he]
    simp [Node.tokens]
  apply leads_step
  · exact fun hopen _ => hsilent (.inl hopen)
  · exact fun hclose _ => hsilent (.inr hclose)
  · intro hempty
    refine leads_spoken fun e he => ?_
    rw [said_append,said_singleton,← h,hempty,← he]
    simp [tokensAll_pathSteps]
  · exact fun _ _ e he => hindex e (he.2 (by decide))
  · exact fun _ => leads_spoken hindex

end Steps

theorem step_spoken (rule : Rule) (before : List ParseTree) (s : rule.State) (child : ParseTree)
    (h : spokenState rule before s) :
    (rule.step s (head child)).Leads (spokenBy child) (spokenState rule (before ++ [child])) := by
  cases rule with
  | operand skipped =>
    by_cases hskipped : ∀ k ∈ skipped, k ∈ punctuation
    · exact (stepOperand_spoken hskipped (h hskipped)).mono fun _ hvalue _ => hvalue
    · exact (leads_true _).mono fun _ _ hall => absurd hall hskipped
  | concatenation => exact stepConcatenation_spoken h
  | binaryExpression =>
    exact OperatorSlots.step_spoken (fun k hk => senseOf_operator (by simp [hk])) h
  | assignmentExpression =>
    exact OperatorSlots.step_spoken (fun k hk => senseOf_operator (by simp [hk])) h
  | unaryExpression => exact UnarySlots.step_spoken h
  | updateExpression => exact UpdateSlots.step_spoken h
  | conditionalExpression => exact ConditionalSlots.step_spoken h
  | callExpression => exact CallSlots.step_spoken h
  | arguments => exact stepArguments_spoken h
  | fieldExpression => exact FieldSlots.step_spoken h
  | subscriptExpression => exact SubscriptSlots.step_spoken h
  | _ => exact leads_true _

theorem tokens_foldl_sum (parts : List Node) (first : Node) :
    (parts.foldl (fun sum part => .binaryExpression "+" sum (some part)) first).tokens =
      [Token.operator "+"].intercalate (first.tokens :: parts.map Node.tokens) := by
  induction parts generalizing first with
  | nil => simp [List.intercalate]
  | cons part parts ih =>
    rw [List.foldl_cons,ih]
    cases parts <;> simp [List.intercalate,Node.tokens]

section Endings
variable {tree : ParseTree}

theorem OperatorSlots.finishBinary_spoken {s : OperatorSlots}
    (h : s.tokens = tree.tokens) : s.finishBinary.Gives fun n => n.tokens = tree.tokens := by
  refine gives_finishBinary fun left operator hleft hoperator => ?_
  rw [← h]
  cases hright : s.right <;> simp [tokens,hleft,hoperator,hright,Node.tokens]

theorem OperatorSlots.finishAssignment_spoken {s : OperatorSlots}
    (h : s.tokens = tree.tokens) : s.finishAssignment.Gives fun n => n.tokens = tree.tokens := by
  refine gives_finishAssignment fun left operator right hleft hoperator hright => ?_
  rw [← h]
  simp [tokens,hleft,hoperator,hright,Node.tokens]

theorem UnarySlots.finish_spoken {s : UnarySlots} (h : s.tokens = tree.tokens) :
    s.finish.Gives fun n => n.tokens = tree.tokens := by
  refine gives_finish fun operator e hoperator he => ?_
  rw [← h]
  simp [tokens,hoperator,he,Node.tokens]

theorem UpdateSlots.finish_spoken {s : UpdateSlots} (h : s.tokens = tree.tokens) :
    s.finish.Gives fun n => n.tokens = tree.tokens := by
  refine gives_finish fun operator e hoperator he => ?_
  rw [← h]
  cases hpost : s.isPostfix <;> simp [tokens,hoperator,he,hpost,Node.tokens]

theorem ConditionalSlots.finish_spoken {s : ConditionalSlots} (h : s.tokens = tree.tokens) :
    s.finish.Gives fun n => n.tokens = tree.tokens := by
  refine gives_finish fun test success failure htest hsuccess hfailure => ?_
  rw [← h]
  simp [tokens,htest,hsuccess,hfailure,Node.tokens]

theorem CallSlots.finish_spoken {s : CallSlots} (h : s.tokens = tree.tokens) :
    s.finish.Gives fun n => n.tokens = tree.tokens := by
  refine gives_finish fun callee hcallee => ?_
  rw [← h]
  simp [tokens,hcallee,Node.tokens]

end Endings

/-- The kinds of nodes that say what their children do, by the rules that read them. -/
theorem tokens_of_kind {rule : Rule} {tree : ParseTree} (hkind : tree.kind ∈ rule.kinds)
    (hrule : ∀ k ∈ rule.kinds, senseOf k = .compound) :
    tree.tokens = said (heard tree.children) :=
  tokens_compound (hrule _ hkind)

theorem finish_spoken (rule : Rule) (tree : ParseTree) (s : rule.State)
    (hkind : tree.kind ∈ rule.kinds) (h : spokenState rule (heard tree.children) s) :
    (rule.finish tree.text s).Gives (spokenResult rule tree) := by
  cases rule with
  | leaf => exact rfl
  | operand skipped =>
    have htree := tokens_of_kind hkind (by simp only [Rule.kinds]; decide)
    change (Ending.ofOption .incomplete s).Gives _
    cases s with
    | none => trivial
    | some n =>
      intro hskipped
      rw [htree,← h hskipped,tokensOption_some]
  | concatenation =>
    have hsum : senseOf tree.kind = .sum := by
      obtain hkind : tree.kind = "concatenated_string" := by simpa [Rule.kinds] using hkind
      rw [hkind]
      decide
    refine gives_finishConcatenation fun first rest hs => ?_
    have hparts : s.map Node.tokens = (heard tree.children).map tokens := h
    change Node.tokens _ = _
    rw [tokens_foldl_sum,tokens_sum hsum,← hparts,hs,List.map_cons]
  | binaryExpression =>
    have htree := tokens_of_kind hkind (by simp only [Rule.kinds]; decide)
    exact OperatorSlots.finishBinary_spoken (h.2.trans htree.symm)
  | assignmentExpression =>
    have htree := tokens_of_kind hkind (by simp only [Rule.kinds]; decide)
    exact OperatorSlots.finishAssignment_spoken (h.2.trans htree.symm)
  | unaryExpression =>
    have htree := tokens_of_kind hkind (by simp only [Rule.kinds]; decide)
    exact UnarySlots.finish_spoken (h.2.trans htree.symm)
  | updateExpression =>
    have htree := tokens_of_kind hkind (by simp only [Rule.kinds]; decide)
    exact UpdateSlots.finish_spoken (h.2.trans htree.symm)
  | conditionalExpression =>
    have htree := tokens_of_kind hkind (by simp only [Rule.kinds]; decide)
    exact ConditionalSlots.finish_spoken (h.2.trans htree.symm)
  | callExpression =>
    have htree := tokens_of_kind hkind (by simp only [Rule.kinds]; decide)
    exact CallSlots.finish_spoken (h.2.trans htree.symm)
  | arguments =>
    have htree := tokens_of_kind hkind (by simp only [Rule.kinds]; decide)
    exact (show tokensAll s = _ from h).trans htree.symm
  | fieldExpression =>
    have htree := tokens_of_kind hkind (by simp only [Rule.kinds]; decide)
    refine FieldSlots.gives_finish fun _ => ?_
    change Node.tokens _ = _
    rw [htree,← show tokensAll (FieldSlots.steps s) = _ from h,tokens_path]
  | subscriptExpression =>
    have htree := tokens_of_kind hkind (by simp only [Rule.kinds]; decide)
    refine SubscriptSlots.gives_finish fun _ => ?_
    change Node.tokens _ = _
    rw [htree,← show tokensAll (SubscriptSlots.steps s) = _ from h,tokens_path]
  | _ => exact gives_true _

theorem spokenState_start (rule : Rule) : spokenState rule [] rule.start := by
  have hoperator : OperatorSlots.Ordered {} ∧ OperatorSlots.tokens {} = [] := by
    simp [OperatorSlots.Ordered,OperatorSlots.tokens]
  have hunary : UnarySlots.tokens {} = [] := by simp [UnarySlots.tokens]
  have hupdate : UpdateSlots.tokens {} = [] := by simp [UpdateSlots.tokens]
  have hconditional : ConditionalSlots.tokens {} = [] := by simp [ConditionalSlots.tokens]
  have hcall : CallSlots.tokens {} = [] := by simp [CallSlots.tokens]
  cases rule with
  | operand skipped => exact fun _ => tokensOption_none
  | concatenation => exact rfl
  | binaryExpression => exact hoperator
  | assignmentExpression => exact hoperator
  | unaryExpression => exact ⟨fun _ => rfl,hunary⟩
  | updateExpression => exact ⟨fun _ => rfl,hupdate⟩
  | conditionalExpression => exact ⟨⟨rfl,rfl⟩,hconditional⟩
  | callExpression => exact ⟨fun _ => rfl,hcall⟩
  | arguments => exact tokensAll_nil
  | fieldExpression => exact tokensAll_nil
  | subscriptExpression => exact tokensAll_nil
  | _ => trivial

/-- Reading expressions keeps what is said. -/
def spokenHistory : History where
  state := spokenState
  result := spokenResult
  start := spokenState_start
  step := step_spoken
  finish := finish_spoken

/-- An expression says what the parse tree does that it is read from. -/
theorem tokens_of_read {tree : ParseTree} {plan : Plan Node}
    (hplan : expression? tree.kind = some plan) {context : String} {value : plan.rule.Result}
    (h : (read plan.rule context tree).result = .ok value) :
    (plan.build value).tokens = tree.tokens := by
  have hkind : tree.kind ∈ plan.rule.kinds := (expressionRules_suit _ (mem_of_lookup hplan)).1
  have hspoken := spokenHistory.read_result tree plan.rule context hkind value h
  exact (entry_of_expression? hplan).tokens_build rfl hspoken

/-- `i++ ? "x" "y" : -n::m`, with a comment between the two strings. -/
def spokenTree : ParseTree :=
  .node "conditional_expression" "" [
    .node "update_expression" "" [.node "identifier" "i" [],.node "++" "++" []],
    .node "?" "?" [],
    .node "concatenated_string" "" [.node "string_literal" "\"x\"" [],
      .node "comment" "// c" [],.node "string_literal" "\"y\"" []],
    .node ":" ":" [],
    .node "unary_expression" "" [.node "-" "-" [],.node "qualified_identifier" "n::m" []]]

def spokenExpression : Node :=
  .conditionalExpression (.updateExpression "++" (.reference "i") true)
    (.binaryExpression "+" (.stringLiteral "\"x\"") (some (.stringLiteral "\"y\"")))
    (.unaryExpression "-" (.reference (Text.flattenScopes "n::m")))

theorem tokens_spokenExpression :
    (read .conditionalExpression "expression_statement" spokenTree).result =
        .ok spokenExpression ∧
      spokenExpression.tokens = [.operand "i",.operator "++",.operand "\"x\"",.operator "+",
        .operand "\"y\"",.operator "-",.operand "n_m"] := by
  have hplan : expression? spokenTree.kind = some (.nested .conditionalExpression id) := rfl
  have hread : (read .conditionalExpression "expression_statement" spokenTree).result =
      .ok spokenExpression := rfl
  have htokens : spokenTree.tokens = [.operand "i",.operator "++",.operand "\"x\"",
      .operator "+",.operand "\"y\"",.operator "-",.operand "n_m"] := by decide
  have hspoken := tokens_of_read hplan hread
  exact ⟨hread,hspoken.trans htokens⟩

end Reading
end Scribe
