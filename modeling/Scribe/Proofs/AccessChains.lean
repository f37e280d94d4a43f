import Scribe.Proofs.ExpressionPieces
import Scribe.Proofs.RuleRun
import Scribe.Proofs.WellSorted

/-! Chains of accesses. Members and elements that are taken one of the other are read as the steps
of one path, behind what the first of them is taken of, and are printed behind it on one line. -/
namespace Scribe
namespace Reading
open Program

/-- What a tree is read as where a node of kind `context` expects an expression. -/
def readExpression (context : String) (t : ParseTree) : Outcome Node :=
  match expression? t.kind with
  | some plan => (read plan.rule context t).map plan.build
  | none => .unsupported t.kind context

section Expressions
variable {context : String} {t : ParseTree} {e : Node}

theorem readExpression_eq_ok : (readExpression context t).result = .ok e ↔
    ∃ plan value, expression? t.kind = some plan ∧
      (read plan.rule context t).result = .ok value ∧ plan.build value = e := by
  unfold readExpression
  cases hplan : expression? t.kind with
  | none => simp [Outcome.unsupported]
  | some plan => simp only [Recorded.result_map_eq_ok,Option.some.injEq,exists_and_left,
      exists_eq_left']

theorem readExpression_anywhere (h : (readExpression context t).result = .ok e)
    (context' : String) : (readExpression context' t).result = .ok e := by
  obtain ⟨plan,value,hplan,hread,hbuild⟩ := readExpression_eq_ok.1 h
  exact readExpression_eq_ok.2 ⟨plan,value,hplan,read_eq_ok.2 (read_eq_ok.1 hread),hbuild⟩

theorem fits_of_readExpression (h : (readExpression context t).result = .ok e) :
    Fits .expression e := by
  obtain ⟨plan,value,hplan,hread,rfl⟩ := readExpression_eq_ok.1 h
  exact expressionRules_make _ (mem_of_lookup hplan) value
    (sortedInvariant.read_result plan.rule context t value hread)

theorem kind_ne_of_readExpression (h : (readExpression context t).result = .ok e) {token : String}
    (htoken : expression? token = none) : t.kind ≠ token := by
  rintro rfl
  obtain ⟨plan,_,hplan,-⟩ := readExpression_eq_ok.1 h
  simp [htoken] at hplan

theorem Step.of_readExpression {rule : Rule} {s : rule.State} {build : Node → rule.State}
    (h : (readExpression context t).result = .ok e)
    (hstep : rule.step s (head t) = .expect (expression? t.kind) build) :
    Step rule context s t (build e) := by
  obtain ⟨plan,value,hplan,hread,rfl⟩ := readExpression_eq_ok.1 h
  rw [hplan] at hstep
  exact Step.descend hstep hread

theorem readExpression_of_run {rule : Rule} {build : rule.Result → Node} {s : rule.State}
    {value : rule.Result} (hplan : expression? t.kind = some (.nested rule build))
    (hrun : Run rule t.kind rule.start (heard t.children) s)
    (hfinish : rule.finish t.text s = .done value) (context : String) :
    (readExpression context t).result = .ok (build value) :=
  readExpression_eq_ok.2 ⟨_,value,hplan,read_eq_ok.2 ⟨s,hrun,.inl hfinish⟩,rfl⟩

end Expressions

/-- A tree takes a member or an element of what its first child stands for, which is a step of a
path. The index of an element stands in a list of its own or between bare brackets. -/
inductive Access (base : ParseTree) : ParseTree → Node → Prop
  | member {tree operator name : ParseTree} : tree.kind = "field_expression" →
    heard tree.children = [base,operator,name] → operator.kind ∈ [".","->"] →
    name.kind = "field_identifier" → Access base tree (.reference name.text)
  | listed {tree list opening index closing : ParseTree} {e : Node} :
    tree.kind = "subscript_expression" → heard tree.children = [base,list] →
    list.kind = "subscript_argument_list" → heard list.children = [opening,index,closing] →
    opening.kind = "[" → closing.kind = "]" → (readExpression list.kind index).result = .ok e →
    Access base tree (.index e)
  | bracketed {tree opening index closing : ParseTree} {e : Node} :
    tree.kind = "subscript_expression" → heard tree.children = [base,opening,index,closing] →
    opening.kind = "[" → closing.kind = "]" → (readExpression tree.kind index).result = .ok e →
    Access base tree (.index e)

/-- Accesses one around the other, with their steps from the inside out. -/
inductive AccessChain (base : ParseTree) : ParseTree → List Node → Prop
  | base : AccessChain base base []
  | access {inner tree : ParseTree} {steps : List Node} {step : Node} :
    AccessChain base inner steps → Access inner tree step →
    AccessChain base tree (steps ++ [step])

section Steps
variable {steps : List Node} {child : Head}

theorem FieldSlots.step_first (child : Head) :
    FieldSlots.step {} child =
      .expect (expression? child.kind) fun e => ⟨pathSteps e,false⟩ := by
  simp [FieldSlots.step]

theorem FieldSlots.step_operator (hne : steps ≠ []) (h : child.kind ∈ [".","->"]) :
    FieldSlots.step ⟨steps,false⟩ child = .keep ⟨steps,true⟩ := by
  simp_all [FieldSlots.step]

theorem FieldSlots.step_name (hne : steps ≠ []) (h : child.kind = "field_identifier") :
    FieldSlots.step ⟨steps,true⟩ child = .keep ⟨steps ++ [.reference child.text],false⟩ := by
  simp_all [FieldSlots.step]

theorem FieldSlots.finish_path (hne : steps ≠ []) :
    FieldSlots.finish ⟨steps,false⟩ = .done (.path steps) := by
  simp [FieldSlots.finish,hne,pathProblem?_eq_none.2 hne,Ending.check]

theorem SubscriptSlots.step_first (child : Head) :
    SubscriptSlots.step {} child =
      .expect (expression? child.kind) fun e => ⟨pathSteps e,false⟩ := by
  simp [SubscriptSlots.step]

theorem SubscriptSlots.step_indexList (hne : steps ≠ [])
    (h : child.kind = "subscript_argument_list") :
    SubscriptSlots.step ⟨steps,false⟩ child =
      .descend (.nested (.operand ["[","]"]) fun e => ⟨steps ++ [.index e],false⟩) := by
  simp_all [SubscriptSlots.step]

theorem SubscriptSlots.step_opening (hne : steps ≠ []) (h : child.kind = "[") :
    SubscriptSlots.step ⟨steps,false⟩ child = .keep ⟨steps,true⟩ := by
  simp_all [SubscriptSlots.step]

theorem SubscriptSlots.step_index (hne : steps ≠ []) (h : child.kind ≠ "]") :
    SubscriptSlots.step ⟨steps,true⟩ child =
      .expect (expression? child.kind) fun e => ⟨steps ++ [.index e],true⟩ := by
  simp_all [SubscriptSlots.step]

theorem SubscriptSlots.step_closing (h : child.kind = "]") :
    SubscriptSlots.step ⟨steps,true⟩ child = .keep ⟨steps,false⟩ := by
  simp_all [SubscriptSlots.step]

theorem SubscriptSlots.finish_path (hne : steps ≠ []) :
    SubscriptSlots.finish ⟨steps,false⟩ = .done (.path steps) := by
  simp [SubscriptSlots.finish,hne,pathProblem?_eq_none.2 hne,Ending.check]

theorem stepOperand_token {tokens : List String} (value : Option Node) (h : child.kind ∈ tokens) :
    stepOperand tokens value child = .keep value :=
  if_pos h

theorem stepOperand_operand {tokens : List String} (h : child.kind ∉ tokens) :
    stepOperand tokens none child = .expect (expression? child.kind) some :=
  if_neg h

end Steps

theorem read_indexList {list opening index closing : ParseTree} {e : Node}
    (hlist : heard list.children = [opening,index,closing]) (hopening : opening.kind = "[")
    (hclosing : closing.kind = "]") (hindex : (readExpression list.kind index).result = .ok e)
    (context : String) : (read (.operand ["[","]"]) context list).result = .ok e := by
  have htoken : index.kind ∉ ["[","]"] := by
    have hopen : index.kind ≠ "[" := kind_ne_of_readExpression hindex rfl
    have hclose : index.kind ≠ "]" := kind_ne_of_readExpression hindex rfl
    simp [hopen,hclose]
  have hrun : Run (.operand ["[","]"]) list.kind none [opening,index,closing] (some e) := by
    refine .keep (stepOperand_token none (by simp [head,hopening])) ?_
    refine run_cons.2 ⟨_,.of_readExpression hindex (stepOperand_operand htoken),?_⟩
    exact .keep (stepOperand_token (some e) (by simp [head,hclosing])) (.done _)
  exact read_eq_ok.2 ⟨some e,hlist ▸ hrun,.inl rfl⟩

theorem readExpression_of_access {base tree : ParseTree} {n step : Node} {context : String}
    (hbase : (readExpression context base).result = .ok n) (hne : pathSteps n ≠ [])
    (haccess : Access base tree step) (context' : String) :
    (readExpression context' tree).result = .ok (.path (pathSteps n ++ [step])) := by
  have hfirst := readExpression_anywhere hbase tree.kind
  cases haccess with
  | @member operator name htree hchildren hoperator hname =>
    have hrun : Run .fieldExpression tree.kind {} (heard tree.children)
        ⟨pathSteps n ++ [.reference name.text],false⟩ := by
      rw [hchildren]
      refine run_cons.2 ⟨_,.of_readExpression hfirst (FieldSlots.step_first _),?_⟩
      refine .keep (FieldSlots.step_operator hne hoperator) ?_
      exact .keep (FieldSlots.step_name hne hname) (.done _)
    exact readExpression_of_run (by rw [htree]; rfl) hrun
      (FieldSlots.finish_path (List.concat_ne_nil _ _)) context'
  | @listed list opening index closing e htree hchildren hlist hinner hopening hclosing hindex =>
    have hrun : Run .subscriptExpression tree.kind {} (heard tree.children)
        ⟨pathSteps n ++ [.index e],false⟩ := by
      rw [hchildren]
      refine run_cons.2 ⟨_,.of_readExpression hfirst (SubscriptSlots.step_first _),?_⟩
      exact .descend (SubscriptSlots.step_indexList hne hlist)
        (read_indexList hinner hopening hclosing hindex tree.kind) (.done _)
    exact readExpression_of_run (by rw [htree]; rfl) hrun
      (SubscriptSlots.finish_path (List.concat_ne_nil _ _)) context'
  | @bracketed opening index closing e htree hchildren hopening hclosing hindex =>
    have htoken : index.kind ≠ "]" := kind_ne_of_readExpression hindex rfl
    have hrun : Run .subscriptExpression tree.kind {} (heard tree.children)
        ⟨pathSteps n ++ [.index e],false⟩ := by
      rw [hchildren]
      refine run_cons.2 ⟨_,.of_readExpression hfirst (SubscriptSlots.step_first _),?_⟩
      refine .keep (SubscriptSlots.step_opening hne hopening) ?_
      refine run_cons.2 ⟨_,.of_readExpression hindex (SubscriptSlots.step_index hne htoken),?_⟩
      exact .keep (SubscriptSlots.step_closing hclosing) (.done _)
    exact readExpression_of_run (by rw [htree]; rfl) hrun
      (SubscriptSlots.finish_path (List.concat_ne_nil _ _)) context'

/-- A chain of accesses is read as one path with a step for each of them. -/
theorem readExpression_of_chain {base tree : ParseTree} {n : Node} {steps : List Node}
    {context : String} (hbase : (readExpression context base).result = .ok n)
    (hpath : n.kind ≠ .path) (hchain : AccessChain base tree steps) (hsteps : steps ≠ [])
    (context' : String) : (readExpression context' tree).result = .ok (.path (n :: steps)) := by
  -- Without any access the tree is the base itself, which is no path but contributes one step.
  have hboth : ∃ m, (readExpression context' tree).result = .ok m ∧ pathSteps m = n :: steps ∧
      (steps ≠ [] → m = .path (n :: steps)) := by
    clear hsteps
    induction hchain with
    | base =>
      exact ⟨n,readExpression_anywhere hbase context',pathSteps_of_kind_ne hpath,absurd rfl⟩
    | @access inner tree steps step _ haccess ih =>
      obtain ⟨m,hm,hpathSteps,-⟩ := ih
      have hread := readExpression_of_access hm (by simp [hpathSteps]) haccess context'
      rw [hpathSteps] at hread
      exact ⟨_,hread,rfl,fun _ => rfl⟩
  obtain ⟨m,hm,-,hpathOf⟩ := hboth
  rw [hm,hpathOf hsteps]

end Reading

namespace Printing
open Program Text Lexing

def inlined (place : Place) (n : Node) : String := oneLine (print place n).lines

/-- What a path begins with. A name stands there as it is. -/
def headText (place : Place) : Node → String
  | .reference name => name
  | n => inlined place n

/-- What a path goes on with: a name behind a dot, or an index in brackets. -/
def accessText (place : Place) : Node → String
  | .reference name => "." ++ name
  | .index e => "[" ++ inlined place e ++ "]"
  | _ => ""

theorem oneLine_singleton (line : String) : oneLine [line] = trim line := by
  simp [oneLine,glue]

theorem trim_brackets (s : String) : trim ("[" ++ s ++ "]") = "[" ++ s ++ "]" := by
  have hsolid : Solid ("[" ++ s ++ "]").toList := by
    have hopening : Solid "[".toList := solid_of_forall (by simp) (by simp [isBlank])
    have hclosing : Solid "]".toList := solid_of_forall (by simp) (by simp [isBlank])
    simpa using hopening.append s.toList hclosing
  exact trim_of_solid hsolid

section Paths
variable {place : Place}

theorem inlined_of_fits {role : Role} {n : Node} (hrole : role.isValue) (hfits : Fits role n) :
    inlined place n = oneLine (plain place n) := by
  rw [inlined,print_of_fits hrole hfits place,Printed.text]

theorem plainStep_head {n : Node} (hfits : Fits .head n) :
    plainStep true n (plain place n) = headText place n := by
  cases n with
  | reference name => rfl
  | _ => exact (inlined_of_fits rfl hfits).symm

theorem plainStep_access {n : Node} (hfits : Fits .step n) :
    plainStep false n (plain place n) = accessText place n := by
  cases n with
  | reference name => rfl
  | index e =>
    have he : Fits .expression e := (fits_iff.1 hfits).2.2 (.expression,e) (.head _)
    rw [plainStep,plain,oneLine_singleton,trim_brackets,accessText,inlined_of_fits rfl he]
    simp
  | _ => exact absurd hfits.1 (by simp [Role.admits,Node.kind])

theorem plainSteps_access {steps : List Node} (hfits : AllFit .step steps) :
    ((steps.zip (plainEach place steps)).map fun s => plainStep false s.1 s.2) =
      steps.map (accessText place) := by
  induction steps with
  | nil => rfl
  | cons step steps ih =>
    obtain ⟨hstep,hsteps⟩ := allFit_cons.1 hfits
    rw [plainEach,List.zip_cons_cons,List.map_cons,List.map_cons,plainStep_access hstep,ih hsteps]

theorem print_path_of_fits {n : Node} {steps : List Node}
    (hfits : Fits .expression (.path (n :: steps))) (place : Place) :
    print place (.path (n :: steps)) =
      .text [join "" (headText place n :: steps.map (accessText place))] := by
  obtain ⟨hhead,hsteps⟩ := Reading.fits_path_cons.1 hfits
  rw [print_of_fits rfl hfits place,plain,plainEach,List.zip_cons_cons,plainPath,
    plainStep_head hhead,plainSteps_access hsteps]

theorem headText_eq_inlined {n : Node} (h : ∀ name, n = .reference name → trim name = name) :
    headText place n = inlined place n := by
  cases n with
  | reference name => rw [headText,inlined,print,Printed.text,oneLine_singleton,h name rfl]
  | _ => rfl

end Paths

/-- A chain of accesses, of any length but none, to what is no path itself is read as one path with
a step for each access in order. It is printed on one line: the name that it begins with, or else
what it begins with on one line, and behind it a member or an index for each step. Only a name with
blanks at its ends is not printed there as it is by itself. -/
theorem read_and_print_of_chain {base tree : ParseTree} {n : Node} {steps : List Node}
    {context : String} (hbase : (Reading.readExpression context base).result = .ok n)
    (hpath : n.kind ≠ .path) (hchain : Reading.AccessChain base tree steps) (hsteps : steps ≠ []) :
    (∀ context', (Reading.readExpression context' tree).result = .ok (.path (n :: steps))) ∧
    ∀ place, print place (.path (n :: steps)) =
        .text [join "" (headText place n :: steps.map (accessText place))] ∧
      ((∀ name, n = .reference name → trim name = name) →
        headText place n = inlined place n) := by
  have hread := Reading.readExpression_of_chain hbase hpath hchain hsteps
  refine ⟨hread,fun place => ⟨?_,headText_eq_inlined⟩⟩
  exact print_path_of_fits (Reading.fits_of_readExpression (hread context)) place

/-- `(a + b)->f[i + 1][0]`, from the inside out. -/
def sumTree : ParseTree :=
  .node "parenthesized_expression" "" [.node "(" "(" [],
    .node "binary_expression" "" [.node "identifier" "a" [],.node "+" "+" [],
      .node "identifier" "b" []],
    .node ")" ")" []]

def sumMember : ParseTree :=
  .node "field_expression" "" [sumTree,.node "->" "->" [],.node "field_identifier" "f" []]

def sumElement : ParseTree :=
  .node "subscript_expression" "" [sumMember,
    .node "subscript_argument_list" "" [.node "[" "[" [],
      .node "binary_expression" "" [.node "identifier" "i" [],.node "+" "+" [],
        .node "number_literal" "1" []],
      .node "]" "]" []]]

def sumChain : ParseTree :=
  .node "subscript_expression" "" [sumElement,.node "[" "[" [],.node "number_literal" "0" [],
    .node "]" "]" []]

def sumHead : Node :=
  .parenthesizedExpression (.binaryExpression "+" (.reference "a") (some (.reference "b")))

def sumSteps : List Node :=
  [.reference "f",.index (.binaryExpression "+" (.reference "i") (some (.numberLiteral "1"))),
    .index (.numberLiteral "0")]

theorem read_and_print_sumChain :
    (Reading.readExpression "expression_statement" sumTree).result = .ok sumHead ∧
    Reading.AccessChain sumTree sumChain sumSteps ∧
    (Reading.readExpression "expression_statement" sumChain).result =
      .ok (.path (sumHead :: sumSteps)) ∧
    print .top (.path (sumHead :: sumSteps)) = .text ["(a + b).f[i + 1][0]"] := by
  have hbase : (Reading.readExpression "expression_statement" sumTree).result = .ok sumHead := rfl
  have hmember : Reading.Access sumTree sumMember (.reference "f") :=
    @Reading.Access.member _ _ (.node "->" "->" []) (.node "field_identifier" "f" []) rfl rfl
      (by decide) rfl
  have helement : Reading.Access sumMember sumElement
      (.index (.binaryExpression "+" (.reference "i") (some (.numberLiteral "1")))) :=
    .listed rfl rfl rfl rfl rfl rfl rfl
  have hlast : Reading.Access sumElement sumChain (.index (.numberLiteral "0")) :=
    .bracketed rfl rfl rfl rfl rfl
  have hchain : Reading.AccessChain sumTree sumChain sumSteps :=
    .access (.access (.access .base hmember) helement) hlast
  obtain ⟨hread,hprint⟩ :=
    read_and_print_of_chain hbase (by decide) hchain (by simp [sumSteps])
  refine ⟨hbase,hchain,hread _,(hprint .top).1.trans ?_⟩
  rfl

/-- ` x .f`, where the name has blanks at its ends. -/
def spacedTree : ParseTree := .node "identifier" " x " []

def spacedMember : ParseTree :=
  .node "field_expression" "" [spacedTree,.node "." "." [],.node "field_identifier" "f" []]

/-- By itself a name loses the blanks at its ends, but not in a path. -/
theorem print_spacedMember :
    (Reading.readExpression "expression_statement" spacedTree).result = .ok (.reference " x ") ∧
    Reading.AccessChain spacedTree spacedMember [.reference "f"] ∧
    (Reading.readExpression "expression_statement" spacedMember).result =
      .ok (.path [.reference " x ",.reference "f"]) ∧
    print .top (.path [.reference " x ",.reference "f"]) = .text [" x .f"] ∧
    inlined .top (.reference " x ") ++ ".f" = "x.f" ∧
    print .top (.path [.reference " x ",.reference "f"]) ≠
      .text [inlined .top (.reference " x ") ++ ".f"] := by
  have hmember : Reading.Access spacedTree spacedMember (.reference "f") :=
    @Reading.Access.member _ _ (.node "." "." []) (.node "field_identifier" "f" []) rfl rfl
      (by decide) rfl
  have hprint : print .top (.path [.reference " x ",.reference "f"]) = .text [" x .f"] := rfl
  have hinlined : inlined .top (.reference " x ") ++ ".f" = "x.f" := rfl
  refine ⟨rfl,.access .base hmember,rfl,hprint,hinlined,?_⟩
  rw [hprint,hinlined]
  simp [Printed.text]

end Printing
end Scribe
