import Scribe.Proofs.RuleInvariant

/-! Content that leaves no trace. Comments and most directives anywhere, and the later branches
of a conditional region, can be taken out of a parse tree without any effect on what is read
from it, or on why it cannot be read. -/
namespace Scribe
namespace ParseTree

/-- Whether a child is taken out of a node, by the kinds of the two. -/
def isDropped (parent kind : String) : Bool :=
  kind ∈ ["comment","preproc_include","preproc_def","preproc_function_def","preproc_call"] ||
    (parent ∈ ["preproc_if","preproc_ifdef"] &&
      kind ∈ ["preproc_else","preproc_elif","preproc_elifdef"])

mutual
/-- The tree without what is taken out at any depth. -/
def strip : ParseTree → ParseTree
  | node kind text children => node kind text (stripAll kind children)

def stripAll (parent : String) : List ParseTree → List ParseTree
  | [] => []
  | child :: rest =>
    if isDropped parent child.kind then stripAll parent rest
    else strip child :: stripAll parent rest
end

@[simp] theorem kind_strip (t : ParseTree) : t.strip.kind = t.kind := by
  cases t
  rfl

@[simp] theorem text_strip (t : ParseTree) : t.strip.text = t.text := by
  cases t
  rfl

/-- Nodes none of whose children are to be taken out. -/
def Bare (t : ParseTree) : Prop := ∀ c ∈ t.children, isDropped t.kind c.kind = false

mutual
theorem bare_of_mem_strip : ∀ root : ParseTree, ∀ t ∈ root.strip.walk, t.Bare
  | node kind text children => by
    rw [strip,walk]
    refine List.forall_mem_cons.2 ⟨?_,(bare_of_mem_stripAll kind children).2⟩
    exact (bare_of_mem_stripAll kind children).1

theorem bare_of_mem_stripAll (parent : String) : ∀ children : List ParseTree,
    (∀ c ∈ stripAll parent children, isDropped parent c.kind = false) ∧
      ∀ t ∈ walkAll (stripAll parent children), t.Bare
  | [] => by simp [stripAll,walkAll]
  | child :: rest => by
    obtain ⟨hkinds,hbare⟩ := bare_of_mem_stripAll parent rest
    rw [stripAll]
    split
    · exact ⟨hkinds,hbare⟩
    · rename_i hkept
      rw [walkAll]
      refine ⟨List.forall_mem_cons.2 ⟨by simpa using hkept,hkinds⟩,?_⟩
      exact List.forall_mem_append.2 ⟨bare_of_mem_strip child,hbare⟩
end

end ParseTree

namespace Reading
open ParseTree Program

/-- Taken out is what no rule gets to see, and what is passed over in a region. -/
theorem isDropped_iff {parent kind : String} : isDropped parent kind ↔
    isNoise kind ∨ (parent ∈ regionKinds ∧ kind ∈ laterBranches) := by
  simp [isDropped,isNoise,noiseKinds,regionKinds,laterBranches]

theorem declaresFunction_of_isDropped {parent : String} {t : ParseTree}
    (h : isDropped parent t.kind) : declaresFunction t = false := by
  by_contra hne
  rw [Bool.not_eq_false] at hne
  have hkind := kind_of_declaresFunction hne
  simp only [wrappingDeclarators,List.mem_cons,List.not_mem_nil,or_false] at hkind
  rcases hkind with hkind | hkind | hkind <;> simp [isDropped,hkind] at h

mutual
theorem declaresFunction_strip : ∀ t : ParseTree, declaresFunction t.strip = declaresFunction t
  | .node kind text children => by
    rw [strip,declaresFunction,declaresFunction,anyDeclaresFunction_stripAll kind children]

theorem anyDeclaresFunction_stripAll (parent : String) : ∀ children : List ParseTree,
    anyDeclaresFunction (stripAll parent children) = anyDeclaresFunction children
  | [] => rfl
  | child :: rest => by
    have hrest := anyDeclaresFunction_stripAll parent rest
    rw [stripAll,anyDeclaresFunction]
    split
    · rename_i hdropped
      rw [declaresFunction_of_isDropped hdropped,hrest,Bool.false_or]
    · rw [anyDeclaresFunction,declaresFunction_strip child,hrest]
end

theorem head_strip (t : ParseTree) : head t.strip = head t := by
  rw [head,head,kind_strip,text_strip,declaresFunction_strip]

theorem step_laterBranch (s : RegionSlots) {child : Head} (h : child.kind ∈ laterBranches) :
    s.step child = .keep s := by
  unfold RegionSlots.step
  split_ifs <;> rfl

theorem readChildren_cons_of_isDropped {rule : Rule} {kind : String} (hkind : kind ∈ rule.kinds)
    {child : ParseTree} (h : isDropped kind child.kind) (s : rule.State) (rest : List ParseTree) :
    readChildren rule kind s (child :: rest) = readChildren rule kind s rest := by
  rw [readChildren_cons]
  split
  · rfl
  · rename_i hnoise
    obtain ⟨hregion,hlater⟩ := (isDropped_iff.1 h).resolve_left hnoise
    obtain rfl := rule_of_region hkind hregion
    have hstep : Rule.step .conditionalRegion s (head child) = .keep s := step_laterBranch s hlater
    rw [hstep]

mutual
/-- A stripped tree is read as the tree is, by every rule that reads its kind. -/
theorem read_strip : ∀ (tree : ParseTree) (rule : Rule) (context : String),
    tree.kind ∈ rule.kinds → read rule context tree.strip = read rule context tree
  | .node kind text children, rule, context, hkind => by
    rw [strip,read_node,read_node,readChildren_stripAll children rule kind hkind]

theorem readChildren_stripAll : ∀ (children : List ParseTree) (rule : Rule) (kind : String),
    kind ∈ rule.kinds → ∀ s : rule.State,
      readChildren rule kind s (stripAll kind children) = readChildren rule kind s children
  | [], _, _, _, _ => rfl
  | child :: rest, rule, kind, hkind, s => by
    have hrest := readChildren_stripAll rest rule kind hkind
    by_cases hdropped : isDropped kind child.kind
    · rw [readChildren_cons_of_isDropped hkind hdropped,stripAll,if_pos hdropped,hrest]
    · have hnoise : ¬isNoise child.kind := fun h => hdropped (isDropped_iff.2 (.inl h))
      rw [stripAll,if_neg hdropped,readChildren_cons,readChildren_cons,kind_strip,head_strip,
        if_neg hnoise,if_neg hnoise]
      cases hstep : rule.step s (head child) with
      | keep next => exact hrest next
      | reject => rfl
      | overrun => rfl
      | descend plan =>
        have hinner := (suits_of_descend hstep).kind
        simp only [read_strip child plan.rule kind hinner,hrest]
end

/-- What is dropped never influences what is read: nothing of it is left in the stripped tree,
and the stripped tree is read with the same outcome. -/
theorem readFile_strip (root : ParseTree) :
    (∀ t ∈ root.strip.walk, ∀ c ∈ t.children, isDropped t.kind c.kind = false) ∧
      readFile root.strip = readFile root := by
  refine ⟨bare_of_mem_strip root,?_⟩
  by_cases hroot : root.kind = "translation_unit"
  · rw [readFile_of_unit hroot,readFile_of_unit (by rwa [kind_strip])]
    exact read_strip root .items Unsupported.file (by simp [hroot,Rule.kinds])
  · rw [readFile_of_not_unit hroot,readFile_of_not_unit (by rwa [kind_strip]),kind_strip]

/-- `a + b;` in a region, with noise between the operands and their operator, and behind it a
branch that nothing could be read from. -/
def noisyFile : ParseTree :=
  .node "translation_unit" "" [.node "preproc_include" "#include <x>" [],
    .node "preproc_ifdef" "" [.node "#ifdef" "#ifdef" [],.node "comment" "// c" [],
      .node "identifier" "X" [],
      .node "expression_statement" "" [.node "binary_expression" "" [.node "identifier" "a" [],
        .node "comment" "/* c */" [],.node "+" "+" [],.node "preproc_call" "#pragma x" [],
        .node "identifier" "b" []],.node "comment" "/* c */" [],.node ";" ";" []],
      .node "preproc_else" "" [.node "unknown" "" []]]]

def quietFile : ParseTree :=
  .node "translation_unit" "" [
    .node "preproc_ifdef" "" [.node "#ifdef" "#ifdef" [],.node "identifier" "X" [],
      .node "expression_statement" "" [.node "binary_expression" "" [.node "identifier" "a" [],
        .node "+" "+" [],.node "identifier" "b" []],.node ";" ";" []]]]

theorem readFile_quietFile :
    noisyFile.strip = quietFile ∧
    readFile noisyFile =
      .ok [.binaryExpression "+" (.reference "a") (some (.reference "b"))] ∧
    readFile quietFile =
      .ok [.binaryExpression "+" (.reference "a") (some (.reference "b"))] := by
  have hstrip : noisyFile.strip = quietFile := rfl
  have hnoisy : readFile noisyFile =
      .ok [.binaryExpression "+" (.reference "a") (some (.reference "b"))] := rfl
  refine ⟨hstrip,hnoisy,?_⟩
  rw [← hstrip,(readFile_strip noisyFile).2,hnoisy]

end Reading
end Scribe
