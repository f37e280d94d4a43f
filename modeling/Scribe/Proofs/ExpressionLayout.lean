import Scribe.Proofs.ExpressionPieces
import Scribe.Proofs.VisibleText

/-! The layout of expressions. Which expressions take more than one line can be seen from their
shape, and wherever the lines break, the visible characters are those of the expression written on
one line. -/
namespace Scribe

namespace Program
open Printing Text

/-- An expression that takes more than one line. -/
inductive Multiline : Node → Prop
  | conditional (test success failure : Node) :
    Multiline (.conditionalExpression test success failure)
  | assignment {left right : Node} {operator : String} :
    Multiline right → Multiline (.assignmentExpression left operator right)
  | call {callee argument : Node} {arguments : List Node} :
    argument ∈ arguments → Multiline argument → Multiline (.callExpression callee arguments)

mutual
/-- An expression written on one line. -/
def Node.flat : Node → String
  | .binaryExpression operator left none => operatorSign operator ++ left.flat
  | .binaryExpression operator left (some right) =>
    left.flat ++ " " ++ operatorSign operator ++ " " ++ right.flat
  | .unaryExpression operator value => operatorSign operator ++ value.flat
  | .updateExpression operator value isPostfix =>
    if isPostfix then value.flat ++ operatorSign operator else operatorSign operator ++ value.flat
  | .conditionalExpression test success failure =>
    test.flat ++ " ? " ++ success.flat ++ " : " ++ failure.flat
  | .assignmentExpression left operator right =>
    left.flat ++ " " ++ operatorSign operator ++ " " ++ right.flat
  | .callExpression callee arguments =>
    callee.flat ++ "(" ++ join ", " (flatEach arguments) ++ ")"
  | .parenthesizedExpression value => "(" ++ value.flat ++ ")"
  | .path steps => flatPath steps
  | .index value => "[" ++ value.flat ++ "]"
  | .reference name => name
  | .numberLiteral value => numeral value
  | .booleanLiteral value => value
  | .nullLiteral => "null"
  | .stringLiteral value => value
  | .userDefinedLiteral text => text
  | _ => ""

def flatEach : List Node → List String
  | [] => []
  | n :: ns => n.flat :: flatEach ns

def flatPath : List Node → String
  | [] => ""
  | first :: rest => first.flat ++ flatSteps rest

/-- The steps behind the first one of a path: names behind dots, and indices. -/
def flatSteps : List Node → String
  | [] => ""
  | .reference name :: rest => "." ++ name ++ flatSteps rest
  | step :: rest => step.flat ++ flatSteps rest
end

end Program

namespace Printing
open Program Text

theorem operatorSign_of_mem_update {operator : String} (h : operator ∈ Reading.updateOperators) :
    operatorSign operator = operator := by
  have hall : ∀ operator ∈ Reading.updateOperators, operatorSign operator = operator := by decide
  exact hall operator h

theorem operatorSign_of_mem_assignment {operator : String}
    (h : operator ∈ Reading.assignmentOperators) : operatorSign operator = operator := by
  have hall : ∀ operator ∈ Reading.assignmentOperators, operatorSign operator = operator := by decide
  exact hall operator h

section Lines

theorem visibleOf_conditionalLines {test success failure lines : List String}
    (h : conditionalLines test success failure = some lines) :
    visibleOf lines = visibleOf test ++ '?' :: (visibleOf success ++ ':' :: visibleOf failure) := by
  unfold conditionalLines at h
  split at h
  · obtain rfl := Option.some.inj h
    simp [show visible "? " = ['?'] from rfl,show visible ": " = [':'] from rfl]
  · cases h

theorem visibleOf_argumentLines (arguments : List (List String)) :
    visibleOf (argumentLines arguments) = List.intercalate [','] (arguments.map visibleOf) := by
  induction arguments with
  | nil => rfl
  | cons argument rest ih =>
    cases rest with
    | nil => simp [argumentLines]
    | cons next rest =>
      rw [argumentLines,visibleOf_append,visibleOf_indent,visibleOf_wrap,ih]
      simp [show visible "," = [','] from rfl,List.intercalate_cons_cons]

theorem visible_join_arguments {arguments : List (List String)}
    (h : ∀ argument ∈ arguments, argument.length = 1) :
    visible (join ", " arguments.flatten) = List.intercalate [','] (arguments.map visibleOf) := by
  have hflat : arguments.flatten.map visible = arguments.map visibleOf := by
    induction arguments with
    | nil => rfl
    | cons argument rest ih =>
      obtain ⟨hone,hrest⟩ := List.forall_mem_cons.1 h
      obtain ⟨line,rfl⟩ := List.length_eq_one_iff.1 hone
      simp [ih hrest]
  rw [visible_join,hflat]
  rfl

theorem visibleOf_callLines (callee : String) (arguments : List (List String)) :
    visibleOf (callLines callee arguments) =
      visible callee ++ '(' :: (List.intercalate [','] (arguments.map visibleOf) ++ [')']) := by
  unfold callLines
  split
  · rename_i hone
    simp [visible_join_arguments (by simpa using hone),show visible "(" = ['('] from rfl,
      show visible ")" = [')'] from rfl]
  · simp [visibleOf_argumentLines,show visible "(" = ['('] from rfl,
      show visible ")" = [')'] from rfl]

theorem length_callLines {callee : String} {arguments : List (List String)} :
    (callLines callee arguments).length = 1 ↔ ∀ argument ∈ arguments, argument.length = 1 := by
  unfold callLines
  split
  · rename_i hone
    simpa using hone
  · rename_i hmore
    simpa using hmore

theorem length_closeWith (suffix : String) (lines : List String) :
    (closeWith suffix lines).length = lines.length := by
  fun_induction closeWith suffix lines with
  | case1 => rfl
  | case2 line => rfl
  | case3 line next rest ih => simp [ih]

theorem length_wrap (opening : String) {lines : List String} (hne : lines ≠ []) (suffix : String) :
    (wrap opening lines suffix).length = lines.length := by
  cases lines with
  | nil => exact absurd rfl hne
  | cons first rest => simp [wrap,length_closeWith]

theorem exists_conditionalLines {test success failure : List String} (htest : test ≠ [])
    (hsuccess : success ≠ []) (hfailure : failure ≠ []) :
    ∃ lines, conditionalLines test success failure = some lines := by
  obtain ⟨t,ts,rfl⟩ := List.exists_cons_of_ne_nil htest
  obtain ⟨s,ss,rfl⟩ := List.exists_cons_of_ne_nil hsuccess
  obtain ⟨f,fs,rfl⟩ := List.exists_cons_of_ne_nil hfailure
  exact ⟨_,rfl⟩

theorem length_conditionalLines {test success failure lines : List String}
    (h : conditionalLines test success failure = some lines) : lines.length ≠ 1 := by
  unfold conditionalLines at h
  split at h
  · obtain rfl := Option.some.inj h
    simp
  · cases h

end Lines

/-- At a place an expression is printed on one line unless it is a multiline one, with the visible
characters of its form on one line. -/
structure Flattens (place : Place) (n : Node) : Prop where
  ne_nil : plain place n ≠ []
  visibleOf_eq : visibleOf (plain place n) = visible n.flat
  single : (plain place n).length = 1 ↔ ¬Multiline n

section Inside
variable {place : Place} {n : Node}

theorem flattens_of_line {line : String} (hplain : plain place n = [line])
    (hvisible : visible line = visible n.flat) (hone : ¬Multiline n) : Flattens place n := by
  refine ⟨by simp [hplain],?_,by simp [hplain,hone]⟩
  rw [hplain,visibleOf_cons,visibleOf_nil,List.append_nil,hvisible]

theorem Flattens.visible_oneLine (h : Flattens place n) :
    visible (oneLine (plain place n)) = visible n.flat :=
  (Text.visible_oneLine _).trans h.visibleOf_eq

theorem map_visibleOf_plainEach {ns : List Node} (h : ∀ n ∈ ns, Flattens place n) :
    (plainEach place ns).map visibleOf = (flatEach ns).map visible := by
  induction ns with
  | nil => rw [plainEach,flatEach,List.map_nil,List.map_nil]
  | cons n ns ih =>
    obtain ⟨hn,hns⟩ := List.forall_mem_cons.1 h
    rw [plainEach,flatEach,List.map_cons,List.map_cons,hn.visibleOf_eq,ih hns]

theorem plainEach_eq_map (place : Place) (ns : List Node) :
    plainEach place ns = ns.map (plain place) := by
  induction ns with
  | nil => rw [plainEach,List.map_nil]
  | cons n ns ih => rw [plainEach,ih,List.map_cons]

theorem visible_steps {ns : List Node} (h : ∀ n ∈ ns, Flattens place n) :
    visibleOf ((ns.zip (plainEach place ns)).map fun s => plainStep false s.1 s.2) =
      visible (flatSteps ns) := by
  induction ns with
  | nil => rw [plainEach,flatSteps,List.zip_nil_right,List.map_nil,visibleOf_nil,visible_empty]
  | cons n ns ih =>
    obtain ⟨hn,hns⟩ := List.forall_mem_cons.1 h
    have hstep : visible (flatSteps (n :: ns)) =
        visible (plainStep false n (plain place n)) ++ visible (flatSteps ns) := by
      cases n with
      | reference name => simp [flatSteps,plainStep]
      | _ =>
        rw [flatSteps,visible_append]
        · rw [← hn.visible_oneLine,plainStep]
          simp
        · simp
    rw [plainEach,List.zip_cons_cons,List.map_cons,visibleOf_cons,ih hns,hstep]

theorem visible_path {steps : List Node} (h : ∀ n ∈ steps, Flattens place n) :
    visible (join "" (plainPath (steps.zip (plainEach place steps)))) = visible (flatPath steps) := by
  rw [visible_join_empty]
  cases steps with
  | nil => rw [plainEach,flatPath,List.zip_nil_right,plainPath,visibleOf_nil,visible_empty]
  | cons first rest =>
    obtain ⟨hfirst,hrest⟩ := List.forall_mem_cons.1 h
    have hhead : visible (plainStep true first (plain place first)) = visible first.flat := by
      cases first with
      | reference name => simp [plainStep,Node.flat]
      | _ => exact hfirst.visible_oneLine
    rw [plainEach,List.zip_cons_cons,plainPath,visibleOf_cons,hhead,flatPath,visible_append]
    exact congrArg _ (visible_steps hrest)

theorem flattens_of_children (hkind : n.kind.isExpression ∨ n.kind = .index)
    (hcomplete : n.Complete) (h : ∀ c ∈ n.children, Flattens place c) : Flattens place n := by
  cases n with
  | binaryExpression operator left right =>
    have hleft := (h left (.head _)).visible_oneLine
    cases right with
    | none =>
      refine flattens_of_line rfl ?_ (by rintro ⟨⟩)
      rw [Node.flat,visible_append,visible_append,hleft]
    | some right =>
      have hright := (h right (.tail _ (.head _))).visible_oneLine
      refine flattens_of_line rfl ?_ (by rintro ⟨⟩)
      simp only [Node.flat,visible_append,hleft,hright]
  | unaryExpression operator value =>
    refine flattens_of_line rfl ?_ (by rintro ⟨⟩)
    rw [Node.flat,visible_append,visible_append,(h value (.head _)).visible_oneLine]
  | updateExpression operator value isPostfix =>
    have hvalue := (h value (.head _)).visible_oneLine
    have hsign := operatorSign_of_mem_update hcomplete
    refine flattens_of_line rfl ?_ (by rintro ⟨⟩)
    cases isPostfix with
    | true => simp only [Node.flat,if_pos,visible_append,hvalue,hsign]
    | false => simp only [Node.flat,Bool.false_eq_true,if_false,visible_append,hvalue,hsign]
  | conditionalExpression test success failure =>
    obtain ⟨htest,hsuccess,hfailure⟩ := Node.forall_children_conditionalExpression.1 h
    obtain ⟨lines,hlines⟩ := exists_conditionalLines htest.ne_nil hsuccess.ne_nil hfailure.ne_nil
    have hplain : plain place (.conditionalExpression test success failure) = lines := by
      rw [plain,hlines,Option.getD_some]
    have hmultiline := Multiline.conditional test success failure
    refine ⟨?_,?_,?_⟩
    · rw [hplain]
      exact conditionalLines_ne_nil hlines
    · rw [hplain,visibleOf_conditionalLines hlines,htest.visibleOf_eq,hsuccess.visibleOf_eq,
        hfailure.visibleOf_eq,Node.flat]
      simp [show visible " ? " = ['?'] from rfl,show visible " : " = [':'] from rfl]
    · rw [hplain]
      exact iff_of_false (length_conditionalLines hlines) (not_not.2 hmultiline)
  | assignmentExpression left operator right =>
    have hleft := (h left (.head _)).visible_oneLine
    have hright := h right (.tail _ (.head _))
    have hsign := operatorSign_of_mem_assignment hcomplete
    have hmultiline : Multiline (.assignmentExpression left operator right) ↔ Multiline right := by
      constructor
      · intro hassignment
        cases hassignment with
        | assignment hmore => exact hmore
      · exact .assignment
    refine ⟨?_,?_,?_⟩
    · rw [plain]
      exact wrap_ne_nil _ _ _
    · rw [plain,visibleOf_wrap,hright.visibleOf_eq]
      simp [Node.flat,hleft,hsign]
    · rw [plain,length_wrap _ hright.ne_nil,hright.single,hmultiline]
  | callExpression callee arguments =>
    obtain ⟨hcallee,harguments⟩ := Node.forall_children_callExpression.1 h
    have hmultiline : ¬Multiline (.callExpression callee arguments) ↔
        ∀ argument ∈ arguments, ¬Multiline argument := by
      constructor
      · exact fun hone argument hargument hmore => hone (.call hargument hmore)
      · intro hone hcall
        cases hcall with
        | call hargument hmore => exact hone _ hargument hmore
    refine ⟨?_,?_,?_⟩
    · rw [plain]
      exact callLines_ne_nil _ _
    · rw [plain,visibleOf_callLines,visible_tight,hcallee.visibleOf_eq,
        map_visibleOf_plainEach harguments,Node.flat]
      simp [visible_join,show visible ", " = [','] from rfl,show visible "(" = ['('] from rfl,
        show visible ")" = [')'] from rfl]
    · rw [plain,length_callLines,plainEach_eq_map,List.forall_mem_map,hmultiline]
      exact forall₂_congr fun argument hargument => (harguments argument hargument).single
  | parenthesizedExpression value | index value =>
    refine flattens_of_line rfl ?_ (by rintro ⟨⟩)
    simp only [Node.flat,visible_append,(h value (.head _)).visible_oneLine]
  | path steps =>
    rw [Node.children_path] at h
    exact flattens_of_line rfl (visible_path h) (by rintro ⟨⟩)
  | reference text | numberLiteral text | booleanLiteral text | nullLiteral | stringLiteral text
  | userDefinedLiteral text => exact flattens_of_line rfl rfl (by rintro ⟨⟩)
  | _ => simp [Node.kind,Kind.isExpression] at hkind

theorem flattens_of_fits {role : Role} (hrole : role.isValue) (hfits : Fits role n) :
    Flattens place n := by
  refine induct_value hrole hfits fun role n hrole hfits h => ?_
  obtain ⟨hadmits,hcomplete,-⟩ := fits_iff.1 hfits
  exact flattens_of_children (kind_of_isValue hrole hadmits) hcomplete h

end Inside

/-- An expression can be printed at every place; it takes one line unless it is a multiline one, and
without blanks its lines are what it is on one line. -/
theorem lines_of_expression {role : Role} {n : Node} (hrole : role.isValue) (hfits : Fits role n)
    (place : Place) :
    (print place n).failure = none ∧ ((print place n).lines.length = 1 ↔ ¬Multiline n) ∧
      visible (join "" (print place n).lines) = visible n.flat := by
  obtain ⟨hok,hlines⟩ := lines_of_fits hrole hfits place
  have hflat : Flattens place n := flattens_of_fits hrole hfits
  refine ⟨hok,?_,?_⟩
  · rw [hlines]
    exact hflat.single
  · rw [hlines,visible_join_empty]
    exact hflat.visibleOf_eq

/-- `x = o.f(c ? 0x1FUL : not b, (y))`. -/
def wideExpression : Node :=
  .assignmentExpression (.reference "x") "=" (.callExpression
    (.path [.reference "o",.reference "f"])
    [.conditionalExpression (.reference "c") (.numberLiteral "0x1FUL")
      (.unaryExpression "not" (.reference "b")),
      .parenthesizedExpression (.reference "y")])

theorem lines_wideExpression :
    Fits .expression wideExpression ∧ Multiline wideExpression ∧
      (print .top wideExpression).lines =
        ["x = o.f(","  c","    ? 0x1F","    : !b,","  (y)",")"] ∧
      (print .top wideExpression).failure = none ∧ (print .top wideExpression).lines.length ≠ 1 ∧
      visible (join "" (print .top wideExpression).lines) =
        visible "x = o.f(c ? 0x1F : !b, (y))" := by
  have hfits : Fits .expression wideExpression := by
    simp [Fits,wideExpression,everywhere_cons,Node.Sorted,Node.Complete,Node.children,Node.slots,
      Role.admits,Node.kind,Kind.isExpression,Reading.assignmentOperators,Reading.unaryOperators]
  have hmultiline : Multiline wideExpression :=
    .assignment (.call (.head _) (.conditional _ _ _))
  obtain ⟨hok,hone,hvisible⟩ := lines_of_expression rfl hfits .top
  refine ⟨hfits,hmultiline,by decide,hok,fun hsingle => hone.1 hsingle hmultiline,?_⟩
  rw [hvisible]
  rfl

end Printing
end Scribe
