import Scribe.Proofs.BalancedPrinting
import Scribe.Proofs.ExpressionLayout

/-! Line breaks inside expressions. Every line of an expression behind its first one goes on where
the lines in front of it have left off: a bracket of theirs is still open, or it begins with one of
the two signs of a conditional expression. -/
namespace Scribe

namespace Text

/-- Behind its indentation the line begins with a sign of a conditional expression. -/
def BeginsSigned (line : String) : Prop :=
  (line.toList.dropWhile (· = ' ')).head? = some '?' ∨
    (line.toList.dropWhile (· = ' ')).head? = some ':'

instance (line : String) : Decidable (BeginsSigned line) := instDecidableOr

/-- A parenthesis or a bracket of the lines is not closed in them. -/
def LeaveOpen (lines : List String) : Prop :=
  ∃ awaited, awaitedAfter [] (join "" lines).toList = some awaited ∧
    (')' ∈ awaited ∨ ']' ∈ awaited)

/-- Lines that go on where others have left off, with the brackets that those wait for. -/
def Held (awaited : List Char) : List String → Prop
  | [] => True
  | line :: rest => (')' ∈ awaited ∨ BeginsSigned line) ∧
    ∃ after, awaitedAfter awaited (brackets line) = some after ∧ Held after rest

/-- Lines behind the first of which each goes on where those in front of it have left off. -/
def Unbroken : List String → Prop
  | [] => False
  | first :: rest => ∃ awaited, awaitedAfter [] (brackets first) = some awaited ∧ Held awaited rest

theorem awaitNext_append {awaited after : List Char} {c : Char} (h : awaitNext awaited c = some after)
    (outer : List Char) : awaitNext (awaited ++ outer) c = some (after ++ outer) := by
  unfold awaitNext at h ⊢
  split at h
  · obtain rfl := Option.some.inj h
    rfl
  · by_cases hc : isClosing c
    · rw [if_pos hc] at h ⊢
      cases awaited with
      | nil => cases h
      | cons d rest =>
        obtain ⟨hd,hrest⟩ := Option.ite_none_right_eq_some.1 h
        obtain rfl := Option.some.inj hrest
        simp [hd]
    · rw [if_neg hc] at h ⊢
      obtain rfl := Option.some.inj h
      rfl

theorem awaitedAfter_append_outer {awaited after cs : List Char}
    (h : awaitedAfter awaited cs = some after) (outer : List Char) :
    awaitedAfter (awaited ++ outer) cs = some (after ++ outer) := by
  induction cs generalizing awaited with
  | nil =>
    obtain rfl := Option.some.inj h
    rfl
  | cons c cs ih =>
    obtain ⟨between,hnext,hrest⟩ := Option.bind_eq_some_iff.1 h
    exact Option.bind_eq_some_iff.2 ⟨between ++ outer,awaitNext_append hnext outer,ih hrest⟩

theorem Unbroken.ne_nil {lines : List String} (h : Unbroken lines) : lines ≠ [] := by
  rintro rfl
  exact h

section Held
variable {awaited after : List Char} {lines more : List String}

theorem Held.append (h : Held awaited lines)
    (hafter : awaitedAfter awaited (bracketsOf lines) = some after) (hmore : Held after more) :
    Held awaited (lines ++ more) := by
  induction lines generalizing awaited with
  | nil =>
    obtain rfl := Option.some.inj hafter
    exact hmore
  | cons line rest ih =>
    obtain ⟨hline,between,hbetween,hrest⟩ := h
    rw [bracketsOf_cons,awaitedAfter_append,hbetween] at hafter
    exact ⟨hline,between,hbetween,ih hrest hafter⟩

theorem BeginsSigned.indent {line : String} (h : BeginsSigned line) (levels : Nat) :
    BeginsSigned (indentation levels ++ line) := by
  rw [BeginsSigned,String.toList_append,indentation,String.toList_ofList,
    List.dropWhile_append_of_pos]
  · exact h
  · intro c hc
    simpa using List.eq_of_mem_replicate hc

theorem Held.indent (h : Held awaited lines) (levels : Nat) : Held awaited (indent levels lines) := by
  induction lines generalizing awaited with
  | nil => trivial
  | cons line rest ih =>
    obtain ⟨hline,between,hbetween,hrest⟩ := h
    refine ⟨hline.imp_right fun hsigned => hsigned.indent levels,between,?_,ih hrest⟩
    rwa [brackets_append,brackets_indentation,List.nil_append]

theorem held_of_open {outer : List Char} (houter : ')' ∈ outer)
    (h : awaitedAfter awaited (bracketsOf lines) = some after) : Held (awaited ++ outer) lines := by
  induction lines generalizing awaited with
  | nil => trivial
  | cons line rest ih =>
    rw [bracketsOf_cons,awaitedAfter_append] at h
    obtain ⟨between,hbetween,hrest⟩ := Option.bind_eq_some_iff.1 h
    -- The parenthesis further out is open at this line and, by induction, at those behind it.
    refine ⟨.inl (List.mem_append_right _ houter),between ++ outer,?_,ih hrest⟩
    exact awaitedAfter_append_outer hbetween outer

theorem Held.at_line {before behind : List String} {line : String}
    (h : Held awaited (before ++ line :: behind)) :
    ∃ after, awaitedAfter awaited (bracketsOf before) = some after ∧
      (')' ∈ after ∨ BeginsSigned line) := by
  induction before generalizing awaited with
  | nil => exact ⟨awaited,rfl,h.1⟩
  | cons first rest ih =>
    obtain ⟨-,between,hbetween,hrest⟩ := h
    obtain ⟨after,hafter,hline⟩ := ih hrest
    refine ⟨after,?_,hline⟩
    rw [bracketsOf_cons,awaitedAfter_append,hbetween]
    exact hafter

theorem Unbroken.at_line {before behind : List String} {line : String}
    (h : Unbroken (before ++ line :: behind)) (hne : before ≠ []) :
    BeginsSigned line ∨ LeaveOpen before := by
  obtain ⟨first,rest,rfl⟩ := List.exists_cons_of_ne_nil hne
  obtain ⟨awaited,hfirst,hrest⟩ := h
  obtain ⟨after,hafter,hline⟩ := hrest.at_line
  refine hline.symm.imp_right fun hopen => ⟨after,?_,.inl hopen⟩
  rw [← awaitedAfter_filter]
  change awaitedAfter [] (brackets (join "" (first :: rest))) = some after
  rw [brackets_join rfl,bracketsOf_cons,awaitedAfter_append,hfirst]
  exact hafter

end Held

end Text

namespace Program

theorem Node.Sorted.valid {n : Node} (h : n.Sorted) : n.Valid := by
  obtain ⟨-,hcomplete⟩ := h
  cases n with
  | ifStatement choices => exact chainFault?_eq_none.1 hcomplete
  | path steps => exact hcomplete
  | _ => trivial

end Program

namespace Printing
open Program Text

section Lines
variable {lines : List String}

theorem unbroken_singleton {line : String} (h : Enclosed [line]) : Unbroken [line] :=
  ⟨[],enclosed_singleton.1 h [],trivial⟩

theorem awaitedAfter_of_enclosed {line : String} {awaited : List Char} (h : Enclosed (line :: lines))
    (hline : awaitedAfter [] (brackets line) = some awaited) :
    awaitedAfter awaited (bracketsOf lines) = some [] := by
  have hall : awaitedAfter [] (bracketsOf (line :: lines)) = some [] := h []
  rwa [bracketsOf_cons,awaitedAfter_append,hline] at hall

theorem held_part {line : String} {rest : List String} (sign : String) (hsign : sign ∈ ["? ",": "])
    (h : Unbroken (line :: lines)) (henclosed : Enclosed (line :: lines)) (hrest : Held [] rest) :
    Held [] ((indentation 1 ++ sign ++ line) :: (indent 2 lines ++ rest)) := by
  obtain ⟨awaited,hline,hlines⟩ := h
  obtain ⟨hsigned,hnone⟩ : BeginsSigned (sign ++ line) ∧ brackets sign = [] := by
    obtain rfl | rfl : sign = "? " ∨ sign = ": " := by simpa using hsign
    · exact ⟨.inl (by simp),rfl⟩
    · exact ⟨.inr (by simp),rfl⟩
  refine ⟨.inr ?_,awaited,?_,(hlines.indent 2).append ?_ hrest⟩
  · rw [String.append_assoc]
    exact hsigned.indent 1
  · rw [brackets_append,brackets_append,brackets_indentation,hnone]
    exact hline
  · rw [bracketsOf_indent]
    exact awaitedAfter_of_enclosed henclosed hline

theorem unbroken_conditionalLines {test success failure : List String}
    (htest : Unbroken test ∧ Enclosed test) (hsuccess : Unbroken success ∧ Enclosed success)
    (hfailure : Unbroken failure ∧ Enclosed failure)
    (h : conditionalLines test success failure = some lines) : Unbroken lines := by
  unfold conditionalLines at h
  split at h
  · rename_i t ts s ss f fs
    obtain rfl := Option.some.inj h
    obtain ⟨⟨awaited,hline,hlines⟩,henclosed⟩ := htest
    have helse : Held [] ((indentation 1 ++ ": " ++ f) :: (indent 2 fs ++ [])) :=
      held_part ": " (by simp) hfailure.1 hfailure.2 trivial
    have hthen := held_part "? " (by simp) hsuccess.1 hsuccess.2 helse
    have hrest := (hlines.indent 2).append
      (by rw [bracketsOf_indent]; exact awaitedAfter_of_enclosed henclosed hline) hthen
    refine ⟨awaited,hline,?_⟩
    simpa using hrest
  · cases h

theorem unbroken_wrap {opening : String} (hopening : Nested (brackets opening))
    (h : Unbroken lines) : Unbroken (wrap opening lines "") := by
  cases lines with
  | nil => exact h.elim
  | cons line rest =>
    obtain ⟨awaited,hline,hrest⟩ := h
    rw [wrap,closeWith_empty]
    refine ⟨awaited,?_,hrest⟩
    rw [brackets_append,awaitedAfter_append,hopening []]
    exact hline

theorem unbroken_callLines {callee : String} {arguments : List (List String)}
    (hcallee : Nested (brackets callee)) (harguments : ∀ a ∈ arguments, Enclosed a) :
    Unbroken (callLines callee arguments) := by
  have henclosed := enclosed_callLines hcallee harguments
  unfold callLines at henclosed ⊢
  split at henclosed
  · rename_i hone
    rw [if_pos hone]
    exact unbroken_singleton henclosed
  · rename_i hmore
    rw [if_neg hmore]
    have hopen : awaitedAfter [] (brackets (callee ++ "(")) = some [')'] := by
      rw [brackets_append,awaitedAfter_append,hcallee []]
      rfl
    have hlines : Nested (bracketsOf (argumentLines arguments)) := by
      rw [bracketsOf_argumentLines]
      exact Nested.flatMap harguments
    have hheld : Held [')'] (argumentLines arguments) := held_of_open (.head _) (hlines [])
    refine ⟨[')'],hopen,hheld.append (hlines [')']) ⟨.inl (.head _),[],rfl,trivial⟩⟩

end Lines

theorem plain_eq_of_fits {role : Role} {n : Node} (hrole : role.isValue) (hfits : Fits role n)
    (place place' : Place) : plain place n = plain place' n := by
  refine induct_value hrole hfits fun role n hrole hfits h => ?_
  have hkind := kind_of_isValue hrole (fits_iff.1 hfits).1
  have heach : ∀ ns : List Node, (∀ c ∈ ns, c ∈ n.children) →
      plainEach place ns = plainEach place' ns := by
    intro ns hns
    rw [plainEach_eq_map,plainEach_eq_map]
    exact List.map_congr_left fun c hc => h c (hns c hc)
  cases n with
  | binaryExpression operator left right =>
    have hleft := h left (.head _)
    cases right with
    | none => rw [plain,plain,hleft]
    | some right => rw [plain,plain,hleft,h right (.tail _ (.head _))]
  | conditionalExpression test success failure =>
    rw [plain,plain,h test (.head _),h success (.tail _ (.head _)),
      h failure (.tail _ (.tail _ (.head _)))]
  | assignmentExpression left operator right =>
    rw [plain,plain,h left (.head _),h right (.tail _ (.head _))]
  | callExpression callee arguments =>
    have harguments := heach arguments (by simp +contextual [Node.children,Node.slots])
    rw [plain,plain,h callee (.head _),harguments]
  | path steps => rw [plain,plain,heach steps (by simp [Node.children_path])]
  | unaryExpression operator value | updateExpression operator value isPostfix
  | parenthesizedExpression value | index value => rw [plain,plain,h value (.head _)]
  | reference text | numberLiteral text | booleanLiteral text | nullLiteral | stringLiteral text
  | userDefinedLiteral text => rw [plain,plain]
  | _ => simp [Node.kind,Kind.isExpression] at hkind

section Expressions
variable {role : Role} {n : Node}

theorem enclosed_of_fits (hrole : role.isValue) (hfits : Fits role n)
    (htexts : Everywhere Node.Unbracketed [n]) (place : Place) : Enclosed (plain place n) := by
  have hvalid : Everywhere Node.Valid [n] := hfits.2.mono fun _ hm => hm.valid
  have hencloses := enclosing_of_unbracketed n hvalid htexts .top (by simp [Place.Unbracketed,Place.top])
  obtain ⟨hok,hlines⟩ := lines_of_fits hrole hfits .top
  rw [plain_eq_of_fits hrole hfits place .top,← hlines]
  have hdraft : (print .top n).draft.result = .ok (print .top n).lines := by
    rw [failureAt] at hok
    simp [Printed.draft,hok]
  exact (hencloses _ hdraft).1

/-- No line break of an expression leaves what is in front of it complete. -/
theorem unbroken_of_fits (hrole : role.isValue) (hfits : Fits role n) (place : Place) :
    Everywhere Node.Unbracketed [n] → Unbroken (plain place n) ∧ Enclosed (plain place n) := by
  refine induct_value hrole hfits fun role n hrole hfits h htexts => ?_
  have henclosed := enclosed_of_fits hrole hfits htexts place
  have hflat : Flattens place n := flattens_of_fits hrole hfits
  obtain ⟨htext,hinside⟩ := everywhere_singleton.1 htexts
  have hchild := fun c hc => h c hc (everywhere_iff.1 hinside c hc)
  refine ⟨?_,henclosed⟩
  by_cases hmultiline : Multiline n
  · cases hmultiline with
    | conditional test success failure =>
      have htest := hchild test (.head _)
      have hsuccess := hchild success (.tail _ (.head _))
      have hfailure := hchild failure (.tail _ (.tail _ (.head _)))
      obtain ⟨lines,hlines⟩ :=
        exists_conditionalLines htest.1.ne_nil hsuccess.1.ne_nil hfailure.1.ne_nil
      rw [plain,hlines]
      exact unbroken_conditionalLines htest hsuccess hfailure hlines
    | @assignment left right operator _ =>
      have hsign := brackets_eq_nil.2 (htext operator (.head _))
      have hopening : Nested (brackets (oneLine (plain place left) ++ " " ++ operator ++ " ")) := by
        simp only [brackets_append,brackets_oneLine,hsign,show brackets " " = [] from rfl,
          List.append_nil]
        exact (hchild left (.head _)).2
      rw [plain]
      exact unbroken_wrap hopening (hchild right (.tail _ (.head _))).1
    | @call callee _ arguments _ _ =>
      have hcallee : Nested (brackets (tight (plain place callee))) := by
        rw [brackets_tight]
        exact (hchild callee (.head _)).2
      have harguments : ∀ lines ∈ plainEach place arguments, Enclosed lines := by
        rw [plainEach_eq_map,List.forall_mem_map]
        exact fun c hc => (hchild c (by simp [Node.children,Node.slots,hc])).2
      rw [plain]
      exact unbroken_callLines hcallee harguments
  · obtain ⟨line,hline⟩ := List.length_eq_one_iff.1 (hflat.single.2 hmultiline)
    rw [hline] at henclosed ⊢
    exact unbroken_singleton henclosed

end Expressions

/-- Every line of a printed expression behind its first one begins with a sign of a conditional
expression, or the lines in front of it leave a bracket open, if no text of the expression has any
brackets. -/
theorem lines_unbroken {role : Role} {n : Node} (hrole : role.isValue) (hfits : Fits role n)
    (htexts : Everywhere Node.Unbracketed [n]) (place : Place) :
    (print place n).failure = none ∧ ∀ before line behind,
      (print place n).lines = before ++ line :: behind → before ≠ [] →
        BeginsSigned line ∨ LeaveOpen before := by
  obtain ⟨hok,hlines⟩ := lines_of_fits hrole hfits place
  refine ⟨hok,fun before line behind hsplit hne => ?_⟩
  obtain ⟨hunbroken,-⟩ := unbroken_of_fits hrole hfits place htexts
  rw [← hlines,hsplit] at hunbroken
  exact hunbroken.at_line hne

/-- `f(c ? a : b)`. -/
def splitCall : Node :=
  .callExpression (.reference "f")
    [.conditionalExpression (.reference "c") (.reference "a") (.reference "b")]

theorem lines_unbroken_splitCall :
    Fits .expression splitCall ∧ Everywhere Node.Unbracketed [splitCall] ∧
      (print .top splitCall).lines = ["f(","  c","    ? a","    : b",")"] ∧
      LeaveOpen ["f(","  c","    ? a","    : b"] := by
  have hfits : Fits .expression splitCall := by
    simp [Fits,splitCall,everywhere_cons,Node.Sorted,Node.Complete,Node.children,Node.slots,
      Role.admits,Node.kind,Kind.isExpression]
  have htexts : Everywhere Node.Unbracketed [splitCall] := by
    simp [splitCall,everywhere_cons,Node.children,Node.slots,Node.Unbracketed,Node.texts]
    decide
  have hlines : (print .top splitCall).lines = ["f(","  c","    ? a","    : b",")"] := by decide
  obtain ⟨-,hbreak⟩ := lines_unbroken rfl hfits htexts .top
  have hlast := hbreak ["f(","  c","    ? a","    : b"] ")" [] hlines (by simp)
  exact ⟨hfits,htexts,hlines,hlast.resolve_left (by decide)⟩

end Printing
end Scribe
