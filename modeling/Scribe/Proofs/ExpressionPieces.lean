import Scribe.Proofs.PlainPrinting
import Scribe.Proofs.SortedPrinting
import Scribe.Proofs.SpelledLines

/-! Expressions as pieces of text. However the lines of a printed expression break, they spell its
operands, operators and marks in order. -/
namespace Scribe

namespace Program
open Lexing Printing

/-- Pieces with commas between them. -/
def commas : List (List Piece) → List Piece
  | [] => []
  | [group] => group
  | group :: next :: rest => group ++ .mark ',' :: commas (next :: rest)

mutual
/-- The pieces of an expression in the order of printing. An operator that lacks its right operand
is printed in front of the left one. -/
def Node.pieces : Node → List Piece
  | .binaryExpression operator left none => .tight (operatorSign operator) :: left.pieces
  | .binaryExpression operator left (some right) =>
    left.pieces ++ .spaced (operatorSign operator) :: right.pieces
  | .unaryExpression operator value => .tight (operatorSign operator) :: value.pieces
  | .updateExpression operator value true => value.pieces ++ [.tight operator]
  | .updateExpression operator value false => .tight operator :: value.pieces
  | .conditionalExpression test success failure =>
    test.pieces ++ .loose "?" :: (success.pieces ++ .loose ":" :: failure.pieces)
  | .assignmentExpression left operator right => left.pieces ++ .spaced operator :: right.pieces
  | .callExpression callee arguments =>
    callee.pieces ++ .mark '(' :: (commas (piecesEach arguments) ++ [.mark ')'])
  | .parenthesizedExpression value => .mark '(' :: (value.pieces ++ [.mark ')'])
  | .path steps => piecesPath steps
  | .index value => .mark '[' :: (value.pieces ++ [.mark ']'])
  | .reference name => [.operand name]
  | .numberLiteral value => [.operand (Text.numeral value)]
  | .booleanLiteral value => [.operand value]
  | .nullLiteral => [.operand "null"]
  | .stringLiteral value => [.operand value]
  | .userDefinedLiteral text => [.operand text]
  | _ => []

def piecesEach : List Node → List (List Piece)
  | [] => []
  | n :: ns => n.pieces :: piecesEach ns

def piecesPath : List Node → List Piece
  | [] => []
  | first :: rest => first.pieces ++ piecesSteps rest

/-- The steps behind the first one of a path. -/
def piecesSteps : List Node → List Piece
  | [] => []
  | .reference name :: rest => .mark '.' :: .operand name :: piecesSteps rest
  | step :: rest => step.pieces ++ piecesSteps rest
end

theorem commas_cons {group : List Piece} {rest : List (List Piece)} (h : rest ≠ []) :
    commas (group :: rest) = group ++ .mark ',' :: commas rest := by
  cases rest with
  | nil => exact absurd rfl h
  | cons next rest => rfl

section Members
variable {p : Piece}

theorem mem_commas {groups : List (List Piece)} (h : p ∈ commas groups) :
    p = .mark ',' ∨ ∃ group ∈ groups, p ∈ group := by
  fun_induction commas groups with
  | case1 => simp at h
  | case2 group => exact .inr ⟨group,.head _,h⟩
  | case3 group next rest ih =>
    rcases List.mem_append.1 h with hgroup | hothers
    · exact .inr ⟨group,.head _,hgroup⟩
    · rcases List.mem_cons.1 hothers with rfl | hlater
      · exact .inl rfl
      · exact (ih hlater).imp_right fun ⟨g,hg,hp⟩ => ⟨g,.tail _ hg,hp⟩

theorem mem_commas_of_mem {groups : List (List Piece)} {group : List Piece} (hgroup : group ∈ groups)
    (h : p ∈ group) : p ∈ commas groups := by
  fun_induction commas groups with
  | case1 => simp at hgroup
  | case2 _ => exact List.mem_singleton.1 hgroup ▸ h
  | case3 first next rest ih =>
    rcases List.mem_cons.1 hgroup with rfl | hlater
    · exact List.mem_append_left _ h
    · exact List.mem_append_right _ (.tail _ (ih hlater))

theorem piecesEach_eq_map (ns : List Node) : piecesEach ns = ns.map Node.pieces := by
  induction ns with
  | nil => rw [piecesEach,List.map_nil]
  | cons n ns ih => rw [piecesEach,ih,List.map_cons]

theorem mem_piecesSteps {steps : List Node} (h : p ∈ piecesSteps steps) :
    p = .mark '.' ∨ ∃ n ∈ steps, p ∈ n.pieces := by
  induction steps with
  | nil => simp [piecesSteps] at h
  | cons n rest ih =>
    have hlater : p ∈ piecesSteps rest → p = .mark '.' ∨ ∃ m ∈ n :: rest, p ∈ m.pieces :=
      fun hp => (ih hp).imp_right fun ⟨m,hm,hpm⟩ => ⟨m,.tail n hm,hpm⟩
    cases n with
    | reference name =>
      rw [piecesSteps] at h
      rcases List.mem_cons.1 h with rfl | hothers
      · exact .inl rfl
      · rcases List.mem_cons.1 hothers with rfl | hrest
        · exact .inr ⟨_,.head _,by simp [Node.pieces]⟩
        · exact hlater hrest
    | _ =>
      rw [piecesSteps] at h
      · rcases List.mem_append.1 h with hown | hrest
        · exact .inr ⟨_,.head _,hown⟩
        · exact hlater hrest
      · simp

theorem mem_piecesSteps_of_mem {steps : List Node} {n : Node} (hn : n ∈ steps) (h : p ∈ n.pieces) :
    p ∈ piecesSteps steps := by
  induction steps with
  | nil => cases hn
  | cons first rest ih =>
    have hlater : p ∈ piecesSteps rest ∨ n = first :=
      (List.mem_cons.1 hn).elim .inr fun hn => .inl (ih hn)
    cases first with
    | reference name =>
      rw [piecesSteps]
      rcases hlater with hrest | rfl
      · exact .tail _ (.tail _ hrest)
      · rw [Node.pieces] at h
        exact .tail _ (List.mem_singleton.1 h ▸ .head _)
    | _ =>
      rw [piecesSteps]
      · exact List.mem_append.2 (hlater.elim .inr fun heq => .inl (heq ▸ h))
      · simp

theorem mem_pieces_of_mem_children {n c : Node} (hkind : n.kind.isExpression ∨ n.kind = .index)
    (hc : c ∈ n.children) (h : p ∈ c.pieces) : p ∈ n.pieces := by
  cases n with
  | binaryExpression operator left right =>
    cases right with
    | none =>
      obtain rfl : c = left := by simpa [Node.children,Node.slots] using hc
      simp [Node.pieces,h]
    | some right =>
      obtain rfl | rfl : c = left ∨ c = right := by simpa [Node.children,Node.slots] using hc
      · simp [Node.pieces,h]
      · simp [Node.pieces,h]
  | updateExpression operator value isPostfix =>
    obtain rfl : c = value := by simpa [Node.children,Node.slots] using hc
    cases isPostfix <;> simp [Node.pieces,h]
  | conditionalExpression test success failure =>
    obtain rfl | rfl | rfl : c = test ∨ c = success ∨ c = failure := by
      simpa [Node.children,Node.slots] using hc
    · simp [Node.pieces,h]
    · simp [Node.pieces,h]
    · simp [Node.pieces,h]
  | assignmentExpression left operator right =>
    obtain rfl | rfl : c = left ∨ c = right := by simpa [Node.children,Node.slots] using hc
    · simp [Node.pieces,h]
    · simp [Node.pieces,h]
  | unaryExpression operator value | parenthesizedExpression value | index value =>
    obtain rfl : c = value := by simpa [Node.children,Node.slots] using hc
    simp [Node.pieces,h]
  | callExpression callee arguments =>
    obtain rfl | harguments : c = callee ∨ c ∈ arguments := by
      simpa [Node.children,Node.slots] using hc
    · simp [Node.pieces,h]
    · have hgroup : c.pieces ∈ piecesEach arguments := by
        rw [piecesEach_eq_map]
        exact List.mem_map_of_mem harguments
      simp [Node.pieces,mem_commas_of_mem hgroup h]
  | path steps =>
    rw [Node.children_path] at hc
    rw [Node.pieces]
    cases steps with
    | nil => cases hc
    | cons first rest =>
      rw [piecesPath]
      rcases List.mem_cons.1 hc with rfl | hrest
      · exact List.mem_append_left _ h
      · exact List.mem_append_right _ (mem_piecesSteps_of_mem hrest h)
  | _ => simp_all [Node.kind,Kind.isExpression,Node.children,Node.slots]

end Members

theorem kind_of_isValue {role : Role} (hrole : role.isValue) {n : Node}
    (hn : role.admits n.kind) : n.kind.isExpression ∨ n.kind = .index := by
  cases role <;> simp_all [Role.admits,Role.isValue]
  rcases hn with h | h <;> simp [h,Kind.isExpression]

@[elab_as_elim] theorem induct_value {motive : Node → Prop} {role : Role} {n : Node}
    (hrole : role.isValue) (hfits : Fits role n)
    (step : ∀ (role : Role) (n : Node), role.isValue → Fits role n →
      (∀ c ∈ n.children, motive c) → motive n) : motive n := by
  induction n using Node.induct_children generalizing role with
  | step n ih =>
    obtain ⟨hadmits,-,hslots⟩ := fits_iff.1 hfits
    refine step role n hrole hfits fun c hc => ?_
    obtain ⟨inner,hinner⟩ := Node.mem_children.1 hc
    exact ih c hc (isValue_of_slot hrole hadmits _ hinner) (hslots _ hinner)

theorem everywhere_value {role : Role} {n : Node} (hrole : role.isValue) (hfits : Fits role n) :
    Everywhere (fun m => (∃ inner : Role, inner.isValue ∧ Fits inner m) ∧
      ∀ p ∈ m.pieces, p ∈ n.pieces) [n] := by
  refine induct_value hrole hfits fun role n hrole hfits ih => ?_
  have hkind := kind_of_isValue hrole (fits_iff.1 hfits).1
  refine everywhere_singleton.2 ⟨⟨⟨role,hrole,hfits⟩,fun p hp => hp⟩,everywhere_iff.2 ?_⟩
  intro c hc
  refine (ih c hc).mono fun m hm => ⟨hm.1,fun p hp => ?_⟩
  exact mem_pieces_of_mem_children hkind hc (hm.2 p hp)

end Program

namespace Printing
open Program Text Lexing

theorem laid_conditionalLines {test success failure : List String} {ps qs rs : List Piece}
    (htest : Laid ps test) (hsuccess : Laid qs success) (hfailure : Laid rs failure) :
    ∃ lines, conditionalLines test success failure = some lines ∧
      Laid (ps ++ .loose "?" :: (qs ++ .loose ":" :: rs)) lines := by
  have hopen : ∀ (ps qs : List Piece) (sign : String), CanBreak ps (.loose sign :: qs) :=
    fun ps qs sign => .inr ⟨_,rfl,rfl⟩
  cases test with
  | nil => cases htest
  | cons t ts =>
    cases success with
    | nil => cases hsuccess
    | cons s ss =>
      cases failure with
      | nil => cases hfailure
      | cons f fs =>
        have hthen : OnLines (.loose "?" :: qs) ((indentation 1 ++ "? " ++ s) :: indent 2 ss) :=
          hsuccess.loose (by decide) rfl 1 2
        have helse : OnLines (.loose ":" :: rs) ((indentation 1 ++ ": " ++ f) :: indent 2 fs) :=
          hfailure.loose (by decide) rfl 1 2
        have hall := (htest.indent_tail 2).append (hopen _ _ "?") (hthen.append (hopen _ _ ":") helse)
        exact ⟨_,rfl,by simpa using hall⟩

section Arguments
variable {groups : List (List Piece)} {arguments : List (List String)}

theorem onLines_argumentLines (h : List.Forall₂ Laid groups arguments) (hne : groups ≠ []) :
    OnLines (commas groups) (argumentLines arguments) := by
  induction h with
  | nil => exact absurd rfl hne
  | @cons group lines groups arguments hlines hrest ih =>
    have hwrap : ∀ suffix, wrap "" lines suffix = closeWith suffix lines := by
      intro suffix
      cases hlines <;> simp [wrap]
    cases hrest with
    | nil =>
      rw [argumentLines,hwrap,closeWith_empty]
      exact hlines.onLines.indent 1
    | cons _ _ =>
      have hclosed : OnLines (group ++ [.mark ',']) (closeWith "," lines) :=
        hlines.onLines.closeWith rfl rfl
      have hmark : ∀ qs, CanBreak (group ++ [.mark ',']) qs := fun qs => .inl ⟨',',by simp⟩
      rw [argumentLines,hwrap,commas_cons (by simp)]
      simpa using (hclosed.indent 1).append (hmark _) (ih (by simp))

theorem core_join_arguments (h : List.Forall₂ Laid groups arguments) (hne : groups ≠ [])
    (hone : ∀ lines ∈ arguments, lines.length = 1) :
    Core (commas groups) (join ", " arguments.flatten).toList := by
  induction h with
  | nil => exact absurd rfl hne
  | @cons group lines groups arguments hlines hrest ih =>
    obtain ⟨hfirst,hothers⟩ := List.forall_mem_cons.1 hone
    cases hlines with
    | cons _ _ hlater =>
      cases hlater <;> simp at hfirst
    | @one _ line hline =>
      cases hrest with
      | nil => simpa [commas] using hline
      | @cons next lines' groups' arguments' hlines' hrest' =>
        have hne' : (lines' :: arguments').flatten ≠ [] := by
          cases hlines' <;> simp
        have hmark : Piece.Spelled (.mark ',') ([] ++ ',' :: [' ']) :=
          .mark ',' (by simp) forall_mem_space
        have hcomma : Spell [.mark ','] [',',' '] := hmark.spell
        have hcore := hline.around hcomma (ih (by simp) hothers)
        rw [commas_cons (by simp),List.flatten_cons,List.singleton_append,join_cons _ _ hne']
        simpa using hcore

theorem laid_callLines {callee : String} {ps : List Piece} (hcallee : Core ps callee.toList)
    (h : List.Forall₂ Laid groups arguments) :
    Laid (ps ++ .mark '(' :: (commas groups ++ [.mark ')'])) (callLines callee arguments) := by
  have hopening : Core (ps ++ [.mark '(']) (callee ++ "(").toList := by
    simpa using hcallee.append (core_mark (c := '(') rfl)
  have hclosing : Core [.mark ')'] [')'] := core_mark rfl
  unfold callLines
  split
  · rename_i hone
    apply Laid.one
    by_cases hne : groups = []
    · subst hne
      cases h
      simpa [commas] using hopening.append hclosing
    · have harguments := core_join_arguments h hne (by simpa using hone)
      simpa using hopening.around harguments.spell hclosing
  · rename_i hmore
    have hne : groups ≠ [] := by
      rintro rfl
      cases h
      simp at hmore
    have hlines := onLines_argumentLines h hne
    have hend : OnLines [.mark ')'] [")"] := .one (Core.onLine hclosing)
    have hclosed := hlines.append (.inr ⟨_,rfl,rfl⟩) hend
    have hall := Laid.cons hopening (.inl ⟨'(',by simp⟩) hclosed
    simpa using hall

end Arguments

/-- An expression is printed as its pieces, if all of them are proper. -/
def Lays (place : Place) (n : Node) : Prop :=
  (∀ p ∈ n.pieces, p.Proper) → Laid n.pieces (plain place n)

section Inside
variable {place : Place}

theorem Lays.core_oneLine {n : Node} (h : Lays place n) (hproper : ∀ p ∈ n.pieces, p.Proper) :
    Core n.pieces (oneLine (plain place n)).toList :=
  (h hproper).onLines.core_oneLine

theorem Lays.signed {n : Node} (h : Lays place n) {sign : String}
    (hproper : ∀ p ∈ .tight sign :: n.pieces, p.Proper) :
    Laid (.tight sign :: n.pieces) [sign ++ oneLine (plain place n)] := by
  obtain ⟨hsign,hpieces⟩ := List.forall_mem_cons.1 hproper
  refine .one ?_
  simpa using (core_tight hsign.1).append (h.core_oneLine hpieces)

theorem laid_arguments {ns : List Node} (h : ∀ n ∈ ns, Lays place n)
    (hproper : ∀ group ∈ piecesEach ns, ∀ p ∈ group, p.Proper) :
    List.Forall₂ Laid (piecesEach ns) (plainEach place ns) := by
  induction ns with
  | nil =>
    rw [piecesEach,plainEach]
    exact .nil
  | cons n ns ih =>
    obtain ⟨hn,hns⟩ := List.forall_mem_cons.1 h
    rw [piecesEach] at hproper ⊢
    obtain ⟨hfirst,hrest⟩ := List.forall_mem_cons.1 hproper
    rw [plainEach]
    exact .cons (hn hfirst) (ih hns hrest)

theorem toList_join_empty (texts : List String) :
    (join "" texts).toList = texts.flatMap String.toList := by
  induction texts with
  | nil => rfl
  | cons text rest ih =>
    cases rest with
    | nil => simp
    | cons second rest => simp [join,← ih]

theorem core_steps {ns : List Node} (h : ∀ n ∈ ns, Lays place n)
    (hproper : ∀ p ∈ piecesSteps ns, p.Proper) {ps : List Piece} {cs : List Char}
    (hcore : Core ps cs) : Core (ps ++ piecesSteps ns) (cs ++ ((ns.zip (plainEach place ns)).map
      fun s => plainStep false s.1 s.2).flatMap String.toList) := by
  induction ns generalizing ps cs with
  | nil => simpa [piecesSteps] using hcore
  | cons n ns ih =>
    obtain ⟨hn,hns⟩ := List.forall_mem_cons.1 h
    obtain ⟨gs,hpieces,hstep⟩ : ∃ gs, piecesSteps (n :: ns) = gs ++ piecesSteps ns ∧
        ((∀ p ∈ gs, p.Proper) → Core gs (plainStep false n (plain place n)).toList) := by
      cases n with
      | reference name =>
        refine ⟨[.mark '.',.operand name],by simp [piecesSteps],fun hgs => ?_⟩
        have hname := core_operand (hgs (.operand name) (by simp))
        simpa [plainStep] using (core_mark (c := '.') rfl).append hname
      | _ => exact ⟨_,by rw [piecesSteps]; simp,fun hgs => hn.core_oneLine hgs⟩
    rw [hpieces] at hproper ⊢
    obtain ⟨hfirst,hrest⟩ := List.forall_mem_append.1 hproper
    have hall := ih hns hrest (hcore.append (hstep hfirst))
    simpa [plainEach] using hall

theorem core_path {first : Node} {rest : List Node} (hfirst : Lays place first)
    (hrest : ∀ n ∈ rest, Lays place n) (hproper : ∀ p ∈ piecesPath (first :: rest), p.Proper) :
    Core (piecesPath (first :: rest)) (join "" (plainPath ((first :: rest).zip
      (plainEach place (first :: rest))))).toList := by
  rw [piecesPath] at hproper ⊢
  obtain ⟨hown,hsteps⟩ := List.forall_mem_append.1 hproper
  have hcore : Core first.pieces (plainStep true first (plain place first)).toList := by
    cases first with
    | reference name =>
      rw [Node.pieces] at hown ⊢
      exact core_operand (hown _ (.head _))
    | _ => exact hfirst.core_oneLine hown
  have hall := core_steps hrest hsteps hcore
  rw [toList_join_empty]
  simpa [plainEach,plainPath] using hall

theorem lays_of_children {n : Node} (hkind : n.kind.isExpression ∨ n.kind = .index)
    (hcomplete : n.Complete) (h : ∀ c ∈ n.children, Lays place c) : Lays place n := by
  intro hproper
  cases n with
  | binaryExpression operator left right =>
    have hleft := h left (.head _)
    cases right with
    | none =>
      rw [Node.pieces] at hproper ⊢
      rw [plain]
      exact hleft.signed hproper
    | some right =>
      have hright := h right (.tail _ (.head _))
      rw [Node.pieces] at hproper ⊢
      rw [plain]
      obtain ⟨hpieces,hothers⟩ := List.forall_mem_append.1 hproper
      obtain ⟨-,hpieces'⟩ := List.forall_mem_cons.1 hothers
      refine .one ?_
      simpa using (hleft.core_oneLine hpieces).around (spell_spaced _) (hright.core_oneLine hpieces')
  | unaryExpression operator value =>
    have hvalue := h value (.head _)
    rw [Node.pieces] at hproper ⊢
    rw [plain]
    exact hvalue.signed hproper
  | updateExpression operator value isPostfix =>
    have hvalue := h value (.head _)
    cases isPostfix with
    | true =>
      rw [Node.pieces] at hproper ⊢
      rw [plain]
      obtain ⟨hpieces,hothers⟩ := List.forall_mem_append.1 hproper
      obtain ⟨hsign,-⟩ := List.forall_mem_cons.1 hothers
      refine .one ?_
      simpa using (hvalue.core_oneLine hpieces).append (core_tight hsign.1)
    | false =>
      rw [Node.pieces] at hproper ⊢
      rw [plain]
      exact hvalue.signed hproper
  | conditionalExpression test success failure =>
    obtain ⟨htest,hsuccess,hfailure⟩ := Node.forall_children_conditionalExpression.1 h
    rw [Node.pieces] at hproper ⊢
    rw [plain]
    obtain ⟨hfirst,hothers⟩ := List.forall_mem_append.1 hproper
    obtain ⟨hsecond,hlast⟩ := List.forall_mem_append.1 (List.forall_mem_cons.1 hothers).2
    obtain ⟨lines,hlines,hlaid⟩ := laid_conditionalLines (htest hfirst) (hsuccess hsecond)
      (hfailure (List.forall_mem_cons.1 hlast).2)
    rwa [hlines]
  | assignmentExpression left operator right =>
    rw [Node.pieces] at hproper ⊢
    rw [plain]
    obtain ⟨hpieces,hothers⟩ := List.forall_mem_append.1 hproper
    have hright := h right (.tail _ (.head _)) (List.forall_mem_cons.1 hothers).2
    have hleft := (h left (.head _)).core_oneLine hpieces
    exact Laid.wrap hleft (spell_spaced operator) hright (by simp)
  | callExpression callee arguments =>
    obtain ⟨hcallee,harguments⟩ := Node.forall_children_callExpression.1 h
    rw [Node.pieces] at hproper ⊢
    rw [plain]
    obtain ⟨hpieces,hothers⟩ := List.forall_mem_append.1 hproper
    obtain ⟨hgroups,-⟩ := List.forall_mem_append.1 (List.forall_mem_cons.1 hothers).2
    refine laid_callLines (hcallee hpieces).onLines.core_tight (laid_arguments harguments ?_)
    exact fun group hgroup p hp => hgroups p (mem_commas_of_mem hgroup hp)
  | parenthesizedExpression value | index value =>
    have hvalue := h value (.head _)
    rw [Node.pieces] at hproper ⊢
    rw [plain]
    obtain ⟨hpieces,-⟩ := List.forall_mem_append.1 (List.forall_mem_cons.1 hproper).2
    refine .one ?_
    simpa using (core_mark rfl).around (hvalue.core_oneLine hpieces).spell (core_mark rfl)
  | path steps =>
    rw [Node.children_path] at h
    cases steps with
    | nil => exact absurd rfl hcomplete
    | cons first rest =>
      obtain ⟨hfirst,hrest⟩ := List.forall_mem_cons.1 h
      rw [Node.pieces] at hproper ⊢
      rw [plain]
      exact .one (core_path hfirst hrest hproper)
  | reference text | numberLiteral text | booleanLiteral text | nullLiteral | stringLiteral text
  | userDefinedLiteral text =>
    rw [Node.pieces] at hproper ⊢
    rw [plain]
    exact .one (core_operand (hproper _ (.head _)))
  | _ => simp [Node.kind,Kind.isExpression] at hkind

theorem lays_of_fits {role : Role} {n : Node} (hrole : role.isValue) (hfits : Fits role n) :
    Lays place n := by
  refine induct_value hrole hfits fun role n hrole hfits h => ?_
  obtain ⟨hadmits,hcomplete,-⟩ := fits_iff.1 hfits
  exact lays_of_children (kind_of_isValue hrole hadmits) hcomplete h

end Inside

/-- An expression is printed as its plain lines: what cannot stand in one does not. -/
theorem print_of_fits {n : Node} {role : Role} (hrole : role.isValue) (hfits : Fits role n)
    (place : Place) : print place n = .text (plain place n) := by
  have hok : failureAt place n = none := by
    rcases failureAt_of_sorted n place hfits.2 with ⟨hok,-⟩ | ⟨-,hlabel⟩
    · exact hok
    · exact absurd (hfits.labelled hrole) hlabel
  have hneither : Everywhere (fun n => ¬ n.IsNamespace ∧ ¬ n.IsFunction) [n] := by
    refine (everywhere_value hrole hfits).mono fun m ⟨⟨inner,hinner,hm⟩,_⟩ => ?_
    have hkind := kind_of_isValue hinner hm.1
    cases m with
    | namespaceBlock name body | functionDefinition name ps returnType body =>
      simp [Node.kind,Kind.isExpression] at hkind
    | _ => exact ⟨not_false,not_false⟩
  obtain ⟨hopened,hlines⟩ := plainly_of_neither place hneither
  rw [Printed.text,← hlines hok,← hopened,← show (print place n).failure = none from hok]

theorem lines_of_fits {n : Node} {role : Role} (hrole : role.isValue) (hfits : Fits role n)
    (place : Place) : failureAt place n = none ∧ (print place n).lines = plain place n := by
  rw [failureAt,print_of_fits hrole hfits place]
  exact ⟨rfl,rfl⟩

end Printing
end Scribe
