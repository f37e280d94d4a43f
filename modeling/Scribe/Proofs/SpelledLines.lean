import Scribe.Proofs.OperatorLexing
import Scribe.Proofs.Trimming
import Scribe.Text.Lines

/-! Lines that spell pieces. They break only at marks and in front of loose signs, so that the
pieces stay the same whether the lines are indented, put on one line or joined by line breaks. -/
namespace Scribe
namespace Lexing
open Text

theorem solid_of_mem_signs {sign : List Char} (h : sign ∈ signs) : Solid sign :=
  solid_of_forall (ne_nil_of_mem_signs h) fun _ hc => (of_mem_sign h hc).2

theorem Spell.append {ps qs : List Piece} {xs ys : List Char} (hp : Spell ps xs) (hq : Spell qs ys) :
    Spell (ps ++ qs) (xs ++ ys) := by
  induction hp with
  | nil => exact hq
  | cons hpiece _ ih =>
    rw [List.cons_append,List.append_assoc]
    exact .cons hpiece ih

theorem Piece.Spelled.spell {p : Piece} {word : List Char} (h : p.Spelled word) : Spell [p] word := by
  simpa using Spell.cons h .nil

/-- Pieces that take in blanks in front of them. -/
def Piece.isOpen : Piece → Bool
  | .mark _ | .loose _ => true
  | _ => false

theorem Piece.Spelled.blanks {p : Piece} (hp : p.isOpen) {blanks word : List Char}
    (h : ∀ b ∈ blanks, isBlank b) (hword : p.Spelled word) : p.Spelled (blanks ++ word) := by
  cases hword with
  | mark c hbefore hbehind =>
    rw [← List.append_assoc]
    exact .mark c (List.forall_mem_append.2 ⟨h,hbefore⟩) hbehind
  | loose sign hbefore =>
    rw [← List.append_assoc]
    exact .loose sign (List.forall_mem_append.2 ⟨h,hbefore⟩)
  | _ => cases hp

/-- A line may break between pieces if one of them takes in the blanks. -/
def CanBreak (ps qs : List Piece) : Prop :=
  (∃ c, .mark c ∈ ps.getLast?) ∨ ∃ q ∈ qs.head?, q.isOpen

theorem Spell.break {ps qs : List Piece} {xs ys : List Char} (hp : Spell ps xs) (hq : Spell qs ys)
    (hbreak : CanBreak ps qs) {blanks : List Char} (h : ∀ b ∈ blanks, isBlank b) :
    Spell (ps ++ qs) (xs ++ (blanks ++ ys)) := by
  rcases hbreak with ⟨c,hc⟩ | ⟨q,hhead,hopen⟩
  · have hbehind : Spell ps (xs ++ blanks) := by
      induction hp with
      | nil => cases hc
      | @cons p rest word cs hpiece hrest ih =>
        cases hrest with
        | nil =>
          obtain rfl : p = .mark c := by simpa using hc
          cases hpiece with
          | mark c hbefore hafter =>
            have hmark := Piece.Spelled.mark c hbefore (List.forall_mem_append.2 ⟨hafter,h⟩)
            simpa using hmark.spell
        | cons _ _ =>
          rw [List.append_assoc]
          exact .cons hpiece (ih (by simpa using hc))
    rw [← List.append_assoc]
    exact hbehind.append hq
  · cases hq with
    | nil => cases hhead
    | @cons p rest word cs hpiece hrest =>
      obtain rfl : p = q := by simpa using hhead
      rw [← List.append_assoc blanks]
      exact hp.append (.cons (hpiece.blanks hopen h) hrest)

/-- Pieces spelled without blanks at the two ends. -/
structure Core (ps : List Piece) (cs : List Char) : Prop where
  spell : Spell ps cs
  solid : Solid cs

theorem Core.ne_nil {ps : List Piece} {cs : List Char} (h : Core ps cs) : ps ≠ [] := by
  rintro rfl
  have hcs := h.solid.ne_nil
  cases h.spell
  exact hcs rfl

theorem Core.break {ps qs : List Piece} {xs ys : List Char} (hp : Core ps xs) (hq : Core qs ys)
    (hbreak : CanBreak ps qs) {blanks : List Char} (h : ∀ b ∈ blanks, isBlank b) :
    Core (ps ++ qs) (xs ++ (blanks ++ ys)) :=
  ⟨hp.spell.break hq.spell hbreak h,hp.solid.append blanks hq.solid⟩

/-- Pieces on one line, which may be indented. -/
def OnLine (ps : List Piece) (line : String) : Prop :=
  ∃ blanks cs, (∀ b ∈ blanks, isBlank b) ∧ Core ps cs ∧ line.toList = blanks ++ cs

/-- Pieces on lines that break only where they can. -/
inductive OnLines : List Piece → List String → Prop
  | one {ps line} : OnLine ps line → OnLines ps [line]
  | cons {ps qs line rest} : OnLine ps line → CanBreak ps qs → OnLines qs rest →
    OnLines (ps ++ qs) (line :: rest)

/-- The same with the first line not indented. -/
inductive Laid : List Piece → List String → Prop
  | one {ps} {line : String} : Core ps line.toList → Laid ps [line]
  | cons {ps qs rest} {line : String} : Core ps line.toList → CanBreak ps qs → OnLines qs rest →
    Laid (ps ++ qs) (line :: rest)

/-- Texts that follow each other with blanks between them. -/
inductive Joined : List (List Char) → List Char → Prop
  | one (cs) : Joined [cs] cs
  | cons {cs rest word blanks} : (∀ b ∈ blanks, isBlank b) → Joined rest word →
    Joined (cs :: rest) (cs ++ (blanks ++ word))

theorem OnLine.trimmed {ps : List Piece} {line : String} (h : OnLine ps line) :
    Core ps (trimChars line.toList) := by
  obtain ⟨blanks,cs,hblanks,hcore,hline⟩ := h
  rwa [hline,trimChars_append hblanks hcore.solid]

/-- However lines are joined without the blanks at their ends, the pieces stay the same. -/
theorem OnLines.core {ps : List Piece} {lines : List String} (h : OnLines ps lines)
    {word : List Char} (hword : Joined (lines.map fun line => trimChars line.toList) word) :
    Core ps word := by
  induction h generalizing word with
  | one hline =>
    cases hword with
    | one => exact hline.trimmed
    | cons _ hrest => cases hrest
  | cons hline hbreak hlines ih =>
    cases hlines with
    | one _ | cons _ _ _ =>
      cases hword with
      | cons hblanks hrest => exact hline.trimmed.break (ih hrest) hbreak hblanks

theorem Joined.assoc {first second blanks word : List Char} {rest : List (List Char)}
    (hblanks : ∀ b ∈ blanks, isBlank b) (h : Joined ((first ++ (blanks ++ second)) :: rest) word) :
    Joined (first :: second :: rest) word := by
  cases h with
  | one => exact .cons hblanks (.one second)
  | @cons _ _ tail more hmore hrest =>
    have hsecond : Joined (second :: rest) (second ++ (more ++ tail)) := .cons hmore hrest
    have hfirst : Joined (first :: second :: rest) (first ++ (blanks ++ (second ++ (more ++ tail)))) :=
      .cons hblanks hsecond
    simpa using hfirst

theorem joined_foldl_glue (text : String) (lines : List String) (htext : text ≠ "") :
    Joined (text.toList :: lines.map fun line => trimChars line.toList)
      ((lines.map trim).foldl glue text).toList := by
  induction lines generalizing text with
  | nil => exact .one _
  | cons line lines ih =>
    obtain ⟨blanks,hblanks,hglue⟩ : ∃ blanks : List Char, (∀ b ∈ blanks, isBlank b) ∧
        (glue text (trim line)).toList = text.toList ++ (blanks ++ trimChars line.toList) := by
      unfold glue
      split
      · exact ⟨[],by simp,by simp [trim]⟩
      · exact ⟨[' '],forall_mem_space,by simp [trim]⟩
    have hne : glue text (trim line) ≠ "" := by
      intro hempty
      rw [hempty] at hglue
      exact htext (by simpa using (List.append_eq_nil_iff.1 hglue.symm).1)
    have hrest := ih (glue text (trim line)) hne
    rw [hglue] at hrest
    exact hrest.assoc hblanks

section Joining
variable {ps : List Piece} {lines : List String}

theorem OnLines.core_oneLine (h : OnLines ps lines) : Core ps (oneLine lines).toList := by
  apply h.core
  cases lines with
  | nil => cases h
  | cons line rest =>
    have hline : trim line ≠ "" := by
      intro hempty
      have hcs : trimChars line.toList = [] := by simpa [trim] using hempty
      cases h with
      | one hline | cons hline _ _ => exact hline.trimmed.solid.ne_nil hcs
    have hjoined := joined_foldl_glue (trim line) rest hline
    have hglue : glue "" (trim line) = trim line := by simp [glue]
    have honeLine : oneLine (line :: rest) = (rest.map trim).foldl glue (trim line) := by
      rw [oneLine,List.map_cons,List.foldl_cons,hglue]
    rw [honeLine]
    simpa [trim] using hjoined

theorem OnLines.core_tight (h : OnLines ps lines) : Core ps (tight lines).toList := by
  apply h.core
  have hne : lines ≠ [] := by
    rintro rfl
    cases h
  clear h
  induction lines with
  | nil => exact absurd rfl hne
  | cons line rest ih =>
    cases rest with
    | nil => simpa [tight,trim] using Joined.one (trimChars line.toList)
    | cons second rest =>
      have hrest := ih (by simp)
      have hnone : ∀ b ∈ ([] : List Char), isBlank b := by simp
      have hjoined : Joined (trimChars line.toList :: (second :: rest).map fun line =>
          trimChars line.toList) (trimChars line.toList ++ ([] ++ (tight (second :: rest)).toList)) :=
        .cons hnone hrest
      simpa [tight,trim,join] using hjoined

end Joining

section Laying
variable {ps qs gs : List Piece} {lines more : List String}

theorem Core.onLine {line : String} (h : Core ps line.toList) : OnLine ps line :=
  ⟨[],line.toList,by simp,h,rfl⟩

theorem Laid.onLines (h : Laid ps lines) : OnLines ps lines := by
  cases h with
  | one hline => exact .one hline.onLine
  | cons hline hbreak hrest => exact .cons hline.onLine hbreak hrest

theorem OnLines.ne_nil (h : OnLines ps lines) : ps ≠ [] := by
  cases h with
  | one hline => exact hline.trimmed.ne_nil
  | cons hline _ _ => simp [hline.trimmed.ne_nil]

theorem Core.append {xs ys : List Char} (hp : Core ps xs) (hq : Core qs ys) :
    Core (ps ++ qs) (xs ++ ys) :=
  ⟨hp.spell.append hq.spell,hp.solid.append [] hq.solid⟩

theorem Core.around {xs between ys : List Char} (hp : Core ps xs) (hg : Spell gs between)
    (hq : Core qs ys) : Core (ps ++ (gs ++ qs)) (xs ++ (between ++ ys)) :=
  ⟨hp.spell.append (hg.append hq.spell),hp.solid.append between hq.solid⟩

theorem core_operand {text : String} (h : (operandEnd? text).isSome) :
    Core [.operand text] text.toList := by
  obtain ⟨mode,hmode⟩ := Option.isSome_iff_exists.1 h
  rw [operandEnd?] at hmode
  split at hmode
  · cases hmode
  · obtain ⟨hquiet,hclosed⟩ := Option.filter_eq_some_iff.1 hmode
    refine ⟨(Piece.Spelled.operand text).spell,?_,?_⟩
    · cases htext : text.toList with
      | nil => simp_all
      | cons c rest =>
        rw [htext] at hquiet
        exact ⟨c,rfl,(head_of_quietly hquiet).2⟩
    · cases htext : text.toList using List.reverseRecOn with
      | nil => simp_all
      | append_singleton rest c _ =>
        rw [htext] at hquiet
        exact ⟨c,by simp,getLast_of_quietly hquiet hclosed⟩

theorem spell_spaced (sign : String) : Spell [.spaced sign] (' ' :: (sign.toList ++ [' '])) :=
  (Piece.Spelled.spaced sign).spell

theorem core_mark {c : Char} (hc : isBlank c = false) : Core [.mark c] [c] := by
  have hnone : ∀ b ∈ ([] : List Char), isBlank b := by simp
  exact ⟨(Piece.Spelled.mark c hnone hnone).spell,solid_of_forall (by simp) (by simpa using hc)⟩

theorem core_tight {sign : String} (h : sign.toList ∈ signs) : Core [.tight sign] sign.toList :=
  ⟨(Piece.Spelled.tight sign).spell,solid_of_mem_signs h⟩

theorem OnLines.join (h : OnLines ps lines) : OnLine ps (join "\n" lines) := by
  induction h with
  | one hline => exact hline
  | @cons ps qs line rest hline hbreak hrest ih =>
    obtain ⟨blanks,cs,hblanks,hcore,hfirst⟩ := hline
    obtain ⟨blanks',cs',hblanks',hcore',hother⟩ := ih
    have hne : rest ≠ [] := by
      rintro rfl
      cases hrest
    refine ⟨blanks,cs ++ ('\n' :: blanks' ++ cs'),hblanks,hcore.break hcore' hbreak ?_,?_⟩
    · exact List.forall_mem_cons.2 ⟨by decide,hblanks'⟩
    · rw [join_cons _ _ hne]
      simp [hfirst,hother]

theorem Laid.core_join (h : Laid ps lines) : Core ps (join "\n" lines).toList := by
  cases h with
  | one hline => exact hline
  | @cons ps qs rest line hline hbreak hrest =>
    obtain ⟨blanks,cs,hblanks,hcore,hother⟩ := hrest.join
    have hne : rest ≠ [] := by
      rintro rfl
      cases hrest
    have hjoined : (Text.join "\n" (line :: rest)).toList =
        line.toList ++ ('\n' :: blanks ++ cs) := by
      rw [join_cons _ _ hne]
      simp [hother]
    rw [hjoined]
    exact hline.break hcore hbreak (List.forall_mem_cons.2 ⟨by decide,hblanks⟩)

theorem CanBreak.append_right (h : CanBreak ps qs) (hne : qs ≠ []) (gs : List Piece) :
    CanBreak ps (qs ++ gs) := by
  refine h.imp_right fun ⟨q,hq,hopen⟩ => ⟨q,?_,hopen⟩
  rwa [List.head?_append_of_ne_nil _ hne]

theorem CanBreak.append_left (h : CanBreak ps qs) (hne : ps ≠ []) (gs : List Piece) :
    CanBreak (gs ++ ps) qs := by
  refine h.imp_left fun ⟨c,hc⟩ => ⟨c,?_⟩
  rwa [List.getLast?_append_of_ne_nil _ hne]

theorem OnLines.append (hp : OnLines ps lines) (hbreak : CanBreak ps qs) (hq : OnLines qs more) :
    OnLines (ps ++ qs) (lines ++ more) := by
  induction hp with
  | one hline => exact .cons hline hbreak hq
  | @cons ps rest line lines hline hfirst hrest ih =>
    have hlast : CanBreak rest qs := by
      refine hbreak.imp_left fun ⟨c,hc⟩ => ⟨c,?_⟩
      rwa [List.getLast?_append_of_ne_nil _ hrest.ne_nil] at hc
    rw [List.append_assoc]
    exact .cons hline (hfirst.append_right hrest.ne_nil qs) (ih hlast)

theorem Laid.append (hp : Laid ps lines) (hbreak : CanBreak ps qs) (hq : OnLines qs more) :
    Laid (ps ++ qs) (lines ++ more) := by
  cases hp with
  | one hline => exact .cons hline hbreak hq
  | @cons ps rest lines line hline hfirst hrest =>
    have hlast : CanBreak rest qs := by
      refine hbreak.imp_left fun ⟨c,hc⟩ => ⟨c,?_⟩
      rwa [List.getLast?_append_of_ne_nil _ hrest.ne_nil] at hc
    rw [List.append_assoc]
    exact .cons hline (hfirst.append_right hrest.ne_nil qs) (hrest.append hlast hq)

theorem isBlank_of_mem_indentation {levels : Nat} {b : Char} (h : b ∈ (indentation levels).toList) :
    isBlank b := by
  rw [indentation,String.toList_ofList] at h
  rw [List.eq_of_mem_replicate h]
  rfl

theorem OnLine.indent {line : String} (h : OnLine ps line) (levels : Nat) :
    OnLine ps (indentation levels ++ line) := by
  obtain ⟨blanks,cs,hblanks,hcore,hline⟩ := h
  refine ⟨(indentation levels).toList ++ blanks,cs,?_,hcore,by simp [hline]⟩
  exact List.forall_mem_append.2 ⟨fun b hb => isBlank_of_mem_indentation hb,hblanks⟩

theorem OnLines.indent (h : OnLines ps lines) (levels : Nat) :
    OnLines ps (indent levels lines) := by
  induction h with
  | one hline => exact .one (hline.indent levels)
  | cons hline hbreak _ ih => exact .cons (hline.indent levels) hbreak ih

theorem Laid.indent_tail {line : String} (h : Laid ps (line :: lines)) (levels : Nat) :
    Laid ps (line :: Text.indent levels lines) := by
  cases h with
  | one hline => exact .one hline
  | cons hline hbreak hrest => exact .cons hline hbreak (hrest.indent levels)

theorem OnLines.closeWith (h : OnLines ps lines) {c : Char} (hc : isBlank c = false) {suffix : String}
    (hsuffix : suffix.toList = [c]) : OnLines (ps ++ [.mark c]) (closeWith suffix lines) := by
  induction h with
  | one hline =>
    obtain ⟨blanks,cs,hblanks,hcore,hfirst⟩ := hline
    exact .one ⟨blanks,cs ++ [c],hblanks,hcore.append (core_mark hc),by simp [hfirst,hsuffix]⟩
  | cons hline hbreak hrest ih =>
    have hlater := hbreak.append_right hrest.ne_nil [.mark c]
    rw [List.append_assoc]
    cases hrest with
    | one _ | cons _ _ _ => exact .cons hline hlater ih

theorem Laid.wrap {xs between : List Char} (hx : Core gs xs) (hbetween : Spell qs between)
    (h : Laid ps lines) {opening : String} (hopening : opening.toList = xs ++ between) :
    Laid (gs ++ (qs ++ ps)) (wrap opening lines "") := by
  have hfirst : ∀ {ps : List Piece} {line : String}, Core ps line.toList →
      Core (gs ++ (qs ++ ps)) (opening ++ line).toList := by
    intro ps line hline
    rw [String.toList_append,hopening,List.append_assoc]
    exact hx.around hbetween hline
  cases h with
  | one hline => exact .one (by simpa [Text.closeWith] using hfirst hline)
  | @cons ps rest lines line hline hbreak hrest =>
    have hlater : CanBreak (gs ++ (qs ++ ps)) rest := by
      rw [← List.append_assoc]
      exact hbreak.append_left hline.ne_nil (gs ++ qs)
    have hlaid := Laid.cons (hfirst hline) hlater hrest
    rw [Text.wrap,closeWith_empty]
    simpa using hlaid

theorem Laid.loose {line : String} (h : Laid ps (line :: lines)) {sign text : String}
    (hsign : sign.toList ∈ signs) (htext : text.toList = sign.toList ++ [' ']) (levels more : Nat) :
    OnLines (.loose sign :: ps)
      ((indentation levels ++ text ++ line) :: Text.indent more lines) := by
  have hnone : ∀ b ∈ ([] : List Char), isBlank b := by simp
  have hfirst : ∀ {ps : List Piece}, Core ps line.toList →
      OnLine (.loose sign :: ps) (indentation levels ++ text ++ line) := by
    intro ps hline
    have hspell := Spell.cons (Piece.Spelled.loose sign hnone) hline.spell
    refine ⟨(indentation levels).toList,text.toList ++ line.toList,
      fun b hb => isBlank_of_mem_indentation hb,⟨?_,?_⟩,by simp⟩
    · simpa [htext] using hspell
    · rw [htext,List.append_assoc]
      exact (solid_of_mem_signs hsign).append [' '] hline.solid
  cases h with
  | one hline => exact .one (hfirst hline)
  | cons hline hbreak hrest =>
    rw [← List.cons_append]
    exact .cons (hfirst hline) (hbreak.append_left hline.ne_nil [_]) (hrest.indent more)

end Laying

end Lexing
end Scribe
