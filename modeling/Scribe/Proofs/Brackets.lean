import Scribe.Proofs.Digits
import Scribe.Proofs.VisibleText
import Scribe.TypeName

/-! Brackets in texts. A text is balanced if its brackets are closed in turn, the last one opened
first. Moving lines, joining them and trimming them leaves their brackets as they are. -/
namespace Scribe
namespace Text

def closing? : Char → Option Char
  | '(' => some ')'
  | '[' => some ']'
  | '\x7b' => some '\x7d'
  | _ => none

def isClosing (c : Char) : Bool := c ∈ [')', ']', '\x7d']

def isBracket (c : Char) : Bool := (closing? c).isSome || isClosing c

/-- One character, with the brackets that are waited for, the innermost first. -/
def awaitNext (awaited : List Char) (c : Char) : Option (List Char) :=
  match closing? c with
  | some d => some (d :: awaited)
  | none =>
    if isClosing c then
      match awaited with
      | [] => none
      | d :: rest => if d = c then some rest else none
    else some awaited

/-- The brackets that are waited for behind some characters, unless one comes out of turn. -/
def awaitedAfter (awaited cs : List Char) : Option (List Char) := cs.foldlM awaitNext awaited

/-- Brackets come in turn, and in the end none is waited for. -/
def Balanced (s : String) : Prop := awaitedAfter [] s.toList = some []

instance (s : String) : Decidable (Balanced s) :=
  inferInstanceAs (Decidable (awaitedAfter [] s.toList = some []))

/-- The text has none of the six brackets. -/
def Unbracketed (s : String) : Prop := ∀ c ∈ s.toList, isBracket c = false

instance (s : String) : Decidable (Unbracketed s) :=
  List.decidableBAll _ s.toList

theorem awaitedAfter_append (awaited xs ys : List Char) :
    awaitedAfter awaited (xs ++ ys) =
      (awaitedAfter awaited xs).bind fun between => awaitedAfter between ys :=
  List.foldlM_append

theorem awaitedAfter_filter (awaited cs : List Char) :
    awaitedAfter awaited (cs.filter isBracket) = awaitedAfter awaited cs := by
  induction cs generalizing awaited with
  | nil => rfl
  | cons c cs ih =>
    have hcons : ∀ w ds, awaitedAfter w (c :: ds) = (awaitNext w c).bind (awaitedAfter · ds) :=
      fun _ _ => List.foldlM_cons
    rw [hcons]
    cases hc : isBracket c with
    | true =>
      rw [List.filter_cons_of_pos hc,hcons]
      exact congrArg _ (funext ih)
    | false =>
      obtain ⟨hopening,hclosing⟩ : closing? c = none ∧ isClosing c = false := by
        simpa [isBracket] using hc
      rw [List.filter_cons_of_neg (by simp [hc]),ih]
      simp [awaitNext,hopening,hclosing]

/-- Wherever the word stands, the same brackets are waited for behind it as in front. -/
def Nested (word : List Char) : Prop := ∀ awaited, awaitedAfter awaited word = some awaited

theorem nested_nil : Nested [] := fun _ => rfl

theorem Nested.append {xs ys : List Char} (hx : Nested xs) (hy : Nested ys) :
    Nested (xs ++ ys) := by
  intro awaited
  rw [awaitedAfter_append,hx awaited]
  exact hy awaited

theorem Nested.enclose {xs : List Char} (h : Nested xs) {c d : Char} (hc : closing? c = some d) :
    Nested (c :: (xs ++ [d])) := by
  have hd : closing? d = none ∧ isClosing d := by
    unfold closing? at hc
    split at hc <;> cases hc <;> decide
  intro awaited
  have hopen : awaitedAfter awaited [c] = some (d :: awaited) := by
    simp [awaitedAfter,awaitNext,hc]
  have hclose : awaitedAfter (d :: awaited) [d] = some awaited := by
    simp [awaitedAfter,awaitNext,hd]
  rw [← List.singleton_append,awaitedAfter_append,hopen,Option.bind_some,awaitedAfter_append,
    h (d :: awaited)]
  exact hclose

theorem Nested.flatMap {α : Type} {f : α → List Char} {as : List α} (h : ∀ a ∈ as, Nested (f a)) :
    Nested (as.flatMap f) := by
  induction as with
  | nil => exact nested_nil
  | cons a as ih =>
    obtain ⟨ha,has⟩ := List.forall_mem_cons.1 h
    exact ha.append (ih has)

def brackets (s : String) : List Char := s.toList.filter isBracket

def bracketsOf (lines : List String) : List Char := lines.flatMap brackets

theorem brackets_eq_nil {s : String} : brackets s = [] ↔ Unbracketed s := by
  simp [brackets,Unbracketed]

theorem balanced_of_nested {s : String} (h : Nested (brackets s)) : Balanced s := by
  rw [Balanced,← awaitedAfter_filter]
  exact h []

@[simp] theorem brackets_append (s t : String) : brackets (s ++ t) = brackets s ++ brackets t := by
  simp [brackets]

@[simp] theorem brackets_empty : brackets "" = [] := rfl

@[simp] theorem bracketsOf_nil : bracketsOf [] = [] := rfl

@[simp] theorem bracketsOf_cons (line : String) (lines : List String) :
    bracketsOf (line :: lines) = brackets line ++ bracketsOf lines :=
  List.flatMap_cons

@[simp] theorem bracketsOf_append (xs ys : List String) :
    bracketsOf (xs ++ ys) = bracketsOf xs ++ bracketsOf ys :=
  List.flatMap_append

@[simp] theorem bracketsOf_flatten (groups : List (List String)) :
    bracketsOf groups.flatten = groups.flatMap bracketsOf := by
  induction groups with
  | nil => rfl
  | cons group rest ih => rw [List.flatten_cons,bracketsOf_append,ih,List.flatMap_cons]

theorem not_isBracket_of_isBlank {c : Char} (h : isBlank c) : isBracket c = false := by
  have hne : ∀ d : Char, isBlank d = false → c ≠ d := by
    rintro d hd rfl
    rw [hd] at h
    cases h
  have hopening : closing? c = none := by
    unfold closing?
    split
    · exact absurd rfl (hne '(' rfl)
    · exact absurd rfl (hne '[' rfl)
    · exact absurd rfl (hne '\x7b' rfl)
    · rfl
  have hclosing : isClosing c = false := by
    simp [isClosing,hne ')' rfl,hne ']' rfl,hne '\x7d' rfl]
  simp [isBracket,hopening,hclosing]

/-- Brackets are visible, so the layout of lines does not matter to them. -/
theorem brackets_eq_visible (s : String) : brackets s = (visible s).filter isBracket := by
  have hboth : ∀ c, (isBracket c && !isBlank c) = isBracket c := by
    intro c
    by_cases hc : isBlank c
    · simp [not_isBracket_of_isBlank hc]
    · simp [hc]
  simp only [brackets,visible,List.filter_filter,hboth]

theorem bracketsOf_eq_visible (lines : List String) :
    bracketsOf lines = (visibleOf lines).filter isBracket := by
  induction lines with
  | nil => rfl
  | cons line rest ih => simp [ih,brackets_eq_visible]

@[simp] theorem brackets_indentation (levels : Nat) : brackets (indentation levels) = [] := by
  rw [brackets_eq_visible,visible_indentation,List.filter_nil]

@[simp] theorem bracketsOf_indent (levels : Nat) (lines : List String) :
    bracketsOf (indent levels lines) = bracketsOf lines := by
  simp only [bracketsOf_eq_visible,visibleOf_indent]

@[simp] theorem bracketsOf_wrap (opening : String) (lines : List String) (suffix : String) :
    bracketsOf (wrap opening lines suffix) =
      brackets opening ++ bracketsOf lines ++ brackets suffix := by
  simp only [bracketsOf_eq_visible,brackets_eq_visible,visibleOf_wrap,List.filter_append]

@[simp] theorem brackets_oneLine (lines : List String) :
    brackets (oneLine lines) = bracketsOf lines := by
  rw [brackets_eq_visible,visible_oneLine,bracketsOf_eq_visible]

@[simp] theorem brackets_tight (lines : List String) :
    brackets (tight lines) = bracketsOf lines := by
  rw [brackets_eq_visible,visible_tight,bracketsOf_eq_visible]

theorem brackets_join {separator : String} (h : brackets separator = []) (texts : List String) :
    brackets (join separator texts) = bracketsOf texts := by
  induction texts with
  | nil => rfl
  | cons s rest ih =>
    cases rest with
    | nil => simp
    | cons t rest => rw [join,brackets_append,brackets_append,h,ih,bracketsOf_cons s,
        List.append_nil]

theorem mem_of_mem_dropLetters {letters cs : List Char} {c : Char}
    (h : c ∈ dropLetters letters cs) : c ∈ cs := by
  have hsub : ∀ {rest : List Char}, c ∈ (rest.dropWhile (· ∈ letters)).reverse → c ∈ rest :=
    fun hc => (List.dropWhile_sublist _).subset (List.mem_reverse.1 hc)
  unfold dropLetters at h
  split at h
  · rename_i rest hcs
    have hsplit : cs = rest.reverse ++ ['\n'] := by
      rw [← List.reverse_reverse cs,hcs,List.reverse_cons]
    rcases List.mem_append.1 h with hc | hc
    · simp [hsplit,hsub hc]
    · simp [hsplit,List.mem_singleton.1 hc]
  · exact List.mem_reverse.1 (hsub h)

theorem mem_of_mem_respell {cs : List Char} {c : Char} (h : c ∈ cs.map respell) :
    c ∈ cs ∨ c = '_' := by
  obtain ⟨d,hd,rfl⟩ := List.mem_map.1 h
  unfold respell
  split
  · exact .inr rfl
  · exact .inl hd

theorem mem_of_octalDigits? {cs ds : List Char} (h : octalDigits? cs = some ds) {c : Char}
    (hc : c ∈ ds) : c ∈ cs := by
  have hdigits : ∀ {d rest}, octalDigits?.digits d rest = some ds → c ∈ d :: rest := by
    intro d rest hds
    rw [octalDigits?.digits,Option.ite_none_right_eq_some] at hds
    exact Option.some.inj hds.2 ▸ hc
  unfold octalDigits? at h
  split at h
  · exact .tail _ (.tail _ (hdigits h))
  · exact .tail _ (hdigits h)
  · cases h

theorem mem_of_mem_withOctalBase {cs : List Char} {c : Char} (h : c ∈ withOctalBase cs) :
    c ∈ cs ∨ c ∈ ['0','o'] := by
  unfold withOctalBase at h
  split at h
  · rename_i ds hdigits
    rcases (List.mem_append (s := ['0','o'])).1 h with hc | hc
    · exact .inr hc
    · exact .inl (mem_of_octalDigits? hdigits hc)
  · exact .inl h

theorem mem_of_mem_withLeadingZero {cs : List Char} {c : Char} (h : c ∈ withLeadingZero cs) :
    c ∈ cs ∨ c = '0' := by
  unfold withLeadingZero at h
  split at h
  · exact (List.mem_cons.1 h).symm
  · exact .inl h

theorem mem_of_mem_numeralChars {cs : List Char} {c : Char} (h : c ∈ numeralChars cs) :
    c ∈ cs ∨ c ∈ ['_','0','o'] := by
  have hdropped : ∀ letters, c ∈ dropLetters letters (cs.map respell) →
      c ∈ cs ∨ c ∈ ['_','0','o'] := by
    intro letters hc
    exact (mem_of_mem_respell (mem_of_mem_dropLetters hc)).imp_right fun hc => by simp [hc]
  rw [numeralChars_eq] at h
  rcases mem_of_mem_withLeadingZero h with h | rfl
  · split at h
    · exact hdropped _ h
    · rcases mem_of_mem_withOctalBase h with h | h
      · exact hdropped _ h
      · exact .inr (.tail _ h)
  · simp

theorem Unbracketed.numeral {s : String} (h : Unbracketed s) : Unbracketed (numeral s) := by
  intro c hc
  rw [Text.numeral,String.toList_ofList] at hc
  rcases mem_of_mem_numeralChars hc with hmem | hmem
  · exact h c hmem
  · have hnone : Unbracketed "_0o" := by decide
    exact hnone c hmem

theorem mem_of_mem_consPart {c d : Char} {parts : List (List Char)} {part : List Char}
    (hpart : part ∈ consPart c parts) (hd : d ∈ part) : d = c ∨ ∃ p ∈ parts, d ∈ p := by
  cases parts with
  | nil =>
    obtain rfl := List.mem_singleton.1 hpart
    exact .inl (List.mem_singleton.1 hd)
  | cons first rest =>
    rcases List.mem_cons.1 hpart with rfl | hrest
    · rcases List.mem_cons.1 hd with rfl | hfirst
      · exact .inl rfl
      · exact .inr ⟨first,.head _,hfirst⟩
    · exact .inr ⟨part,.tail _ hrest,hd⟩

theorem mem_of_mem_scopeParts {cs part : List Char} {c : Char} (hpart : part ∈ scopeParts cs)
    (hc : c ∈ part) : c ∈ cs := by
  induction cs using scopeParts.induct generalizing part with
  | case1 =>
    obtain rfl := List.mem_singleton.1 hpart
    exact hc
  | case2 cs ih =>
    rw [scopeParts] at hpart
    rcases List.mem_cons.1 hpart with rfl | hrest
    · cases hc
    · exact .tail _ (.tail _ (ih hrest hc))
  | case3 d cs hne ih =>
    rw [scopeParts] at hpart
    · rcases mem_of_mem_consPart hpart hc with rfl | ⟨p,hp,hcp⟩
      · exact .head _
      · exact .tail _ (ih hp hcp)
    · exact hne

theorem Unbracketed.dotScopes {s : String} (h : Unbracketed s) : Unbracketed (dotScopes s) := by
  rw [← brackets_eq_nil,Text.dotScopes,brackets_join rfl,bracketsOf,List.flatMap_eq_nil_iff]
  intro text htext
  obtain ⟨part,hpart,rfl⟩ := List.mem_map.1 htext
  rw [brackets_eq_nil]
  intro c hc
  rw [String.toList_ofList] at hc
  exact h c (mem_of_mem_scopeParts hpart hc)

theorem unbracketed_of_lookup {table : List (String × String)} {key target : String}
    (htable : ∀ entry ∈ table, Unbracketed entry.2) (h : table.lookup key = some target) :
    Unbracketed target := by
  obtain ⟨before,after,rfl,-⟩ := List.lookup_eq_some_iff.1 h
  exact htable (key,target) (by simp)

end Text

namespace TypeName
open Text

theorem unbracketed_counterpart {name type : String} (h : Unbracketed name)
    (htype : counterpart name = some type) : Unbracketed type := by
  unfold counterpart at htype
  split at htype
  · cases htype
  · split at htype
    · rename_i target htarget
      split at htype
      · cases htype
      · obtain rfl := Option.some.inj htype
        exact unbracketed_of_lookup (by decide) htarget
    · dsimp only at htype
      split at htype
      · obtain rfl := Option.some.inj htype
        decide
      · obtain rfl := Option.some.inj htype
        exact h.dotScopes

theorem brackets_annotate (text : String) {type : Option String}
    (htype : ∀ t ∈ type, Unbracketed t) : brackets (annotate text type) = brackets text := by
  unfold annotate
  split
  · rename_i target htarget
    obtain ⟨t,ht,hcounterpart⟩ := Option.bind_eq_some_iff.1 htarget
    have htarget := brackets_eq_nil.2 (unbracketed_counterpart (htype t ht) hcounterpart)
    rw [brackets_append,brackets_append,htarget,show brackets ": " = [] from rfl,List.append_nil,
      List.append_nil]
  · rfl

end TypeName
end Scribe
