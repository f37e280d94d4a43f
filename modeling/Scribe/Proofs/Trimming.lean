import Mathlib.Data.List.Basic
import Scribe.Text.Blank

/-! Texts without blanks at their ends. Trimming takes nothing from them, gives one of them or
nothing at all, and one put behind another is one again. -/
namespace Scribe

namespace Text

theorem exists_dropWhile (cs : List Char) :
    ∃ behind, cs.dropWhile isBlank = trimChars cs ++ behind := by
  have hback := List.takeWhile_append_dropWhile (p := isBlank) (l := (cs.dropWhile isBlank).reverse)
  refine ⟨((cs.dropWhile isBlank).reverse.takeWhile isBlank).reverse,?_⟩
  rw [trimChars,← List.reverse_append,hback,List.reverse_reverse]

theorem exists_trimmed (cs : List Char) : ∃ blanks behind, (∀ b ∈ blanks, isBlank b) ∧
    cs = blanks ++ (trimChars cs ++ behind) := by
  obtain ⟨behind,hbehind⟩ := exists_dropWhile cs
  have hfront := List.takeWhile_append_dropWhile (p := isBlank) (l := cs)
  refine ⟨cs.takeWhile isBlank,behind,?_,by rw [← hbehind,hfront]⟩
  exact List.all_eq_true.1 List.all_takeWhile

theorem trimChars_isInfix (cs : List Char) : trimChars cs <:+: cs := by
  obtain ⟨blanks,behind,-,hcs⟩ := exists_trimmed cs
  exact ⟨blanks,behind,by rw [List.append_assoc,← hcs]⟩

end Text

namespace Lexing
open Text

/-- Characters without blanks at the two ends. -/
def Solid (cs : List Char) : Prop :=
  (∃ c ∈ cs.head?, isBlank c = false) ∧ ∃ c ∈ cs.getLast?, isBlank c = false

theorem Solid.ne_nil {cs : List Char} (h : Solid cs) : cs ≠ [] := by
  rintro rfl
  obtain ⟨⟨c,hc,-⟩,-⟩ := h
  cases hc

theorem Solid.append {xs ys : List Char} (hx : Solid xs) (between : List Char) (hy : Solid ys) :
    Solid (xs ++ (between ++ ys)) := by
  constructor
  · rw [List.head?_append_of_ne_nil _ hx.ne_nil]
    exact hx.1
  · rw [← List.append_assoc,List.getLast?_append_of_ne_nil _ hy.ne_nil]
    exact hy.2

theorem solid_of_forall {cs : List Char} (hne : cs ≠ []) (h : ∀ c ∈ cs, isBlank c = false) :
    Solid cs := by
  cases cs with
  | nil => exact absurd rfl hne
  | cons c cs =>
    refine ⟨⟨c,rfl,h c (.head _)⟩,(c :: cs).getLast hne,List.getLast?_eq_some_getLast hne,?_⟩
    exact h _ (List.getLast_mem hne)

theorem dropWhile_isBlank_append {blanks : List Char} (h : ∀ b ∈ blanks, isBlank b) {cs : List Char}
    (hcs : ∃ c ∈ cs.head?, isBlank c = false) : (blanks ++ cs).dropWhile isBlank = cs := by
  induction blanks with
  | nil =>
    cases cs with
    | nil => rfl
    | cons c cs =>
      obtain ⟨d,hd,hblank⟩ := hcs
      obtain rfl : c = d := by simpa using hd
      rw [List.nil_append,List.dropWhile_cons_of_neg (by simp [hblank])]
  | cons b blanks ih =>
    obtain ⟨hb,hblanks⟩ := List.forall_mem_cons.1 h
    rw [List.cons_append,List.dropWhile_cons_of_pos hb,ih hblanks]

theorem trimChars_append {blanks : List Char} (h : ∀ b ∈ blanks, isBlank b) {cs : List Char}
    (hcs : Solid cs) : trimChars (blanks ++ cs) = cs := by
  have hend : cs.reverse.dropWhile isBlank = cs.reverse := by
    have hnone : ∀ b ∈ ([] : List Char), isBlank b := by simp
    exact dropWhile_isBlank_append hnone (by simpa using hcs.2)
  rw [trimChars,dropWhile_isBlank_append h hcs.1,hend,List.reverse_reverse]

theorem trim_of_solid {s : String} (h : Solid s.toList) : trim s = s := by
  have hkept := trimChars_append (List.forall_mem_nil _) h
  rw [List.nil_append] at hkept
  rw [trim,hkept,String.ofList_toList]

theorem Solid.dropWhile_reverse {opening : List Char} (h : Solid opening) (behind : List Char) :
    ∃ kept, ((opening ++ behind).reverse.dropWhile isBlank).reverse = opening ++ kept := by
  have hend : opening.reverse.dropWhile isBlank = opening.reverse := by
    have hnone : ∀ b ∈ ([] : List Char), isBlank b := by simp
    exact dropWhile_isBlank_append hnone (by simpa using h.2)
  rw [List.reverse_append,List.dropWhile_append]
  split
  · exact ⟨[],by simp [hend]⟩
  · exact ⟨(behind.reverse.dropWhile isBlank).reverse,by simp⟩

theorem Solid.trimChars_opening {opening : List Char} (h : Solid opening) {blanks : List Char}
    (hblanks : ∀ b ∈ blanks, isBlank b) (behind : List Char) :
    ∃ kept, trimChars (blanks ++ (opening ++ behind)) = opening ++ kept := by
  have hhead : ∃ c ∈ (opening ++ behind).head?, isBlank c = false := by
    rw [List.head?_append_of_ne_nil _ h.ne_nil]
    exact h.1
  rw [trimChars,dropWhile_isBlank_append hblanks hhead]
  exact h.dropWhile_reverse behind

theorem solid_trimChars {cs : List Char} (h : trimChars cs ≠ []) : Solid (trimChars cs) := by
  have hfirst : ∀ ds : List Char, ∀ c ∈ (ds.dropWhile isBlank).head?, isBlank c = false := by
    intro ds c hc
    have hnot := List.head?_dropWhile_not isBlank ds
    rw [Option.mem_def.1 hc] at hnot
    exact hnot
  constructor
  · obtain ⟨behind,hbehind⟩ := exists_dropWhile cs
    refine ⟨(trimChars cs).head h,List.head?_eq_some_head h,hfirst cs _ ?_⟩
    rw [hbehind,List.head?_append_of_ne_nil _ h]
    exact List.head?_eq_some_head h
  · refine ⟨(trimChars cs).getLast h,List.getLast?_eq_some_getLast h,
      hfirst (cs.dropWhile isBlank).reverse _ ?_⟩
    rw [← List.getLast?_reverse]
    exact List.getLast?_eq_some_getLast h

end Lexing
end Scribe
