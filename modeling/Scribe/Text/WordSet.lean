/-! Sets of words, as lists in increasing order. -/
namespace Scribe
namespace Text

/-- Put a word in its place in an increasing list, unless it is there. -/
def insertWord (word : String) : List String → List String
  | [] => [word]
  | w :: ws =>
    if word < w then word :: w :: ws
    else if word = w then w :: ws
    else w :: insertWord word ws

/-- The words in increasing order, each once. -/
def wordSet (words : List String) : List String := words.foldr insertWord []

theorem mem_insertWord {word w : String} {ws : List String} :
    w ∈ insertWord word ws ↔ w = word ∨ w ∈ ws := by
  fun_induction insertWord word ws with
  | case1 => simp
  | case2 v ws hlt => simp
  | case3 ws hlt => simp
  | case4 v ws hlt hne ih => simp only [List.mem_cons,ih,or_left_comm]

theorem pairwise_insertWord (word : String) {ws : List String} (h : ws.Pairwise (· < ·)) :
    (insertWord word ws).Pairwise (· < ·) := by
  fun_induction insertWord word ws with
  | case1 => simp
  | case2 v ws hlt =>
    refine List.pairwise_cons.2 ⟨?_,h⟩
    intro w hw
    rcases List.mem_cons.1 hw with rfl | hrest
    · exact hlt
    · exact String.lt_trans hlt ((List.pairwise_cons.1 h).1 w hrest)
  | case3 ws hlt => exact h
  | case4 v ws hlt hne ih =>
    obtain ⟨hv,hws⟩ := List.pairwise_cons.1 h
    refine List.pairwise_cons.2 ⟨?_,ih hws⟩
    intro w hw
    rcases mem_insertWord.1 hw with rfl | hrest
    · exact Std.lt_of_le_of_ne (String.not_lt.1 hlt) (Ne.symm hne)
    · exact hv w hrest

@[simp] theorem mem_wordSet {w : String} {words : List String} :
    w ∈ wordSet words ↔ w ∈ words := by
  induction words with
  | nil => simp [wordSet]
  | cons word words ih => rw [wordSet,List.foldr_cons,mem_insertWord,← wordSet,ih,List.mem_cons]

theorem pairwise_wordSet (words : List String) : (wordSet words).Pairwise (· < ·) := by
  induction words with
  | nil => exact .nil
  | cons word words ih => exact pairwise_insertWord word ih

end Text
end Scribe
