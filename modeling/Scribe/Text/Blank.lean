/-! Blank characters, and trimming and cutting texts at them. Texts are worked on as
lists of characters; the versions on `String` only convert. -/
namespace Scribe
namespace Text

/-- The characters that separate words: the ASCII blanks, the four information
separators, and the blanks of Unicode that are not zero-width. -/
def isBlank (c : Char) : Bool :=
  let n := c.toNat
  (9 ≤ n && n ≤ 13) || (28 ≤ n && n ≤ 32) || n == 0x85 || n == 0xA0 || n == 0x1680 ||
    (0x2000 ≤ n && n ≤ 0x200A) || n == 0x2028 || n == 0x2029 || n == 0x202F ||
    n == 0x205F || n == 0x3000

def trimChars (cs : List Char) : List Char :=
  ((cs.dropWhile isBlank).reverse.dropWhile isBlank).reverse

/-- The text without the blanks at its two ends. -/
def trim (s : String) : String := String.ofList (trimChars s.toList)

/-- Cut at blanks, where `word` is what has been read of the current word. -/
def wordsFrom (word : List Char) : List Char → List (List Char)
  | [] => if word.isEmpty then [] else [word]
  | c :: cs =>
    if isBlank c then
      if word.isEmpty then wordsFrom [] cs else word :: wordsFrom [] cs
    else wordsFrom (word ++ [c]) cs

/-- The maximal runs of characters that are not blank. -/
def words (s : String) : List String := (wordsFrom [] s.toList).map String.ofList

/-- The texts in order with `separator` between neighbours. -/
def join (separator : String) : List String → String
  | [] => ""
  | [s] => s
  | s :: t :: rest => s ++ separator ++ join separator (t :: rest)

@[simp] theorem join_nil (separator : String) : join separator [] = "" := rfl
@[simp] theorem join_singleton (separator s : String) : join separator [s] = s := rfl

theorem join_cons (separator s : String) {ts : List String} (h : ts ≠ []) :
    join separator (s :: ts) = s ++ separator ++ join separator ts := by
  cases ts with
  | nil => exact absurd rfl h
  | cons t rest => rfl

theorem join_append (separator : String) {ss ts : List String} (hs : ss ≠ []) (ht : ts ≠ []) :
    join separator (ss ++ ts) = join separator ss ++ separator ++ join separator ts := by
  induction ss with
  | nil => exact absurd rfl hs
  | cons s ss ih =>
    by_cases hrest : ss = []
    · rw [hrest,List.cons_append,List.nil_append,join_cons separator s ht,join_singleton]
    · have hne : ss ++ ts ≠ [] := by simp [hrest]
      rw [List.cons_append,join_cons separator s hne,ih hrest,join_cons separator s hrest]
      simp only [String.append_assoc]

/-- What holds of the texts, and of two with the separator between them if it holds of the two,
holds of all of them joined. -/
theorem join_of_append {P : String → Prop} (separator : String) {texts : List String}
    (hne : texts ≠ []) (h : ∀ s ∈ texts, P s)
    (happend : ∀ s t, P s → P t → P (s ++ separator ++ t)) : P (join separator texts) := by
  induction texts with
  | nil => exact absurd rfl hne
  | cons s rest ih =>
    obtain ⟨hs,hrest⟩ := List.forall_mem_cons.1 h
    by_cases hnil : rest = []
    · rwa [hnil,join_singleton]
    · rw [join_cons separator s hnil]
      exact happend s _ hs (ih hnil hrest)

/-- Joining groups is joining those that have something in them, each joined by itself. -/
theorem join_flatten (separator : String) (groups : List (List String)) :
    join separator groups.flatten =
      join separator ((groups.filter (!·.isEmpty)).map (join separator)) := by
  induction groups with
  | nil => rfl
  | cons group rest ih =>
    by_cases hempty : group = []
    · simpa [hempty] using ih
    · have hkept : (group :: rest).filter (!·.isEmpty) = group :: rest.filter (!·.isEmpty) := by
        simp [hempty]
      rw [hkept,List.map_cons,List.flatten_cons]
      by_cases hrest : rest.filter (!·.isEmpty) = []
      · have hflat : rest.flatten = [] := by simpa using hrest
        rw [hrest,hflat]
        simp
      · have hflat : rest.flatten ≠ [] := by simpa using hrest
        rw [join_append separator hempty hflat,ih,join_cons separator _ (by simpa using hrest)]

/-- The text with each run of blanks between words written as one space. -/
def collapse (s : String) : String := join " " (words s)

end Text
end Scribe
