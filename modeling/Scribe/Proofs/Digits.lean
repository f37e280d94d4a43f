import Mathlib.Data.Nat.Digits.Defs
import Scribe.Text.Numeral

/-! Digits of numerals. A run of digits may have single separators between its digits, spelled
differently in the two languages; respelling it keeps the digits. Type letters at the end are dropped
and nothing else is. -/
namespace Scribe
namespace Text

/-- The value of a digit; letters stand for ten and more. -/
def digitValue? (c : Char) : Option Nat :=
  if '0'.toNat ≤ c.toNat ∧ c.toNat ≤ '9'.toNat then some (c.toNat - '0'.toNat)
  else if 'a'.toNat ≤ c.toNat ∧ c.toNat ≤ 'f'.toNat then some (c.toNat - 'a'.toNat + 10)
  else if 'A'.toNat ≤ c.toNat ∧ c.toNat ≤ 'F'.toNat then some (c.toNat - 'A'.toNat + 10)
  else none

def digit? (base : Nat) (c : Char) : Option Nat := (digitValue? c).filter (· < base)

/-- The digits of a run, most significant first: at least one, with single separators between
them. -/
def digits? (base : Nat) (separator : Char) : List Char → Option (List Nat)
  | [] => none
  | [c] => (digit? base c).map fun d => [d]
  | c :: next :: rest => (digit? base c).bind fun d =>
    (if next = separator then digits? base separator rest
      else digits? base separator (next :: rest)).map (d :: ·)

/-- The number that digits stand for, most significant first. -/
def valueOf (base : Nat) (digits : List Nat) : Nat := Nat.ofDigits base digits.reverse

def number? (base : Nat) (separator : Char) (cs : List Char) : Option Nat :=
  (digits? base separator cs).map (valueOf base)

/-- Separators of the source language become those of the target language. -/
def respell (c : Char) : Char := if c = '\x27' then '_' else c

theorem valueOf_zero_cons (base : Nat) (digits : List Nat) :
    valueOf base (0 :: digits) = valueOf base digits := by
  simp [valueOf,Nat.ofDigits_append]

/-- A run of digits, digit by digit. -/
inductive DigitRun (base : Nat) (separator : Char) : List Char → List Nat → Prop
  | last {c : Char} {d : Nat} : digit? base c = some d → DigitRun base separator [c] [d]
  | cons {c : Char} {d : Nat} {cs : List Char} {ds : List Nat} : digit? base c = some d →
      DigitRun base separator cs ds → DigitRun base separator (c :: cs) (d :: ds)
  | separated {c : Char} {d : Nat} {cs : List Char} {ds : List Nat} : digit? base c = some d →
      DigitRun base separator cs ds → DigitRun base separator (c :: separator :: cs) (d :: ds)

section Digits
variable {base : Nat} {separator : Char} {cs : List Char} {ds : List Nat}

theorem digitRun_of_digits? (h : digits? base separator cs = some ds) :
    DigitRun base separator cs ds := by
  fun_induction digits? base separator cs generalizing ds with
  | case1 => cases h
  | case2 c =>
    obtain ⟨d,hd,rfl⟩ := Option.map_eq_some_iff.1 h
    exact .last hd
  | case3 c next rest ihrest ihnext =>
    obtain ⟨d,hd,hmap⟩ := Option.bind_eq_some_iff.1 h
    obtain ⟨more,hmore,rfl⟩ := Option.map_eq_some_iff.1 hmap
    by_cases hnext : next = separator
    · rw [if_pos hnext] at hmore
      rw [hnext]
      exact .separated hd (ihrest hmore)
    · rw [if_neg hnext] at hmore
      exact .cons hd (ihnext hmore)

namespace DigitRun

theorem head (h : DigitRun base separator cs ds) :
    ∃ c rest d more, cs = c :: rest ∧ ds = d :: more ∧ digit? base c = some d := by
  cases h with
  | last hd => exact ⟨_,_,_,_,rfl,rfl,hd⟩
  | cons hd _ => exact ⟨_,_,_,_,rfl,rfl,hd⟩
  | separated hd _ => exact ⟨_,_,_,_,rfl,rfl,hd⟩

theorem getLast (h : DigitRun base separator cs ds) :
    ∃ front c d, cs = front ++ [c] ∧ digit? base c = some d := by
  induction h with
  | @last c d hd => exact ⟨[],c,d,rfl,hd⟩
  | @cons c _ _ _ _ _ ih =>
    obtain ⟨front,e,d,rfl,hd⟩ := ih
    exact ⟨c :: front,e,d,rfl,hd⟩
  | @separated c _ _ _ _ _ ih =>
    obtain ⟨front,e,d,rfl,hd⟩ := ih
    exact ⟨c :: separator :: front,e,d,rfl,hd⟩

theorem mem (h : DigitRun base separator cs ds) {c : Char} (hc : c ∈ cs) :
    c = separator ∨ ∃ d, digit? base c = some d := by
  induction h with
  | last hd =>
    obtain rfl := List.mem_singleton.1 hc
    exact .inr ⟨_,hd⟩
  | cons hd _ ih =>
    rcases List.mem_cons.1 hc with rfl | hc
    · exact .inr ⟨_,hd⟩
    · exact ih hc
  | separated hd _ ih =>
    rcases List.mem_cons.1 hc with rfl | hc
    · exact .inr ⟨_,hd⟩
    · rcases List.mem_cons.1 hc with rfl | hc
      · exact .inl rfl
      · exact ih hc

theorem digits?_eq (h : DigitRun base separator cs ds) (hseparator : digit? base separator = none) :
    digits? base separator cs = some ds := by
  induction h with
  | last hd => simp [digits?,hd]
  | @cons c d cs ds hd hrest ih =>
    obtain ⟨next,rest,e,more,rfl,rfl,he⟩ := hrest.head
    -- The run goes on with a digit, which the separator is not.
    have hnext : next ≠ separator := by
      rintro rfl
      simp [hseparator] at he
    simp [digits?,hd,if_neg hnext,ih]
  | separated hd _ ih => simp [digits?,hd,ih]

end DigitRun

theorem digit?_separators (base : Nat) : digit? base '\x27' = none ∧ digit? base '_' = none := by
  have hvalues : digitValue? '\x27' = none ∧ digitValue? '_' = none := by decide
  simp [digit?,hvalues]

theorem respell_of_digit {c : Char} {d : Nat} (h : digit? base c = some d) : respell c = c := by
  refine if_neg ?_
  rintro rfl
  simp [(digit?_separators base).1] at h

theorem DigitRun.respell (h : DigitRun base '\x27' cs ds) :
    DigitRun base '_' (cs.map respell) ds := by
  induction h with
  | last hd =>
    rw [List.map_singleton,respell_of_digit hd]
    exact .last hd
  | cons hd _ ih =>
    rw [List.map_cons,respell_of_digit hd]
    exact .cons hd ih
  | separated hd _ ih =>
    rw [List.map_cons,List.map_cons,respell_of_digit hd]
    exact .separated hd ih

theorem digits?_respell (h : digits? base '\x27' cs = some ds) :
    digits? base '_' (cs.map respell) = some ds :=
  (digitRun_of_digits? h).respell.digits?_eq (digit?_separators base).2

theorem DigitRun.number?_eq (h : DigitRun base '_' cs ds) :
    number? base '_' cs = some (valueOf base ds) := by
  rw [number?,h.digits?_eq (digit?_separators base).2]
  rfl

theorem digitRun_of_number? {n : Nat} (h : number? base separator cs = some n) :
    ∃ ds, DigitRun base separator cs ds ∧ valueOf base ds = n := by
  obtain ⟨ds,hds,hvalue⟩ := Option.map_eq_some_iff.1 h
  exact ⟨ds,digitRun_of_digits? hds,hvalue⟩

end Digits

theorem dropLetters_append {letters front suffix : List Char} {c : Char} (hletters : '\n' ∉ letters)
    (hc : c ∉ '\n' :: letters) (hsuffix : ∀ x ∈ suffix, x ∈ letters) :
    dropLetters letters (front ++ [c] ++ suffix) = front ++ [c] := by
  obtain ⟨hbreak,hletter⟩ : c ≠ '\n' ∧ c ∉ letters := by simpa using hc
  have hreverse : (front ++ [c] ++ suffix).reverse = suffix.reverse ++ c :: front.reverse := by
    simp
  have hdrop : (suffix.reverse ++ c :: front.reverse).dropWhile (· ∈ letters) =
      c :: front.reverse := by
    rw [List.dropWhile_append_of_pos (by simpa using hsuffix)]
    simp [hletter]
  have hfirst : ∀ rest, (front ++ [c] ++ suffix).reverse ≠ '\n' :: rest := by
    intro rest hrest
    rw [hreverse] at hrest
    cases hlast : suffix.reverse with
    | nil =>
      rw [hlast] at hrest
      exact hbreak (List.cons.inj hrest).1
    | cons x xs =>
      rw [hlast] at hrest
      have hx : x ∈ suffix := List.mem_reverse.1 (hlast ▸ List.mem_cons_self)
      exact hletters ((List.cons.inj hrest).1 ▸ hsuffix x hx)
  unfold dropLetters
  split
  · rename_i rest hrest
    exact absurd hrest (hfirst rest)
  · rw [hreverse,hdrop]
    simp

def integerLetters : List Char := ['u', 'U', 'l', 'L', 'z', 'Z']

def typeLetters : List Char := ['u', 'U', 'l', 'L', 'f', 'F', 'z', 'Z']

def withOctalBase (cs : List Char) : List Char :=
  match octalDigits? cs with
  | some ds => '0' :: 'o' :: ds
  | none => cs

def withLeadingZero (cs : List Char) : List Char :=
  match cs with
  | '.' :: _ => '0' :: cs
  | _ => cs

theorem numeralChars_eq (cs : List Char) : numeralChars cs = withLeadingZero
    (if hasBase (cs.map respell) then dropLetters integerLetters (cs.map respell)
      else withOctalBase (dropLetters typeLetters (cs.map respell))) :=
  rfl

theorem withLeadingZero_of_ne {c : Char} (h : c ≠ '.') (cs : List Char) :
    withLeadingZero (c :: cs) = c :: cs := by
  unfold withLeadingZero
  split
  · rename_i heq
    exact absurd (List.cons.inj heq).1 h
  · rfl

theorem mem_typeLetters {c : Char} (h : c ∈ integerLetters) : c ∈ typeLetters := by
  have hletters : ∀ c ∈ integerLetters, c ∈ typeLetters := by
    simp [integerLetters,typeLetters]
  exact hletters c h

theorem hasBase_singleton (c : Char) : hasBase [c] = false := by
  unfold hasBase
  split
  · rename_i heq
    cases heq
  · rfl

theorem hasBase_cons_cons (c d : Char) (rest : List Char) :
    hasBase (c :: d :: rest) = (decide (c = '0') && decide (d ∈ ['x','X','b','B'])) := by
  by_cases hc : c = '0'
  · rw [hc]
    rfl
  · unfold hasBase
    split
    · rename_i heq
      exact absurd (List.cons.inj heq).1 hc
    · simp [hc]

section Letters
variable {cs front suffix : List Char} {c : Char}

theorem not_sign_of_letter {x : Char} (h : x ∈ typeLetters) :
    respell x = x ∧ x ∉ ['x','X','b','B'] := by
  have hletters : ∀ x ∈ typeLetters, respell x = x ∧ x ∉ ['x','X','b','B'] := by
    simp [typeLetters,respell]
  exact hletters x h

theorem map_respell_append (hsuffix : ∀ x ∈ suffix, x ∈ typeLetters) :
    (cs ++ suffix).map respell = cs.map respell ++ suffix := by
  have hsame : suffix.map respell = suffix.map id :=
    List.map_congr_left fun x hx => (not_sign_of_letter (hsuffix x hx)).1
  rw [List.map_append,hsame,List.map_id]

theorem hasBase_respell (hcs : cs ≠ []) (hsuffix : ∀ x ∈ suffix, x ∈ typeLetters) :
    hasBase ((cs ++ suffix).map respell) = hasBase (cs.map respell) := by
  rw [map_respell_append hsuffix]
  match cs, suffix with
  | [], _ => exact absurd rfl hcs
  | [c], [] => rfl
  | [c], x :: rest =>
    have hx : x ∉ ['x','X','b','B'] := (not_sign_of_letter (hsuffix x List.mem_cons_self)).2
    rw [List.map_singleton,List.singleton_append,hasBase_cons_cons,hasBase_singleton,
      decide_eq_false hx,Bool.and_false]
  | c :: d :: rest, suffix =>
    rw [List.map_cons,List.map_cons,List.cons_append,List.cons_append,hasBase_cons_cons,
      hasBase_cons_cons]

theorem dropLetters_respell {letters : List Char} (hletters : ∀ x ∈ letters, x ∈ typeLetters)
    (hcs : cs = front ++ [c]) (hc : c ∉ '\x27' :: '\n' :: letters)
    (hsuffix : ∀ x ∈ suffix, x ∈ letters) :
    dropLetters letters ((cs ++ suffix).map respell) = cs.map respell := by
  have hplain : c ≠ '\x27' ∧ c ∉ '\n' :: letters := by simpa only [List.mem_cons,not_or] using hc
  have hout : cs.map respell = front.map respell ++ [c] := by
    rw [hcs,List.map_append,List.map_singleton,respell,if_neg hplain.1]
  rw [map_respell_append fun x hx => hletters x (hsuffix x hx),hout]
  refine dropLetters_append (fun hbreak => ?_) hplain.2 hsuffix
  exact absurd (hletters _ hbreak) (by decide)

theorem numeralChars_based (hbase : hasBase (cs.map respell)) (hcs : cs = front ++ [c])
    (hc : c ∉ '\x27' :: '\n' :: integerLetters) (hsuffix : ∀ x ∈ suffix, x ∈ integerLetters) :
    numeralChars (cs ++ suffix) = withLeadingZero (cs.map respell) := by
  have hne : cs ≠ [] := by simp [hcs]
  rw [numeralChars_eq,hasBase_respell hne fun x hx => mem_typeLetters (hsuffix x hx),if_pos hbase,
    dropLetters_respell (fun x hx => mem_typeLetters hx) hcs hc hsuffix]

/-- A number without a written base loses its type letters before it is respelled any further. -/
theorem numeralChars_plain (hbase : ¬hasBase (cs.map respell)) (hcs : cs = front ++ [c])
    (hc : c ∉ '\x27' :: '\n' :: typeLetters) (hsuffix : ∀ x ∈ suffix, x ∈ typeLetters) :
    numeralChars (cs ++ suffix) = withLeadingZero (withOctalBase (cs.map respell)) := by
  have hne : cs ≠ [] := by simp [hcs]
  rw [numeralChars_eq,hasBase_respell hne hsuffix,if_neg hbase,
    dropLetters_respell (fun _ hx => hx) hcs hc hsuffix]

end Letters

section Digit
variable {base d : Nat} {c : Char}

theorem not_mem_of_digit {letters : List Char}
    (hletters : ∀ x ∈ letters, ∀ e ∈ digitValue? x, base ≤ e) (h : digit? base c = some d) :
    c ∉ letters := by
  intro hmem
  obtain ⟨hvalue,hlt⟩ := Option.filter_eq_some_iff.1 h
  have hge : base ≤ d := hletters c hmem d hvalue
  have hlt : d < base := by simpa using hlt
  omega

theorem not_letter_of_digit (h : digit? base c = some d) :
    c ≠ '.' ∧ c ∉ '\x27' :: '\n' :: integerLetters := by
  have hnone : ∀ x ∈ '.' :: '\x27' :: '\n' :: integerLetters, digitValue? x = none := by
    simp [integerLetters,digitValue?]
  rw [← not_or,← List.mem_cons]
  refine not_mem_of_digit (fun x hx e he => ?_) h
  simp [hnone x hx] at he

theorem not_typeLetter_of_digit (hbase : base ≤ 10) (h : digit? base c = some d) :
    c ∉ '\x27' :: '\n' :: typeLetters := by
  have hten : ∀ x ∈ '\x27' :: '\n' :: typeLetters, ∀ e ∈ digitValue? x, 10 ≤ e := by
    simp [typeLetters,digitValue?]
  exact not_mem_of_digit (fun x hx e he => hbase.trans (hten x hx e he)) h

end Digit
end Text
end Scribe
