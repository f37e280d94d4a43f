import Scribe.Proofs.Digits

/-! Integers in numerals. A decimal, octal, hexadecimal or binary integer of the source language, with
any separators and type letters, becomes an integer of the target language with the same value. -/
namespace Scribe
namespace Text

/-- The base that a letter behind a leading zero stands for, in both languages. -/
def letterBase? (x : Char) : Option Nat :=
  if x ∈ ['x', 'X'] then some 16
  else if x ∈ ['b', 'B'] then some 2
  else none

/-- The value of an integer of the source language, without type letters: a leading zero tells octal
numbers from decimal ones. -/
def sourceInteger? : List Char → Option Nat
  | [] => none
  | c :: rest =>
    if c = '0' then
      match rest.head?.bind letterBase? with
      | some base => number? base '\x27' rest.tail
      | none => number? 8 '\x27' (c :: rest)
    else number? 10 '\x27' (c :: rest)

/-- The value of an integer of the target language: behind a leading zero there has to be a letter, if
anything. -/
def targetInteger? : List Char → Option Nat
  | [] => none
  | c :: rest =>
    if c = '0' then
      match rest with
      | [] => some 0
      | x :: digits =>
        if x = 'o' then number? 8 '_' digits
        else (letterBase? x).bind fun base => number? base '_' digits
    else number? 10 '_' (c :: rest)

theorem letterBase?_mem {base : Nat} {x : Char} (h : letterBase? x = some base) :
    x ∈ ['x','X','b','B'] := by
  unfold letterBase? at h
  split_ifs at h with hhex hbinary
  · exact List.mem_append_left ['b','B'] hhex
  · exact List.mem_append_right ['x','X'] hbinary

theorem isOctalDigit_of_digit {c : Char} {d : Nat} (h : digit? 8 c = some d) : isOctalDigit c := by
  obtain ⟨hvalue,hlt⟩ := Option.filter_eq_some_iff.1 h
  have hlt : d < 8 := by simpa using hlt
  have hrange : 48 ≤ c.toNat ∧ c.toNat ≤ 55 := by
    unfold digitValue? at hvalue
    split_ifs at hvalue with hdecimal hlower hupper
    · have hsub : c.toNat - 48 = d := Option.some.inj hvalue
      have hfirst : 48 ≤ c.toNat := hdecimal.1
      omega
    · have hadd : c.toNat - 97 + 10 = d := Option.some.inj hvalue
      omega
    · have hadd : c.toNat - 65 + 10 = d := Option.some.inj hvalue
      omega
  have hle : '0' ≤ c ∧ c ≤ '7' := by
    rw [Char.le_def,Char.le_def,UInt32.le_iff_toNat_le,UInt32.le_iff_toNat_le]
    exact hrange
  simp [isOctalDigit,hle]

section Octal
variable {cs : List Char} {ds : List Nat}

theorem octalDigits?_of_run (h : DigitRun 8 '_' cs ds) :
    octalDigits? ('0' :: cs) = some cs ∧ octalDigits? ('0' :: '_' :: cs) = some cs := by
  obtain ⟨c,rest,d,more,rfl,rfl,hd⟩ := h.head
  have hc : c ≠ '_' := by
    rintro rfl
    simp [(digit?_separators 8).2] at hd
  have hall : rest.all (fun x => isOctalDigit x || x = '_') := by
    refine List.all_eq_true.2 fun x hx => ?_
    rcases h.mem (List.mem_cons_of_mem c hx) with rfl | ⟨e,he⟩
    · simp
    · simp [isOctalDigit_of_digit he]
  have hdigits : octalDigits?.digits c rest = some (c :: rest) := by
    simp [octalDigits?.digits,isOctalDigit_of_digit hd,hall]
  refine ⟨?_,hdigits⟩
  unfold octalDigits?
  split
  · rename_i heq
    obtain ⟨-,heq⟩ := List.cons.inj heq
    exact absurd (List.cons.inj heq).1 hc
  · rename_i heq
    obtain ⟨-,heq⟩ := List.cons.inj heq
    obtain ⟨rfl,rfl⟩ := List.cons.inj heq
    exact hdigits
  · rename_i hother
    exact absurd rfl (hother c rest)

theorem octalDigits?_of_ne {c : Char} (hc : c ≠ '0') (rest : List Char) :
    octalDigits? (c :: rest) = none := by
  unfold octalDigits?
  split
  · rename_i heq
    exact absurd (List.cons.inj heq).1 hc
  · rename_i heq
    exact absurd (List.cons.inj heq).1 hc
  · rfl

theorem targetInteger?_withOctalBase {rest : List Char} (h : DigitRun 8 '_' ('0' :: rest) ds) :
    targetInteger? (withLeadingZero (withOctalBase ('0' :: rest))) = some (valueOf 8 ds) := by
  have hzero : digit? 8 '0' = some 0 := by decide
  have hout : ∀ {cs more}, octalDigits? ('0' :: rest) = some cs → DigitRun 8 '_' cs more →
      targetInteger? (withLeadingZero (withOctalBase ('0' :: rest))) =
        some (valueOf 8 (0 :: more)) := by
    intro cs more hoctal hrun
    have hspelled : withLeadingZero (withOctalBase ('0' :: rest)) = '0' :: 'o' :: cs := by
      rw [withOctalBase,hoctal]
      exact withLeadingZero_of_ne (by decide) _
    rw [hspelled,valueOf_zero_cons]
    simp [targetInteger?,hrun.number?_eq]
  cases h with
  | last hd =>
    obtain rfl := Option.some.inj (hd.symm.trans hzero)
    rfl
  | cons hd hrun =>
    obtain rfl := Option.some.inj (hd.symm.trans hzero)
    exact hout (octalDigits?_of_run hrun).1 hrun
  | separated hd hrun =>
    obtain rfl := Option.some.inj (hd.symm.trans hzero)
    exact hout (octalDigits?_of_run hrun).2 hrun

end Octal

section Integers
variable {cs suffix : List Char} {base : Nat} {ds : List Nat}

theorem hasBase_of_zero (rest : List Char) :
    hasBase (('0' :: rest).map respell) = (rest.head?.bind letterBase?).isSome := by
  cases rest with
  | nil => exact hasBase_singleton _
  | cons x digits =>
    have hzero : respell '0' = '0' := by decide
    have hletter : respell x ∈ ['x','X','b','B'] ↔ (letterBase? x).isSome := by
      by_cases hx : x = '\x27'
      · subst hx
        decide
      · rw [respell,if_neg hx,letterBase?]
        split_ifs with hhex hbinary
        · exact iff_of_true (List.mem_append_left ['b','B'] hhex) rfl
        · exact iff_of_true (List.mem_append_right ['x','X'] hbinary) rfl
        · refine iff_of_false (fun hmem => ?_) Bool.false_ne_true
          exact (List.mem_append.1 hmem).elim hhex hbinary
    rw [List.map_cons,List.map_cons,hasBase_cons_cons]
    simp [hzero,hletter]

theorem targetInteger?_based {x : Char} (hx : letterBase? x = some base)
    (h : DigitRun base '\x27' cs ds) (hsuffix : ∀ c ∈ suffix, c ∈ integerLetters) :
    targetInteger? (numeralChars ('0' :: x :: cs ++ suffix)) = some (valueOf base ds) := by
  have hother : x ≠ 'o' := by
    rintro rfl
    simp [letterBase?] at hx
  have hout : ('0' :: x :: cs).map respell = '0' :: x :: cs.map respell := by
    have hsame : ∀ x ∈ ['x','X','b','B'], respell x = x := by simp [respell]
    rw [List.map_cons,List.map_cons,hsame x (letterBase?_mem hx)]
    rfl
  have hbase : hasBase (('0' :: x :: cs).map respell) := by
    rw [hasBase_of_zero]
    simp [hx]
  obtain ⟨front,c,d,hcs,hd⟩ := h.getLast
  have hend : '0' :: x :: cs = '0' :: x :: front ++ [c] := by rw [hcs]; rfl
  rw [numeralChars_based hbase hend (not_letter_of_digit hd).2 hsuffix,hout,
    withLeadingZero_of_ne (by decide)]
  simp [targetInteger?,hother,hx,h.respell.number?_eq]

theorem targetInteger?_decimal {c : Char} (hc : c ≠ '0') (h : DigitRun 10 '\x27' (c :: cs) ds)
    (hsuffix : ∀ c ∈ suffix, c ∈ typeLetters) :
    targetInteger? (numeralChars (c :: cs ++ suffix)) = some (valueOf 10 ds) := by
  obtain ⟨first,rest,d,more,hcons,-,hd⟩ := h.head
  obtain ⟨rfl,rfl⟩ := List.cons.inj hcons
  have hout : (c :: cs).map respell = c :: cs.map respell := by
    rw [List.map_cons,respell_of_digit hd]
  have hplain : ¬hasBase ((c :: cs).map respell) := by
    rw [hout]
    cases cs.map respell with
    | nil => simp [hasBase_singleton]
    | cons x rest => simp [hasBase_cons_cons,hc]
  obtain ⟨front,last,e,hcs,he⟩ := h.getLast
  have hvalue := h.respell.number?_eq
  rw [numeralChars_plain hplain hcs (not_typeLetter_of_digit le_rfl he) hsuffix,hout,withOctalBase,
    octalDigits?_of_ne hc]
  simp only [withLeadingZero_of_ne (not_letter_of_digit hd).1]
  rw [hout] at hvalue
  simp [targetInteger?,hc,hvalue]

theorem targetInteger?_octal {rest : List Char} (h : DigitRun 8 '\x27' ('0' :: rest) ds)
    (hbase : rest.head?.bind letterBase? = none) (hsuffix : ∀ c ∈ suffix, c ∈ typeLetters) :
    targetInteger? (numeralChars ('0' :: rest ++ suffix)) = some (valueOf 8 ds) := by
  have hplain : ¬hasBase (('0' :: rest).map respell) := by
    rw [hasBase_of_zero,hbase]
    exact Bool.false_ne_true
  obtain ⟨front,last,e,hcs,he⟩ := h.getLast
  rw [numeralChars_plain hplain hcs (not_typeLetter_of_digit (by decide) he) hsuffix]
  exact targetInteger?_withOctalBase h.respell

end Integers

/-- An integer of the source language, decimal, octal, hexadecimal or binary, with any type letters,
becomes an integer of the target language with the same value. -/
theorem numeral_integer {body suffix : String} {n : Nat} (h : sourceInteger? body.toList = some n)
    (hsuffix : ∀ c ∈ suffix.toList, c ∈ integerLetters) :
    targetInteger? (numeral (body ++ suffix)).toList = some n := by
  have htype : ∀ c ∈ suffix.toList, c ∈ typeLetters := fun c hc => mem_typeLetters (hsuffix c hc)
  rw [numeral,String.toList_ofList,String.toList_append]
  cases hbody : body.toList with
  | nil => simp [hbody,sourceInteger?] at h
  | cons c rest =>
    rw [hbody,sourceInteger?] at h
    by_cases hc : c = '0'
    · subst hc
      rw [if_pos rfl] at h
      cases hletter : rest.head?.bind letterBase? with
      | some base =>
        rw [hletter] at h
        obtain ⟨x,hhead,hx⟩ := Option.bind_eq_some_iff.1 hletter
        obtain ⟨digits,rfl⟩ := List.head?_eq_some_iff.1 hhead
        obtain ⟨ds,hrun,rfl⟩ := digitRun_of_number? h
        exact targetInteger?_based hx hrun hsuffix
      | none =>
        rw [hletter] at h
        obtain ⟨ds,hrun,rfl⟩ := digitRun_of_number? h
        exact targetInteger?_octal hrun hletter htype
    · rw [if_neg hc] at h
      obtain ⟨ds,hrun,rfl⟩ := digitRun_of_number? h
      exact targetInteger?_decimal hc hrun htype

theorem numeral_integer_octal :
    sourceInteger? "0'1'7".toList = some 15 ∧ numeral ("0'1'7" ++ "uLL") = "0o1_7" ∧
      targetInteger? "0o1_7".toList = some 15 := by
  have hvalue : sourceInteger? "0'1'7".toList = some 15 := by decide
  have hspelled : numeral ("0'1'7" ++ "uLL") = "0o1_7" := by decide
  have hsame : targetInteger? (numeral ("0'1'7" ++ "uLL")).toList = some 15 :=
    numeral_integer hvalue (by simp [integerLetters])
  exact ⟨hvalue,hspelled,hspelled ▸ hsame⟩

end Text
end Scribe
