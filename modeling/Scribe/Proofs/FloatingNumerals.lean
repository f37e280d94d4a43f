import Mathlib.Algebra.Field.Rat
import Scribe.Proofs.IntegerNumerals

/-! Floating numbers in numerals. A decimal floating number of the source language keeps its digits and
its exponent, so that it keeps its value. It is a number of the target language if and only if its whole
part has no needless zero in front, since such zeros are not taken away. -/
namespace Scribe
namespace Text

/-- A decimal number: the digits in front of the point, those behind it if there is a point, and the
exponent if there is one. -/
structure Decimal where
  whole : List Nat
  fraction : Option (List Nat)
  exponent : Option Int
deriving DecidableEq

namespace Decimal

def decimals (d : Decimal) : List Nat := d.fraction.getD []

/-- The number that the digits and the exponent stand for. -/
def value (d : Decimal) : ℚ :=
  (valueOf 10 (d.whole ++ d.decimals) : ℚ) *
    (10 : ℚ) ^ (d.exponent.getD 0 - (d.decimals.length : ℤ))

/-- A number is floating if there is a digit, and a point or an exponent. -/
def IsFloating (d : Decimal) : Prop :=
  (d.whole ≠ [] ∨ d.decimals ≠ []) ∧ (d.fraction ≠ none ∨ d.exponent ≠ none)

/-- A number of the target language: its whole part is zero or starts with another digit. -/
def IsStrict (d : Decimal) : Prop := d.whole = [0] ∨ ∃ first ∈ d.whole.head?, first ≠ 0

/-- The whole part has a zero in front of further digits. -/
def HasNeedlessZero (d : Decimal) : Prop := ∃ next rest, d.whole = 0 :: next :: rest

/-- The same number with a whole part. -/
def filled (d : Decimal) : Decimal :=
  { d with whole := if d.whole = [] then [0] else d.whole }

theorem value_filled (d : Decimal) : d.filled.value = d.value := by
  by_cases hwhole : d.whole = []
  · simp [filled,value,decimals,hwhole,valueOf_zero_cons]
  · simp [filled,value,decimals,hwhole]

theorem isStrict_filled_iff (d : Decimal) : d.filled.IsStrict ↔ ¬d.HasNeedlessZero := by
  unfold IsStrict HasNeedlessZero filled
  match hwhole : d.whole with
  | [] => simp
  | [first] => simp [eq_or_ne]
  | first :: next :: rest => simp

end Decimal

def digitsOrNone (separator : Char) (cs : List Char) : Option (List Nat) :=
  if cs = [] then some [] else digits? 10 separator cs

def fraction? (separator : Char) : List Char → Option (Option (List Nat))
  | [] => some none
  | _ :: cs => (digitsOrNone separator cs).map some

def signed? (separator : Char) : List Char → Option Int
  | [] => none
  | c :: cs =>
    if c = '-' then (number? 10 separator cs).map fun n : Nat => -(n : Int)
    else (number? 10 separator (if c = '+' then cs else c :: cs)).map Int.ofNat

def exponent? (separator : Char) : List Char → Option (Option Int)
  | [] => some none
  | _ :: cs => (signed? separator cs).map some

/-- The decimal number that a text spells. -/
def decimal? (separator : Char) (cs : List Char) : Option Decimal :=
  let mantissa := cs.takeWhile (· ∉ ['e', 'E'])
  (digitsOrNone separator (mantissa.takeWhile (· ≠ '.'))).bind fun whole =>
    (fraction? separator (mantissa.dropWhile (· ≠ '.'))).bind fun fraction =>
      (exponent? separator (cs.dropWhile (· ∉ ['e', 'E']))).map fun exponent =>
        ⟨whole, fraction, exponent⟩

/-- A point with the digits behind it, or nothing. -/
inductive FractionRun (separator : Char) : List Char → Prop
  | absent : FractionRun separator []
  | bare : FractionRun separator ['.']
  | digits {cs : List Char} {ds : List Nat} : DigitRun 10 separator cs ds →
      FractionRun separator ('.' :: cs)

/-- An exponent behind its letter, with or without a sign, or nothing. -/
inductive ExponentRun (separator : Char) : List Char → Prop
  | absent : ExponentRun separator []
  | plain {letter : Char} {cs : List Char} {ds : List Nat} : letter ∈ ['e', 'E'] →
      DigitRun 10 separator cs ds → ExponentRun separator (letter :: cs)
  | signed {letter sign : Char} {cs : List Char} {ds : List Nat} : letter ∈ ['e', 'E'] →
      sign ∈ ['+', '-'] → DigitRun 10 separator cs ds →
      ExponentRun separator (letter :: sign :: cs)

section Parts
variable {separator : Char} {cs : List Char} {d : Decimal}

theorem decimal?_eq_some : decimal? separator cs = some d ↔
    digitsOrNone separator ((cs.takeWhile (· ∉ ['e','E'])).takeWhile (· ≠ '.')) = some d.whole ∧
    fraction? separator ((cs.takeWhile (· ∉ ['e','E'])).dropWhile (· ≠ '.')) = some d.fraction ∧
    exponent? separator (cs.dropWhile (· ∉ ['e','E'])) = some d.exponent := by
  simp only [decimal?,Option.bind_eq_some_iff,Option.map_eq_some_iff]
  constructor
  · rintro ⟨whole,hwhole,fraction,hfraction,exponent,hexponent,rfl⟩
    exact ⟨hwhole,hfraction,hexponent⟩
  · rintro ⟨hwhole,hfraction,hexponent⟩
    exact ⟨_,hwhole,_,hfraction,_,hexponent,rfl⟩

theorem digitsOrNone_cases {ds : List Nat} (h : digitsOrNone separator cs = some ds) :
    cs = [] ∧ ds = [] ∨ DigitRun 10 separator cs ds := by
  by_cases hcs : cs = []
  · rw [digitsOrNone,if_pos hcs] at h
    exact .inl ⟨hcs,(Option.some.inj h).symm⟩
  · rw [digitsOrNone,if_neg hcs] at h
    exact .inr (digitRun_of_digits? h)

theorem of_dropWhile_eq_cons {p : Char → Bool} {c : Char} {rest : List Char}
    (h : cs.dropWhile p = c :: rest) : p c = false := by
  have hhead := List.head?_dropWhile_not p cs
  rwa [h] at hhead

theorem fractionRun_of_fraction? {fraction : Option (List Nat)}
    (hpoint : ∀ c ∈ cs.head?, c = '.') (h : fraction? separator cs = some fraction) :
    FractionRun separator cs ∧ (fraction = none ↔ cs = []) := by
  cases cs with
  | nil =>
    obtain rfl := Option.some.inj h
    exact ⟨.absent,by simp⟩
  | cons c rest =>
    obtain rfl := hpoint c rfl
    obtain ⟨ds,hds,rfl⟩ := Option.map_eq_some_iff.1 h
    refine ⟨?_,by simp⟩
    rcases digitsOrNone_cases hds with ⟨rfl,rfl⟩ | hrun
    · exact .bare
    · exact .digits hrun

theorem exponentRun_of_exponent? {exponent : Option Int}
    (hletter : ∀ c ∈ cs.head?, c ∈ ['e','E']) (h : exponent? separator cs = some exponent) :
    ExponentRun separator cs ∧ (exponent = none ↔ cs = []) := by
  match cs with
  | [] =>
    obtain rfl := Option.some.inj h
    exact ⟨.absent,by simp⟩
  | [letter] => simp [exponent?,signed?] at h
  | letter :: c :: rest =>
    obtain ⟨n,hn,rfl⟩ := Option.map_eq_some_iff.1 h
    refine ⟨?_,by simp⟩
    by_cases hminus : c = '-'
    · rw [signed?,if_pos hminus] at hn
      obtain ⟨m,hm,-⟩ := Option.map_eq_some_iff.1 hn
      obtain ⟨ds,hds,-⟩ := digitRun_of_number? hm
      exact .signed (hletter letter rfl) (by simp [hminus]) hds
    · rw [signed?,if_neg hminus] at hn
      obtain ⟨m,hm,-⟩ := Option.map_eq_some_iff.1 hn
      by_cases hplus : c = '+'
      · rw [if_pos hplus] at hm
        obtain ⟨ds,hds,-⟩ := digitRun_of_number? hm
        exact .signed (hletter letter rfl) (by simp [hplus]) hds
      · rw [if_neg hplus] at hm
        obtain ⟨ds,hds,-⟩ := digitRun_of_number? hm
        exact .plain (hletter letter rfl) hds

/-- A decimal number is its whole part, its fraction and its exponent, one behind the other. -/
theorem decimal?_parts (h : decimal? separator cs = some d) :
    ∃ whole point exponent, cs = whole ++ point ++ exponent ∧
      (whole = [] ∧ d.whole = [] ∨ DigitRun 10 separator whole d.whole) ∧
      (FractionRun separator point ∧ (d.fraction = none ↔ point = [])) ∧
      (ExponentRun separator exponent ∧ (d.exponent = none ↔ exponent = [])) := by
  obtain ⟨hwhole,hfraction,hexponent⟩ := decimal?_eq_some.1 h
  refine ⟨_,_,_,?_,digitsOrNone_cases hwhole,fractionRun_of_fraction? (fun c hc => ?_) hfraction,
    exponentRun_of_exponent? (fun c hc => ?_) hexponent⟩
  · rw [List.takeWhile_append_dropWhile,List.takeWhile_append_dropWhile]
  · obtain ⟨rest,hrest⟩ := List.head?_eq_some_iff.1 hc
    simpa using of_dropWhile_eq_cons hrest
  · obtain ⟨rest,hrest⟩ := List.head?_eq_some_iff.1 hc
    simpa [or_iff_not_imp_left] using of_dropWhile_eq_cons hrest

theorem decimal?_getLast (h : decimal? separator cs = some d) (hd : d.IsFloating) :
    ∃ front c, cs = front ++ [c] ∧ c ∉ '\x27' :: '\n' :: typeLetters := by
  obtain ⟨whole,point,exponent,rfl,-,⟨hpoint,hfraction⟩,⟨hexponent,hnone⟩⟩ := decimal?_parts h
  cases hexponent with
  | absent =>
    -- Without an exponent there is a point, which may be the last character.
    cases hpoint with
    | absent => exact absurd (hnone.2 rfl) (hd.2.resolve_left fun hne => hne (hfraction.2 rfl))
    | bare => exact ⟨whole,'.',by simp,by simp [typeLetters]⟩
    | digits hrun =>
      obtain ⟨front,c,v,rfl,hv⟩ := hrun.getLast
      exact ⟨whole ++ '.' :: front,c,by simp,not_typeLetter_of_digit le_rfl hv⟩
  | @plain letter _ _ _ hrun =>
    obtain ⟨front,c,v,rfl,hv⟩ := hrun.getLast
    exact ⟨whole ++ point ++ letter :: front,c,by simp,not_typeLetter_of_digit le_rfl hv⟩
  | @signed letter sign _ _ _ _ hrun =>
    obtain ⟨front,c,v,rfl,hv⟩ := hrun.getLast
    exact ⟨whole ++ point ++ letter :: sign :: front,c,by simp,not_typeLetter_of_digit le_rfl hv⟩

theorem DigitRun.not_base {ds : List Nat} (hseparator : separator ∉ ['x','X','b','B'])
    (h : DigitRun 10 separator cs ds) : ∀ c ∈ cs, c ∉ ['x','X','b','B'] := by
  have hletters : ∀ x ∈ ['x','X','b','B'], ∀ e ∈ digitValue? x, 10 ≤ e := by simp [digitValue?]
  intro c hc
  rcases h.mem hc with rfl | ⟨v,hv⟩
  · exact hseparator
  · exact not_mem_of_digit hletters hv

theorem decimal?_not_base (hseparator : separator ∉ ['x','X','b','B'])
    (h : decimal? separator cs = some d) : ∀ c ∈ cs, c ∉ ['x','X','b','B'] := by
  have hmarks : ∀ c ∈ ['.','e','E','+','-'], c ∉ ['x','X','b','B'] := by simp
  obtain ⟨whole,point,exponent,rfl,hwhole,⟨hpoint,-⟩,⟨hexponent,-⟩⟩ := decimal?_parts h
  simp only [List.forall_mem_append]
  refine ⟨⟨?_,?_⟩,?_⟩
  · rcases hwhole with ⟨rfl,-⟩ | hrun
    · exact List.forall_mem_nil _
    · exact hrun.not_base hseparator
  · cases hpoint with
    | absent => exact List.forall_mem_nil _
    | bare => simp
    | digits hrun => exact List.forall_mem_cons.2 ⟨by simp,hrun.not_base hseparator⟩
  · cases hexponent with
    | absent => exact List.forall_mem_nil _
    | plain hletter hrun =>
      exact List.forall_mem_cons.2 ⟨hmarks _ (by grind),hrun.not_base hseparator⟩
    | signed hletter hsign hrun =>
      refine List.forall_mem_cons.2 ⟨hmarks _ (by grind),?_⟩
      exact List.forall_mem_cons.2 ⟨hmarks _ (by grind),hrun.not_base hseparator⟩

theorem decimal?_mark (h : decimal? separator cs = some d) (hd : d.IsFloating) :
    ∃ c ∈ cs, c ∈ ['.','e','E'] := by
  obtain ⟨whole,point,exponent,rfl,-,⟨hpoint,hfraction⟩,⟨hexponent,hnone⟩⟩ := decimal?_parts h
  cases hpoint with
  | absent =>
    cases hexponent with
    | absent => exact absurd (hnone.2 rfl) (hd.2.resolve_left fun hne => hne (hfraction.2 rfl))
    | plain hletter _ => exact ⟨_,by simp,List.mem_cons_of_mem _ hletter⟩
    | signed hletter _ _ => exact ⟨_,by simp,List.mem_cons_of_mem _ hletter⟩
  | bare => exact ⟨'.',by simp,by simp⟩
  | digits _ => exact ⟨'.',by simp,by simp⟩

theorem decimal?_head (h : decimal? separator cs = some d) (hd : d.IsFloating) :
    ∃ c rest, cs = c :: rest ∧ (c = '.' ↔ d.whole = []) := by
  obtain ⟨whole,point,exponent,rfl,hwhole,⟨hpoint,hfraction⟩,-⟩ := decimal?_parts h
  rcases hwhole with ⟨rfl,hnone⟩ | hrun
  · cases hpoint with
    | absent =>
      -- There is a digit, and it has to stand behind a point.
      have hdecimals : d.decimals = [] := by simp [Decimal.decimals,hfraction.2 rfl]
      exact absurd hdecimals (hd.1.resolve_left fun hne => hne hnone)
    | bare => exact ⟨'.',exponent,rfl,by simp [hnone]⟩
    | @digits cs _ _ => exact ⟨'.',cs ++ exponent,rfl,by simp [hnone]⟩
  · obtain ⟨c,rest,v,more,rfl,hmore,hv⟩ := hrun.head
    exact ⟨c,rest ++ point ++ exponent,by simp,by simp [hmore,(not_letter_of_digit hv).1]⟩

theorem decimal?_zero_cons (h : decimal? separator cs = some d) (hwhole : d.whole = []) :
    decimal? separator ('0' :: cs) = some { d with whole := [0] } := by
  obtain ⟨hdigits,hfraction,hexponent⟩ := decimal?_eq_some.1 h
  rw [hwhole] at hdigits
  have hnone : (cs.takeWhile (· ∉ ['e','E'])).takeWhile (· ≠ '.') = [] := by
    rcases digitsOrNone_cases hdigits with ⟨hcs,-⟩ | hrun
    · exact hcs
    · obtain ⟨_,_,_,_,-,hcons,-⟩ := hrun.head
      cases hcons
  have htake : ('0' :: cs).takeWhile (· ∉ ['e','E']) = '0' :: cs.takeWhile (· ∉ ['e','E']) := by
    simp
  refine decimal?_eq_some.2 ⟨?_,?_,?_⟩
  · rw [htake,List.takeWhile_cons_of_pos (by decide),hnone]
    rfl
  · rw [htake,List.dropWhile_cons_of_pos (by decide)]
    exact hfraction
  · rw [List.dropWhile_cons_of_pos (by decide)]
    exact hexponent

theorem decimal?_withLeadingZero (h : decimal? separator cs = some d) (hd : d.IsFloating) :
    decimal? separator (withLeadingZero cs) = some d.filled := by
  obtain ⟨c,rest,rfl,hpoint⟩ := decimal?_head h hd
  by_cases hwhole : d.whole = []
  · obtain rfl := hpoint.2 hwhole
    have hfilled : d.filled = { d with whole := [0] } := by simp [Decimal.filled,hwhole]
    rw [hfilled]
    exact decimal?_zero_cons h hwhole
  · have hfilled : d.filled = d := by simp [Decimal.filled,hwhole]
    rw [hfilled,withLeadingZero_of_ne fun hc => hwhole (hpoint.1 hc)]
    exact h

end Parts

theorem not_hasBase {cs : List Char} (h : ∀ c ∈ cs, c ∉ ['x','X','b','B']) : ¬hasBase cs := by
  match cs with
  | [] => exact Bool.false_ne_true
  | [c] => simp [hasBase_singleton]
  | c :: next :: rest =>
    have hnext : next ∉ ['x','X','b','B'] := h next (by simp)
    simp [hasBase_cons_cons,hnext]

theorem isOctalDigit_of_octalDigits? {cs ds : List Char} (h : octalDigits? cs = some ds) :
    ∀ c ∈ cs, isOctalDigit c ∨ c = '_' := by
  have hdigits : ∀ {d : Char} {rest : List Char}, octalDigits?.digits d rest = some ds →
      ∀ c ∈ d :: rest, isOctalDigit c ∨ c = '_' := by
    intro d rest hrest
    unfold octalDigits?.digits at hrest
    split_ifs at hrest with hall
    simp only [Bool.and_eq_true,List.all_eq_true,Bool.or_eq_true,decide_eq_true_eq] at hall
    exact List.forall_mem_cons.2 ⟨.inl hall.1,hall.2⟩
  have hzero : isOctalDigit '0' := by decide
  unfold octalDigits? at h
  split at h
  · exact List.forall_mem_cons.2 ⟨.inl hzero,List.forall_mem_cons.2 ⟨.inr rfl,hdigits h⟩⟩
  · exact List.forall_mem_cons.2 ⟨.inl hzero,hdigits h⟩
  · cases h

theorem withOctalBase_of_mark {cs : List Char} (h : ∃ c ∈ cs, c ∈ ['.','e','E']) :
    withOctalBase cs = cs := by
  have hmarks : ∀ c ∈ ['.','e','E'], ¬(isOctalDigit c ∨ c = '_') := by simp [isOctalDigit]
  obtain ⟨c,hc,hmark⟩ := h
  -- A point or an exponent is no octal digit.
  cases hoctal : octalDigits? cs with
  | none => rw [withOctalBase,hoctal]
  | some ds => exact absurd (isOctalDigit_of_octalDigits? hoctal c hc) (hmarks c hmark)

section Respelling
variable {cs : List Char}

theorem respell_mem_iff {c : Char} {marks : List Char} (hmarks : '\x27' ∉ marks ∧ '_' ∉ marks) :
    respell c ∈ marks ↔ c ∈ marks := by
  by_cases hc : c = '\x27'
  · subst hc
    exact iff_of_false hmarks.2 hmarks.1
  · rw [respell,if_neg hc]

theorem respell_eq_iff {c mark : Char} (hmark : '\x27' ≠ mark ∧ '_' ≠ mark) :
    respell c = mark ↔ c = mark := by
  have hmarks : '\x27' ∉ [mark] ∧ '_' ∉ [mark] := by simpa using hmark
  simpa using respell_mem_iff (c := c) hmarks

theorem digitsOrNone_respell {ds : List Nat} (h : digitsOrNone '\x27' cs = some ds) :
    digitsOrNone '_' (cs.map respell) = some ds := by
  by_cases hcs : cs = []
  · subst hcs
    exact h
  · rw [digitsOrNone,if_neg hcs] at h
    rw [digitsOrNone,if_neg (by simpa using hcs)]
    exact digits?_respell h

theorem number?_respell {base n : Nat} (h : number? base '\x27' cs = some n) :
    number? base '_' (cs.map respell) = some n := by
  obtain ⟨ds,hds,rfl⟩ := digitRun_of_number? h
  exact hds.respell.number?_eq

theorem fraction?_respell {fraction : Option (List Nat)}
    (h : fraction? '\x27' cs = some fraction) : fraction? '_' (cs.map respell) = some fraction := by
  cases cs with
  | nil => exact h
  | cons c cs =>
    obtain ⟨ds,hds,rfl⟩ := Option.map_eq_some_iff.1 h
    simp [fraction?,digitsOrNone_respell hds]

theorem signed?_respell {n : Int} (h : signed? '\x27' cs = some n) :
    signed? '_' (cs.map respell) = some n := by
  cases cs with
  | nil => exact h
  | cons c cs =>
    have hminus : respell c = '-' ↔ c = '-' := respell_eq_iff (by decide)
    have hplus : respell c = '+' ↔ c = '+' := respell_eq_iff (by decide)
    rw [List.map_cons]
    by_cases hc : c = '-'
    · rw [signed?,if_pos hc] at h
      obtain ⟨m,hm,rfl⟩ := Option.map_eq_some_iff.1 h
      rw [signed?,if_pos (hminus.2 hc),number?_respell hm]
      rfl
    · rw [signed?,if_neg hc] at h
      obtain ⟨m,hm,rfl⟩ := Option.map_eq_some_iff.1 h
      have hm' := number?_respell hm
      rw [signed?,if_neg (mt hminus.1 hc)]
      by_cases hp : c = '+'
      · rw [if_pos hp] at hm'
        rw [if_pos (hplus.2 hp),hm']
        rfl
      · rw [if_neg hp] at hm'
        rw [if_neg (mt hplus.1 hp),← List.map_cons,hm']
        rfl

theorem exponent?_respell {exponent : Option Int} (h : exponent? '\x27' cs = some exponent) :
    exponent? '_' (cs.map respell) = some exponent := by
  cases cs with
  | nil => exact h
  | cons c cs =>
    obtain ⟨n,hn,rfl⟩ := Option.map_eq_some_iff.1 h
    simp [exponent?,signed?_respell hn]

theorem decimal?_respell {d : Decimal} (h : decimal? '\x27' cs = some d) :
    decimal? '_' (cs.map respell) = some d := by
  obtain ⟨hwhole,hfraction,hexponent⟩ := decimal?_eq_some.1 h
  -- Neither the point nor the letter of the exponent is respelled, so the text is cut at the same places.
  have hletters : ((fun c => decide (c ∉ ['e','E'])) ∘ respell) = fun c => decide (c ∉ ['e','E']) := by
    funext c
    exact decide_eq_decide.2 (not_congr (respell_mem_iff (by decide)))
  have hpoints : ((fun c => decide (c ≠ '.')) ∘ respell) = fun c => decide (c ≠ '.') := by
    funext c
    exact decide_eq_decide.2 (not_congr (respell_eq_iff (by decide)))
  refine decimal?_eq_some.2 ⟨?_,?_,?_⟩
  · rw [List.takeWhile_map,hletters,List.takeWhile_map,hpoints]
    exact digitsOrNone_respell hwhole
  · rw [List.takeWhile_map,hletters,List.dropWhile_map,hpoints]
    exact fraction?_respell hfraction
  · rw [List.dropWhile_map,hletters]
    exact exponent?_respell hexponent

end Respelling

/-- A decimal floating number of the source language becomes a decimal number with the same digits, the
same exponent and the same value. It is a number of the target language if and only if it has no
needless zero in front. -/
theorem numeral_floating {body suffix : String} {d : Decimal}
    (h : decimal? '\x27' body.toList = some d) (hd : d.IsFloating)
    (hsuffix : suffix ∈ ["","f","F","l","L"]) :
    decimal? '_' (numeral (body ++ suffix)).toList = some d.filled ∧ d.filled.value = d.value ∧
      (d.filled.IsStrict ↔ ¬d.HasNeedlessZero) := by
  refine ⟨?_,d.value_filled,d.isStrict_filled_iff⟩
  have hletters : ∀ c ∈ suffix.toList, c ∈ typeLetters := by
    have hall : ∀ s ∈ ["","f","F","l","L"], ∀ c ∈ s.toList, c ∈ typeLetters := by simp [typeLetters]
    exact hall suffix hsuffix
  have hspelled : decimal? '_' (body.toList.map respell) = some d := decimal?_respell h
  have hplain : ¬hasBase (body.toList.map respell) :=
    not_hasBase (decimal?_not_base (by decide) hspelled)
  obtain ⟨front,c,hcs,hc⟩ := decimal?_getLast h hd
  rw [numeral,String.toList_ofList,String.toList_append,numeralChars_plain hplain hcs hc hletters,
    withOctalBase_of_mark (decimal?_mark hspelled hd)]
  exact decimal?_withLeadingZero hspelled hd

theorem numeral_floating_pointed :
    decimal? '\x27' ".1'25e-1'0".toList = some ⟨[],some [1,2,5],some (-10)⟩ ∧
      numeral (".1'25e-1'0" ++ "L") = "0.1_25e-1_0" ∧
      decimal? '_' "0.1_25e-1_0".toList = some ⟨[0],some [1,2,5],some (-10)⟩ ∧
      Decimal.IsStrict ⟨[0],some [1,2,5],some (-10)⟩ := by
  have hbody : decimal? '\x27' ".1'25e-1'0".toList = some ⟨[],some [1,2,5],some (-10)⟩ := by decide
  have hfloating : Decimal.IsFloating ⟨[],some [1,2,5],some (-10)⟩ := by
    simp [Decimal.IsFloating,Decimal.decimals]
  have hspelled : numeral (".1'25e-1'0" ++ "L") = "0.1_25e-1_0" := by decide
  have hsuffix : "L" ∈ ["","f","F","l","L"] := by decide
  obtain ⟨hdecimal,-,hstrict⟩ := numeral_floating hbody hfloating hsuffix
  refine ⟨hbody,hspelled,hspelled ▸ hdecimal,hstrict.2 ?_⟩
  simp [Decimal.HasNeedlessZero]

/-- A zero in front of the whole part stays, so that the number is none of the target language. -/
theorem numeral_padded_floating :
    decimal? '\x27' "017.5".toList = some ⟨[0,1,7],some [5],none⟩ ∧
      Decimal.IsFloating ⟨[0,1,7],some [5],none⟩ ∧ numeral "017.5" = "017.5" ∧
      decimal? '_' "017.5".toList = some ⟨[0,1,7],some [5],none⟩ ∧
      ¬Decimal.IsStrict ⟨[0,1,7],some [5],none⟩ := by
  refine ⟨by decide,?_,by decide,by decide,?_⟩
  · simp [Decimal.IsFloating]
  · simp [Decimal.IsStrict]

end Text
end Scribe
