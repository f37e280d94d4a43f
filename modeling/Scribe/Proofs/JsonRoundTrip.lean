import Mathlib.Data.List.DropRight
import Mathlib.Tactic
import Scribe.Json.Reader
import Scribe.Json.Writer

/-! JSON documents read back. A string is read as it was written, whatever characters are in
it, and so is every value without numbers, however it is indented and whatever follows. -/
namespace Scribe
namespace Json

theorem hexValue?_hexDigit : ∀ d < 16, hexValue? (Text.hexDigit d) = some d := by decide

theorem unit?_hex {n : Nat} (h : n < 0x10000) : ∃ a b c d, Text.hex 4 n = [a,b,c,d] ∧
    unit? a b c d = some n := by
  refine ⟨_,_,_,_,rfl,?_⟩
  have ha := hexValue?_hexDigit (n / 16 / 16 / 16 % 16) (by omega)
  have hb := hexValue?_hexDigit (n / 16 / 16 % 16) (by omega)
  have hc := hexValue?_hexDigit (n / 16 % 16) (by omega)
  have hd := hexValue?_hexDigit (n % 16) (by omega)
  simp only [unit?,ha,hb,hc,hd,Option.some.injEq]
  omega

theorem isHigh_iff {n : Nat} : isHigh n ↔ 0xD800 ≤ n ∧ n < 0xDC00 := by simp [isHigh]

theorem isLow_iff {n : Nat} : isLow n ↔ 0xDC00 ≤ n ∧ n < 0xE000 := by simp [isLow]

theorem readString_escapeUnit {n : Nat} (h : n < 0x10000) (hhigh : ¬isHigh n) (hlow : ¬isLow n)
    (rest : List Char) :
    readString (escapeUnit n ++ rest) = consRead (Char.ofNat n) (readString rest) := by
  obtain ⟨a,b,c,d,hhex,hunit⟩ := unit?_hex h
  simp [escapeUnit,hhex,readString,hunit,hhigh,hlow]

theorem readString_pair {n m : Nat} (hn : n < 0x10000) (hm : m < 0x10000)
    (hhigh : isHigh n) (hlow : isLow m) (rest : List Char) :
    readString (escapeUnit n ++ escapeUnit m ++ rest) =
      consRead (ofUnits n m) (readString rest) := by
  obtain ⟨a,b,c,d,hhex,hunit⟩ := unit?_hex hn
  obtain ⟨e,f,g,i,hhex',hunit'⟩ := unit?_hex hm
  simp [escapeUnit,hhex,hhex',readString,hunit,hunit',hhigh,hlow]

theorem readString_cons {c : Char} (hquote : c ≠ '"') (hslash : c ≠ '\\')
    (hcontrol : 0x20 ≤ c.toNat) (rest : List Char) :
    readString (c :: rest) = consRead c (readString rest) := by
  rw [readString]
  · have hplain : ¬(c.toNat < 0x20 ∨ c = '\\') := by
      rintro (h | h)
      · omega
      · exact hslash h
    simp [hplain]
  · exact hquote
  · intro _ _ _ _ _ h
    exact absurd h hslash
  · intro _ _ h
    exact absurd h hslash

theorem toNat_valid (c : Char) :
    c.toNat < 0xD800 ∨ (0xDFFF < c.toNat ∧ c.toNat < 0x110000) := c.valid

theorem ofUnits_units {c : Char} (h : 0x10000 ≤ c.toNat) :
    ofUnits (highUnit c.toNat) (lowUnit c.toNat) = c := by
  have hsum : 0x10000 + (highUnit c.toNat - 0xD800) * 0x400 + (lowUnit c.toNat - 0xDC00) =
      c.toNat := by
    simp only [highUnit,lowUnit]
    omega
  rw [ofUnits,hsum,Char.ofNat_toNat]

theorem readString_escapeChar (c : Char) (rest : List Char) :
    readString (escapeChar c ++ rest) = consRead c (readString rest) := by
  have hvalid := toNat_valid c
  unfold escapeChar
  split_ifs with hquote hslash hn hr ht hb hf hprintable hsmall
  · simp [hquote,readString,escaped?]
  · simp [hslash,readString,escaped?]
  · simp [hn,readString,escaped?]
  · simp [hr,readString,escaped?]
  · simp [ht,readString,escaped?]
  · simp [hb,readString,escaped?]
  · simp [hf,readString,escaped?]
  · simp only [Bool.and_eq_true,decide_eq_true_iff] at hprintable
    exact readString_cons hquote hslash hprintable.1 rest
  · rw [readString_escapeUnit hsmall,Char.ofNat_toNat]
    · rw [isHigh_iff]
      omega
    · rw [isLow_iff]
      omega
  · rw [readString_pair,ofUnits_units (by omega)]
    · simp only [highUnit]
      omega
    · simp only [lowUnit]
      omega
    · rw [isHigh_iff,highUnit]
      omega
    · rw [isLow_iff,lowUnit]
      omega

theorem readString_escape (cs rest : List Char) :
    readString (cs.flatMap escapeChar ++ '"' :: rest) = some (cs,rest) := by
  induction cs with
  | nil => simp [readString]
  | cons c cs ih => rw [List.flatMap_cons,List.append_assoc,readString_escapeChar,ih,consRead]

/-! Values. Between their parts there is blank space only, which is skipped. -/

@[simp] theorem skipSpace_skipSpace (cs : List Char) : skipSpace (skipSpace cs) = skipSpace cs :=
  List.dropWhile_idempotent isSpace cs

theorem skipSpace_cons {c : Char} (h : isSpace c = false) (cs : List Char) :
    skipSpace (c :: cs) = c :: cs := by
  simp [skipSpace,h]

@[simp] theorem skipSpace_newline (level : Nat) (cs : List Char) :
    skipSpace (newline level ++ cs) = skipSpace cs := by
  have hblank : ∀ c ∈ newline level, isSpace c = true := by
    intro c hc
    rcases List.mem_cons.1 hc with rfl | hc
    · rfl
    · rw [List.eq_of_mem_replicate hc]
      rfl
  rw [skipSpace,List.dropWhile_append_of_pos hblank]
  rfl

theorem readValue_skipSpace (fuel : Nat) (cs : List Char) :
    readValue fuel (skipSpace cs) = readValue fuel cs := by
  cases fuel with
  | zero => rfl
  | succ fuel => simp only [readValue,skipSpace_skipSpace]

theorem readElements_skipSpace (fuel : Nat) (cs : List Char) :
    readElements fuel (skipSpace cs) = readElements fuel cs := by
  cases fuel with
  | zero => rfl
  | succ fuel => simp only [readElements,readValue_skipSpace]

theorem readMembers_skipSpace (fuel : Nat) (cs : List Char) :
    readMembers fuel (skipSpace cs) = readMembers fuel cs := by
  cases fuel with
  | zero => rfl
  | succ fuel => simp only [readMembers,skipSpace_skipSpace]

mutual
def Value.Numberless : Value → Prop
  | .number _ => False
  | .array vs => AllNumberless vs
  | .object ms => MembersNumberless ms
  | .null | .bool _ | .string _ => True

def AllNumberless : List Value → Prop
  | [] => True
  | v :: vs => v.Numberless ∧ AllNumberless vs

def MembersNumberless : List (String × Value) → Prop
  | [] => True
  | (_,v) :: ms => v.Numberless ∧ MembersNumberless ms
end

theorem write_eq_cons {v : Value} (hv : v.Numberless) (level : Nat) :
    ∃ c cs, write level v = c :: cs ∧ isSpace c = false ∧ c ≠ ']' ∧ c ≠ '\x7d' := by
  cases v with
  | null => exact ⟨'n',_,rfl,by decide⟩
  | bool b => cases b with
    | true => exact ⟨'t',_,rfl,by decide⟩
    | false => exact ⟨'f',_,rfl,by decide⟩
  | number n => exact absurd hv (by simp [Value.Numberless])
  | string s => exact ⟨'"',_,rfl,by decide⟩
  | array vs => cases vs with
    | nil => exact ⟨'[',_,rfl,by decide⟩
    | cons v vs => exact ⟨'[',_,rfl,by decide⟩
  | object ms => cases ms with
    | nil => exact ⟨'\x7b',_,rfl,by decide⟩
    | cons m ms => exact ⟨'\x7b',_,rfl,by decide⟩

section Steps
variable {fuel : Nat} {cs text more rest : List Char}

theorem readValue_array {vs : List Value} (hopen : ∀ t, skipSpace cs ≠ ']' :: t)
    (h : readElements fuel cs = some (vs,rest)) :
    readValue (fuel + 1) ('[' :: cs) = some (.array vs,rest) := by
  have hbracket : skipSpace ('[' :: cs) = '[' :: cs := skipSpace_cons rfl cs
  simp only [readValue,hbracket]
  rw [readElements_skipSpace,h,Option.map_some]

theorem readValue_object {ms : List (String × Value)} (hopen : ∀ t, skipSpace cs ≠ '\x7d' :: t)
    (h : readMembers fuel cs = some (ms,rest)) :
    readValue (fuel + 1) ('\x7b' :: cs) = some (.object ms,rest) := by
  have hbrace : skipSpace ('\x7b' :: cs) = '\x7b' :: cs := skipSpace_cons rfl cs
  simp only [readValue,hbrace]
  rw [readMembers_skipSpace,h,Option.map_some]

theorem readElements_last {v : Value} (hv : readValue fuel cs = some (v,more))
    (hclose : skipSpace more = ']' :: rest) :
    readElements (fuel + 1) cs = some ([v],rest) := by
  simp only [readElements,hv,hclose]

theorem readElements_cons {v : Value} {vs : List Value}
    (hv : readValue fuel cs = some (v,',' :: more))
    (hvs : readElements fuel more = some (vs,rest)) :
    readElements (fuel + 1) cs = some (v :: vs,rest) := by
  have hcomma : skipSpace (',' :: more) = ',' :: more := skipSpace_cons rfl more
  simp only [readElements,hv,hcomma,hvs,Option.map_some]

theorem readMembers_last {key : String} {v : Value}
    (hkey : skipSpace cs = escape key ++ ':' :: text)
    (hv : readValue fuel text = some (v,more)) (hclose : skipSpace more = '\x7d' :: rest) :
    readMembers (fuel + 1) cs = some ([(key,v)],rest) := by
  have hcolon : skipSpace (':' :: text) = ':' :: text := skipSpace_cons rfl text
  simp only [readMembers,hkey,escape,List.cons_append,List.append_assoc,List.nil_append,
    readString_escape,hcolon,hv,hclose,String.ofList_toList]

theorem readMembers_cons {key : String} {v : Value} {ms : List (String × Value)}
    (hkey : skipSpace cs = escape key ++ ':' :: text)
    (hv : readValue fuel text = some (v,',' :: more))
    (hms : readMembers fuel more = some (ms,rest)) :
    readMembers (fuel + 1) cs = some ((key,v) :: ms,rest) := by
  have hcolon : skipSpace (':' :: text) = ':' :: text := skipSpace_cons rfl text
  have hcomma : skipSpace (',' :: more) = ',' :: more := skipSpace_cons rfl more
  simp only [readMembers,hkey,escape,List.cons_append,List.append_assoc,List.nil_append,
    readString_escape,hcolon,hv,hcomma,hms,String.ofList_toList,Option.map_some]

end Steps

theorem skipSpace_close (level : Nat) (c : Char) (hc : isSpace c = false) (rest : List Char) :
    skipSpace (newline level ++ c :: rest) = c :: rest := by
  rw [skipSpace_newline,skipSpace_cons hc]

theorem readValue_newline (fuel level : Nat) (cs : List Char) :
    readValue fuel (newline level ++ cs) = readValue fuel cs := by
  rw [← readValue_skipSpace,skipSpace_newline,readValue_skipSpace]

theorem readValue_blank (fuel : Nat) (cs : List Char) :
    readValue fuel (' ' :: cs) = readValue fuel cs := by
  have hblank : skipSpace (' ' :: cs) = skipSpace cs := rfl
  rw [← readValue_skipSpace,hblank,readValue_skipSpace]

theorem skipSpace_writeElements {v : Value} (hv : v.Numberless) (vs : List Value) (level : Nat)
    (rest : List Char) : ∀ t, skipSpace (writeElements level (v :: vs) ++ rest) ≠ ']' :: t := by
  intro t ht
  obtain ⟨c,cs,hwrite,hspace,hclose,-⟩ := write_eq_cons hv level
  have hhead : ∃ more, skipSpace (writeElements level (v :: vs) ++ rest) = c :: more := by
    cases vs with
    | nil =>
      refine ⟨cs ++ rest,?_⟩
      rw [writeElements,hwrite,List.append_assoc,skipSpace_newline,List.cons_append,
        skipSpace_cons hspace]
    | cons w vs =>
      refine ⟨cs ++ (',' :: writeElements level (w :: vs) ++ rest),?_⟩
      rw [writeElements,hwrite,List.append_assoc,List.append_assoc,skipSpace_newline,
        List.cons_append,skipSpace_cons hspace]
  obtain ⟨more,hmore⟩ := hhead
  rw [hmore] at ht
  exact hclose (List.cons.inj ht).1

theorem skipSpace_escape (key : String) (cs : List Char) :
    skipSpace (escape key ++ cs) = escape key ++ cs := skipSpace_cons rfl _

theorem skipSpace_writeMembers (m : String × Value) (ms : List (String × Value)) (level : Nat)
    (rest : List Char) : ∀ t, skipSpace (writeMembers level (m :: ms) ++ rest) ≠ '\x7d' :: t := by
  intro t ht
  obtain ⟨key,v⟩ := m
  have hhead : ∃ more, skipSpace (writeMembers level ((key,v) :: ms) ++ rest) =
      escape key ++ more := by
    cases ms with
    | nil =>
      refine ⟨':' :: ' ' :: write level v ++ rest,?_⟩
      rw [writeMembers,List.append_assoc,List.append_assoc,skipSpace_newline,skipSpace_escape]
    | cons m ms =>
      refine ⟨':' :: ' ' :: write level v ++ (',' :: writeMembers level (m :: ms) ++ rest),?_⟩
      rw [writeMembers,List.append_assoc,List.append_assoc,List.append_assoc,skipSpace_newline,
        skipSpace_escape]
  obtain ⟨more,hmore⟩ := hhead
  rw [hmore] at ht
  exact absurd (List.cons.inj ht).1 (by decide)

mutual
/-- A written value is read back, whatever follows. Every step of the reader has a character of
its own, so as many steps as there are characters are enough. -/
theorem readValue_write : ∀ (v : Value), v.Numberless → ∀ (level fuel : Nat) (rest : List Char),
    (write level v).length ≤ fuel → readValue fuel (write level v ++ rest) = some (v,rest)
  -- Every value is written with a character at least, so the fuel is never used up.
  | v, hv, level, 0, rest, hfuel => by
    obtain ⟨c,cs,hwrite,-⟩ := write_eq_cons hv level
    simp [hwrite] at hfuel
  | .null, _, level, fuel + 1, rest, _ => rfl
  | .bool true, _, level, fuel + 1, rest, _ => rfl
  | .bool false, _, level, fuel + 1, rest, _ => rfl
  | .string s, _, level, fuel + 1, rest, _ => by
    have hquote : skipSpace ('"' :: (s.toList.flatMap escapeChar ++ '"' :: rest)) =
        '"' :: (s.toList.flatMap escapeChar ++ '"' :: rest) := skipSpace_cons rfl _
    simp [write,escape,readValue,hquote,readString_escape]
  | .array [], _, level, fuel + 1, rest, _ => rfl
  | .array (v :: vs), hv, level, fuel + 1, rest, hfuel => by
    have hwrite : write level (.array (v :: vs)) ++ rest =
        '[' :: (writeElements (level + 1) (v :: vs) ++ (newline level ++ ']' :: rest)) := by
      simp [write]
    rw [hwrite]
    apply readValue_array (skipSpace_writeElements hv.1 vs _ _)
    apply readElements_write (v :: vs) hv (by simp)
    simp only [write,List.length_cons,List.length_append] at hfuel
    omega
  | .object [], _, level, fuel + 1, rest, _ => rfl
  | .object (m :: ms), hv, level, fuel + 1, rest, hfuel => by
    have hwrite : write level (.object (m :: ms)) ++ rest =
        '\x7b' :: (writeMembers (level + 1) (m :: ms) ++ (newline level ++ '\x7d' :: rest)) := by
      simp [write]
    rw [hwrite]
    apply readValue_object (skipSpace_writeMembers m ms _ _)
    apply readMembers_write (m :: ms) hv (by simp)
    simp only [write,List.length_cons,List.length_append] at hfuel
    omega

theorem readElements_write : ∀ (vs : List Value), AllNumberless vs → vs ≠ [] →
    ∀ (level fuel outer : Nat) (rest : List Char), (writeElements level vs).length ≤ fuel →
    readElements fuel (writeElements level vs ++ (newline outer ++ ']' :: rest)) = some (vs,rest)
  | [v], hv, _, level, 0, outer, rest, hfuel => by simp [writeElements,newline] at hfuel
  | [v], hv, _, level, fuel + 1, outer, rest, hfuel => by
    have hread := readValue_write v hv.1 level fuel (newline outer ++ ']' :: rest) (by
      simp only [writeElements,newline,List.length_append,List.length_cons] at hfuel
      omega)
    rw [writeElements,List.append_assoc]
    refine readElements_last ?_ (skipSpace_close outer ']' rfl rest)
    rw [readValue_newline,hread]
  | v :: w :: vs, hv, _, level, 0, outer, rest, hfuel => by
    simp [writeElements,newline] at hfuel
  | v :: w :: vs, hv, _, level, fuel + 1, outer, rest, hfuel => by
    have hread := readValue_write v hv.1 level fuel
      (',' :: (writeElements level (w :: vs) ++ (newline outer ++ ']' :: rest))) (by
      simp only [writeElements,newline,List.length_append,List.length_cons] at hfuel
      omega)
    have hmore := readElements_write (w :: vs) hv.2 (by simp) level fuel outer rest (by
      simp only [writeElements,newline,List.length_append,List.length_cons] at hfuel ⊢
      omega)
    rw [writeElements,List.append_assoc,List.append_assoc]
    refine readElements_cons ?_ hmore
    rw [readValue_newline]
    exact hread

theorem readMembers_write : ∀ (ms : List (String × Value)), MembersNumberless ms → ms ≠ [] →
    ∀ (level fuel outer : Nat) (rest : List Char), (writeMembers level ms).length ≤ fuel →
    readMembers fuel (writeMembers level ms ++ (newline outer ++ '\x7d' :: rest)) = some (ms,rest)
  | [(key,v)], hv, _, level, 0, outer, rest, hfuel => by simp [writeMembers,newline] at hfuel
  | [(key,v)], hv, _, level, fuel + 1, outer, rest, hfuel => by
    have hread := readValue_write v hv.1 level fuel (newline outer ++ '\x7d' :: rest) (by
      simp only [writeMembers,newline,List.length_append,List.length_cons] at hfuel
      omega)
    rw [writeMembers,List.append_assoc,List.append_assoc]
    refine readMembers_last ((skipSpace_newline level _).trans (skipSpace_escape key _)) ?_
      (skipSpace_close outer '\x7d' rfl rest)
    exact (readValue_blank fuel _).trans hread
  | (key,v) :: m :: ms, hv, _, level, 0, outer, rest, hfuel => by
    simp [writeMembers,newline] at hfuel
  | (key,v) :: m :: ms, hv, _, level, fuel + 1, outer, rest, hfuel => by
    have hread := readValue_write v hv.1 level fuel
      (',' :: (writeMembers level (m :: ms) ++ (newline outer ++ '\x7d' :: rest))) (by
      simp only [writeMembers,newline,List.length_append,List.length_cons] at hfuel
      omega)
    have hmore := readMembers_write (m :: ms) hv.2 (by simp) level fuel outer rest (by
      simp only [writeMembers,newline,List.length_append,List.length_cons] at hfuel ⊢
      omega)
    rw [writeMembers,List.append_assoc,List.append_assoc,List.append_assoc]
    refine readMembers_cons ((skipSpace_newline level _).trans (skipSpace_escape key _)) ?_ hmore
    exact (readValue_blank fuel _).trans hread
end

/-- A document is read as the value that it was written for. -/
theorem parse_render {v : Value} (hv : v.Numberless) : parse (render v) = some v := by
  have hread := readValue_write v hv 0 (2 * (write 0 v).length + 2) [] (by omega)
  rw [List.append_nil] at hread
  have hchars : (render v).toList = write 0 v := String.toList_ofList
  rw [parse,hchars,parseChars,hread]
  rfl

end Json
end Scribe
