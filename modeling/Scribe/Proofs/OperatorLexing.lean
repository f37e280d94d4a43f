import Mathlib.Data.List.Chain
import Scribe.Text.Blank

/-! Operators in a text. The text is read from left to right with the longest sign first, over
names, numbers and quoted texts. A text that is spelled out of operands and signs reads as these
signs, unless a sign stands directly in front of another one that it takes a character from. -/
namespace Scribe
namespace Lexing
open Text

-- What is said of the characters of a list is decided on the list, not on all characters.
local instance (priority := 2000) decidableForallChars (p : Char → Prop) [DecidablePred p]
    (cs : List Char) : Decidable (∀ c ∈ cs, p c) :=
  List.decidableBAll p cs

local instance (priority := 2000) decidableForallChar (p : Char → Prop) [DecidablePred p]
    (o : Option Char) : Decidable (∀ c ∈ o, p c) :=
  Option.decidableForallMem o

/-- The operators of the output language, and the two signs that start a comment. Every beginning
of one is one too, so the longest is found by going on as long as possible. -/
def signs : List (List Char) :=
  ["+", "-", "*", "/", "%", "**", "++", "--", "<<", ">>", ">>>", "<", ">", "<=", ">=", "==", "!=",
    "===", "!==", "&", "|", "^", "!", "~", "&&", "||", "??", "?", ":", "=", "+=", "-=", "*=", "/=",
    "%=", "**=", "<<=", ">>=", ">>>=", "&=", "|=", "^=", "&&=", "||=", "??=", "=>", "?.", "//",
    "/*"].map String.toList

def isWord (c : Char) : Bool :=
  c.isAlphanum || c == '_' || c == '$' || (128 ≤ c.toNat && !isBlank c)

inductive Quote where
  | single
  | double
deriving DecidableEq

def Quote.char : Quote → Char
  | single => '\x27'
  | double => '"'

def quote? (c : Char) : Option Quote :=
  if c = '\x27' then some .single else if c = '"' then some .double else none

/-- What has been begun and may go on with the next character. -/
inductive Mode where
  | free
  | name
  /-- A zero, which a base may follow. -/
  | zero
  | digits
  | exponent
  | exponentSign
  | quoted (quote : Quote)
  | escaped (quote : Quote)
  | sign (text : List Char)
deriving DecidableEq

/-- What a character begins. -/
def fresh (c : Char) : Mode :=
  if [c] ∈ signs then .sign [c]
  else match quote? c with
    | some quote => .quoted quote
    | none =>
      if c = '0' then .zero
      else if c.isDigit then .digits
      else if isWord c then .name
      else .free

def inNumber (c : Char) : Mode :=
  if c ∈ ['e', 'E'] then .exponent
  else if isWord c || c = '.' then .digits
  else fresh c

def next (mode : Mode) (c : Char) : Mode :=
  match mode with
  | .free => fresh c
  | .name => if isWord c then .name else fresh c
  | .zero => if c ∈ ['x', 'X', 'b', 'B', 'o', 'O'] then .name else inNumber c
  | .digits => inNumber c
  | .exponent => if c ∈ ['+', '-'] then .exponentSign else inNumber c
  | .exponentSign => inNumber c
  | .quoted quote =>
    if c = '\\' then .escaped quote else if c = quote.char then .free else .quoted quote
  | .escaped quote => .quoted quote
  | .sign text => if text ++ [c] ∈ signs then .sign (text ++ [c]) else fresh c

/-- The sign that ends in front of a character. -/
def ended (mode : Mode) (c : Char) : List String :=
  match mode with
  | .sign text => if text ++ [c] ∈ signs then [] else [String.ofList text]
  | _ => []

/-- The signs that are read from characters behind what has been begun. -/
def signsFrom (mode : Mode) : List Char → List String
  | [] =>
    match mode with
    | .sign text => [String.ofList text]
    | _ => []
  | c :: cs => ended mode c ++ signsFrom (next mode c) cs

/-- The operators of a text in order. -/
def operatorsIn (text : String) : List String := signsFrom .free text.toList

def Mode.isSign : Mode → Bool
  | .sign _ => true
  | _ => false

def Mode.isQuoted : Mode → Bool
  | .quoted _ => true
  | _ => false

/-- One character of an operand: it begins no sign, and only the end of a quoted text may have
nothing go on. -/
def quietly (mode : Mode) (c : Char) : Option Mode :=
  if (next mode c).isSign || next mode c = .free && !mode.isQuoted then none
  else some (next mode c)

def Mode.isClosed : Mode → Bool
  | .free | .name | .zero | .digits => true
  | _ => false

def Mode.isNumeric : Mode → Bool
  | .zero | .digits => true
  | _ => false

/-- Where reading a text as an operand ends, if it is one. -/
def operandEnd? (text : String) : Option Mode :=
  if text.isEmpty then none else (text.toList.foldlM quietly .free).filter Mode.isClosed

/-- A piece of an expression in a text. -/
inductive Piece where
  | operand (text : String)
  /-- A bracket, comma or dot, with any blanks around it. -/
  | mark (c : Char)
  /-- A sign without blanks. -/
  | tight (sign : String)
  /-- A sign between two blanks. -/
  | spaced (sign : String)
  /-- A sign in front of a blank. -/
  | loose (sign : String)
deriving DecidableEq

namespace Piece

def sign? : Piece → Option String
  | tight sign | spaced sign | loose sign => some sign
  | _ => none

def isTight : Piece → Bool
  | tight _ => true
  | _ => false

/-- The ways in which a piece is spelled. -/
inductive Spelled : Piece → List Char → Prop
  | operand (text : String) : Spelled (.operand text) text.toList
  | mark (c : Char) {before behind : List Char} : (∀ b ∈ before, isBlank b) →
    (∀ b ∈ behind, isBlank b) → Spelled (.mark c) (before ++ c :: behind)
  | tight (sign : String) : Spelled (.tight sign) sign.toList
  | spaced (sign : String) : Spelled (.spaced sign) (' ' :: (sign.toList ++ [' ']))
  | loose (sign : String) {before : List Char} : (∀ b ∈ before, isBlank b) →
    Spelled (.loose sign) (before ++ (sign.toList ++ [' ']))

/-- Operands are read as such, and signs are operators. -/
def Proper : Piece → Prop
  | operand text => (operandEnd? text).isSome
  | mark c => c ∈ ['(', ')', '[', ']', ',', '.']
  | tight sign => sign.toList ∈ signs ∧ sign ≠ "?"
  | spaced sign => sign.toList ∈ signs
  | loose sign => sign ∈ ["?", ":"]

instance (p : Piece) : Decidable p.Proper :=
  match p with
  | operand text => inferInstanceAs (Decidable ((operandEnd? text).isSome))
  | mark c => inferInstanceAs (Decidable (c ∈ ['(', ')', '[', ']', ',', '.']))
  | tight sign => inferInstanceAs (Decidable (sign.toList ∈ signs ∧ sign ≠ "?"))
  | spaced sign => inferInstanceAs (Decidable (sign.toList ∈ signs))
  | loose sign => inferInstanceAs (Decidable (sign ∈ ["?", ":"]))

/-- No operand goes on in another one, and no number in a fraction. -/
def Divided : Piece → Piece → Prop
  | operand _, operand _ => False
  | operand text, mark c => c = '.' → (operandEnd? text).any Mode.isNumeric = false
  | _, _ => True

instance : DecidableRel Divided
  | operand _, operand _ => inferInstanceAs (Decidable False)
  | operand text, mark c =>
    inferInstanceAs (Decidable (c = '.' → (operandEnd? text).any Mode.isNumeric = false))
  | operand _, tight _ | operand _, spaced _ | operand _, loose _ | mark _, _ | tight _, _
  | spaced _, _ | loose _, _ => inferInstanceAs (Decidable True)

end Piece

def Merges (first second : String) : Prop := ∃ c ∈ second.toList.head?, first.toList ++ [c] ∈ signs

instance (first second : String) : Decidable (Merges first second) :=
  Option.decidableExistsMem second.toList.head?

/-- Two pieces that follow each other are not signs of which one goes on in the other. -/
def Piece.Apart : Piece → Piece → Prop
  | .tight first, .tight second => ¬Merges first second
  | _, _ => True

/-- Pieces that follow each other, each spelled in one of its ways. -/
inductive Spell : List Piece → List Char → Prop
  | nil : Spell [] []
  | cons {p ps word cs} : Piece.Spelled p word → Spell ps cs → Spell (p :: ps) (word ++ cs)

def signsOf (ps : List Piece) : List String := ps.filterMap Piece.sign?

section Characters
variable {c : Char}

theorem ne_of_isBlank (h : isBlank c) {d : Char} (hd : isBlank d = false) : c ≠ d := by
  rintro rfl
  rw [hd] at h
  cases h

theorem isWord_eq_false_of_isBlank (h : isBlank c) : isWord c = false := by
  have hascii : c.isAlphanum = false := by
    by_contra halnum
    rw [Bool.not_eq_false] at halnum
    change ((decide (65 ≤ c.val ∧ c.val ≤ 90) || (decide (97 ≤ c.val) && decide (c.val ≤ 122))) ||
      (decide (48 ≤ c.val) && decide (c.val ≤ 57))) = true at halnum
    simp only [Bool.or_eq_true,Bool.and_eq_true,decide_eq_true_eq,UInt32.le_iff_toNat_le] at halnum
    change ((65 ≤ c.toNat ∧ c.toNat ≤ 90) ∨ (97 ≤ c.toNat ∧ c.toNat ≤ 122)) ∨
      (48 ≤ c.toNat ∧ c.toNat ≤ 57) at halnum
    simp only [isBlank,Bool.or_eq_true,Bool.and_eq_true,decide_eq_true_eq,beq_iff_eq] at h
    omega
  have hunderscore : c ≠ '_' := ne_of_isBlank h rfl
  have hdollar : c ≠ '$' := ne_of_isBlank h rfl
  simp [isWord,hascii,hunderscore,hdollar,h]

theorem of_mem_sign {sign : List Char} (h : sign ∈ signs) (hc : c ∈ sign) :
    isWord c = false ∧ isBlank c = false := by
  have hall : ∀ sign ∈ signs, ∀ c ∈ sign, isWord c = false ∧ isBlank c = false := by decide
  exact hall sign h c hc

theorem of_append_mem_signs {sign : List Char} (hne : sign ≠ []) (h : sign ++ [c] ∈ signs) :
    sign = ['?'] ∨ [c] ∈ signs ∧ c ∉ ['?',':'] := by
  have hall : ∀ sign ∈ signs, sign.dropLast ≠ [] → ∀ c ∈ sign.getLast?,
      sign.dropLast = ['?'] ∨ [c] ∈ signs ∧ c ∉ ['?',':'] := by decide
  simpa using hall _ h (by simpa using hne) c (by simp)

theorem ne_nil_of_mem_signs {sign : List Char} (h : sign ∈ signs) : sign ≠ [] := by
  rintro rfl
  exact absurd h (by decide)

theorem append_notMem_signs (h : isBlank c) (sign : List Char) : sign ++ [c] ∉ signs := by
  intro hmem
  have hc := (of_mem_sign hmem (List.mem_append_right sign (List.mem_singleton_self c))).2
  rw [h] at hc
  cases hc

theorem fresh_of_isBlank (h : isBlank c) : fresh c = .free := by
  have hword := isWord_eq_false_of_isBlank h
  have hsign : [c] ∉ signs := append_notMem_signs h []
  have hsingle : c ≠ '\x27' := ne_of_isBlank h rfl
  have hdouble : c ≠ '"' := ne_of_isBlank h rfl
  have hzero : c ≠ '0' := ne_of_isBlank h rfl
  have hdigit : c.isDigit = false := by
    simp only [isWord,Bool.or_eq_false_iff,Char.isAlphanum] at hword
    exact hword.1.1.1.2
  simp [fresh,hsign,quote?,hsingle,hdouble,hzero,hdigit,hword]

end Characters

theorem forall_mem_space : ∀ b ∈ [' '], isBlank b := by decide

theorem signsFrom_of_blanks {blanks : List Char} (h : ∀ b ∈ blanks, isBlank b) (cs : List Char) :
    signsFrom .free (blanks ++ cs) = signsFrom .free cs := by
  induction blanks with
  | nil => rfl
  | cons b blanks ih =>
    obtain ⟨hb,hblanks⟩ := List.forall_mem_cons.1 h
    rw [List.cons_append,signsFrom,next,fresh_of_isBlank hb,ih hblanks]
    rfl

theorem signsFrom_of_isClosed {mode : Mode} (hmode : mode.isClosed) {cs : List Char}
    (h : ∀ c ∈ cs.head?, isWord c = false ∧ (mode.isNumeric → c ≠ '.')) :
    signsFrom mode cs = signsFrom .free cs := by
  cases cs with
  | nil => cases mode <;> first | rfl | cases hmode
  | cons c cs =>
    obtain ⟨hword,hdot⟩ := h c rfl
    have hne : ∀ d : Char, isWord d → c ≠ d := by
      rintro d hd rfl
      rw [hword] at hd
      cases hd
    have hnumber : mode.isNumeric → inNumber c = fresh c := by
      intro hnumeric
      simp [inNumber,hne 'e' rfl,hne 'E' rfl,hword,hdot hnumeric]
    have hbase : c ∉ ['x','X','b','B','o','O'] := by
      simp [hne 'x' rfl,hne 'X' rfl,hne 'b' rfl,hne 'B' rfl,hne 'o' rfl,hne 'O' rfl]
    have hnext : next mode c = fresh c := by
      cases mode with
      | free => rfl
      | name => simp [next,hword]
      | zero => rw [next,if_neg hbase,hnumber rfl]
      | digits => exact hnumber rfl
      | _ => cases hmode
    have hended : ended mode c = [] := by cases mode <;> first | rfl | cases hmode
    rw [signsFrom,hended,hnext]
    rfl

theorem signsFrom_of_sign {sign cs : List Char} (h : ∀ c ∈ cs.head?, sign ++ [c] ∉ signs) :
    signsFrom (.sign sign) cs = String.ofList sign :: signsFrom .free cs := by
  cases cs with
  | nil => rfl
  | cons c cs =>
    have hc := h c rfl
    simp only [signsFrom,ended,next,if_neg hc]
    rfl

theorem signsFrom_append_sign {sign rest : List Char} (cs : List Char)
    (h : ∀ k, k < rest.length → sign ++ rest.take (k + 1) ∈ signs) :
    signsFrom (.sign sign) (rest ++ cs) = signsFrom (.sign (sign ++ rest)) cs := by
  induction rest generalizing sign with
  | nil => simp
  | cons c rest ih =>
    have hc : sign ++ [c] ∈ signs := by simpa using h 0 (by simp)
    have hrest : ∀ k, k < rest.length → sign ++ [c] ++ rest.take (k + 1) ∈ signs := by
      intro k hk
      simpa using h (k + 1) (by simpa using hk)
    rw [List.cons_append,signsFrom,ended,next,if_pos hc,if_pos hc,List.nil_append,ih hrest,
      List.append_assoc,List.singleton_append]

theorem take_mem_signs {sign : List Char} (h : sign ∈ signs) {k : Nat} (hk : k < sign.length) :
    sign.take (k + 1) ∈ signs := by
  have hall : ∀ sign ∈ signs, ∀ k < sign.length, sign.take (k + 1) ∈ signs := by decide
  exact hall sign h k hk

theorem signsFrom_free_sign {sign : List Char} (h : sign ∈ signs) (cs : List Char) :
    signsFrom .free (sign ++ cs) = signsFrom (.sign sign) cs := by
  cases sign with
  | nil => exact absurd h (by decide)
  | cons c rest =>
    have hc : [c] ∈ signs := by simpa using take_mem_signs h (k := 0) (by simp)
    have hgo : signsFrom (.sign [c]) (rest ++ cs) = signsFrom (.sign ([c] ++ rest)) cs :=
      signsFrom_append_sign cs fun k hk => by
        simpa using take_mem_signs h (k := k + 1) (by simpa using hk)
    rw [List.cons_append,signsFrom,next,fresh,if_pos hc]
    exact hgo

theorem signsFrom_sign_cons (sign cs : List Char) :
    ∃ text rest, signsFrom (.sign sign) cs = text :: rest ∧ sign <+: text.toList := by
  induction cs generalizing sign with
  | nil => exact ⟨String.ofList sign,[],rfl,by simp⟩
  | cons c cs ih =>
    by_cases hc : sign ++ [c] ∈ signs
    · obtain ⟨text,rest,hsigns,hlonger⟩ := ih (sign ++ [c])
      refine ⟨text,rest,?_,(List.prefix_append sign [c]).trans hlonger⟩
      rw [signsFrom,ended,next,if_pos hc,if_pos hc,hsigns]
      rfl
    · refine ⟨String.ofList sign,signsFrom .free (c :: cs),?_,by simp⟩
      exact signsFrom_of_sign fun d hd => by simpa using Option.mem_some.1 hd ▸ hc

theorem quietly_eq_some {mode other : Mode} {c : Char} : quietly mode c = some other ↔
    next mode c = other ∧ other.isSign = false ∧ (other = .free → mode.isQuoted) := by
  unfold quietly
  constructor
  · intro h
    split at h
    · cases h
    · rename_i hquiet
      obtain rfl := Option.some.inj h
      simpa using hquiet
  · rintro ⟨rfl,hsign,hfree⟩
    rw [if_neg]
    simpa [hsign] using hfree

theorem signsFrom_of_quietly {text cs : List Char} {mode last : Mode} (hmode : mode.isSign = false)
    (h : text.foldlM quietly mode = some last) :
    signsFrom mode (text ++ cs) = signsFrom last cs := by
  induction text generalizing mode with
  | nil =>
    obtain rfl : mode = last := by simpa using h
    rfl
  | cons c text ih =>
    obtain ⟨other,hother,hrest⟩ := Option.bind_eq_some_iff.1 (List.foldlM_cons.symm.trans h)
    obtain ⟨hnext,hsign,-⟩ := quietly_eq_some.1 hother
    have hended : ended mode c = [] := by cases mode <;> first | rfl | cases hmode
    rw [List.cons_append,signsFrom,hended,hnext,ih hsign hrest]
    rfl

theorem head_of_quietly {text : List Char} {c : Char} {last : Mode}
    (h : (c :: text).foldlM quietly .free = some last) : [c] ∉ signs ∧ isBlank c = false := by
  obtain ⟨other,hother,-⟩ := Option.bind_eq_some_iff.1 (List.foldlM_cons.symm.trans h)
  obtain ⟨hnext,hsign,hfree⟩ := quietly_eq_some.1 hother
  constructor
  · intro hmem
    rw [next,fresh,if_pos hmem] at hnext
    subst hnext
    cases hsign
  · by_contra hblank
    rw [next,fresh_of_isBlank (by simpa using hblank)] at hnext
    exact absurd (hfree hnext.symm) (by decide)

theorem next_of_isBlank {c : Char} (h : isBlank c) (mode : Mode) :
    mode.isQuoted = false ∧ next mode c = .free ∨ ∃ quote, next mode c = .quoted quote := by
  have hne : ∀ d : Char, isBlank d = false → c ≠ d := fun d hd => ne_of_isBlank h hd
  have hnumber : inNumber c = .free := by
    simp [inNumber,hne 'e' rfl,hne 'E' rfl,hne '.' rfl,isWord_eq_false_of_isBlank h,
      fresh_of_isBlank h]
  cases mode with
  | free => exact .inl ⟨rfl,fresh_of_isBlank h⟩
  | name => exact .inl ⟨rfl,by simp [next,isWord_eq_false_of_isBlank h,fresh_of_isBlank h]⟩
  | zero =>
    have hbase : c ∉ ['x','X','b','B','o','O'] := by
      simp [hne 'x' rfl,hne 'X' rfl,hne 'b' rfl,hne 'B' rfl,hne 'o' rfl,hne 'O' rfl]
    exact .inl ⟨rfl,(if_neg hbase).trans hnumber⟩
  | digits | exponentSign => exact .inl ⟨rfl,hnumber⟩
  | exponent =>
    have hsign : c ∉ ['+','-'] := by simp [hne '+' rfl,hne '-' rfl]
    exact .inl ⟨rfl,(if_neg hsign).trans hnumber⟩
  | quoted quote =>
    have hquote : c ≠ quote.char := by
      cases quote
      · exact hne '\x27' rfl
      · exact hne '"' rfl
    exact .inr ⟨quote,by simp [next,hne '\\' rfl,hquote]⟩
  | escaped quote => exact .inr ⟨quote,rfl⟩
  | sign text =>
    exact .inl ⟨rfl,(if_neg (append_notMem_signs h text)).trans (fresh_of_isBlank h)⟩

theorem getLast_of_quietly {text : List Char} {c : Char} {mode last : Mode}
    (h : (text ++ [c]).foldlM quietly mode = some last) (hlast : last.isClosed) :
    isBlank c = false := by
  obtain ⟨other,-,hother⟩ := Option.bind_eq_some_iff.1 (List.foldlM_append.symm.trans h)
  obtain ⟨last',hc,hnil⟩ := Option.bind_eq_some_iff.1 (List.foldlM_cons.symm.trans hother)
  obtain rfl : last' = last := by simpa using hnil
  obtain ⟨rfl,hsign,hfree⟩ := quietly_eq_some.1 hc
  by_contra hblank
  have hblank : isBlank c = true := by simpa using hblank
  rcases next_of_isBlank hblank other with ⟨hquoted,hnext⟩ | ⟨quote,hnext⟩
  · rw [hfree hnext] at hquoted
    cases hquoted
  · rw [hnext] at hlast
    cases hlast

namespace Piece

/-- What a piece may begin with. -/
def Begins : Piece → Char → Prop
  | operand text, c | tight text, c => c ∈ text.toList.head?
  | mark d, c => isBlank c ∨ c = d
  | spaced _, c => isBlank c
  | loose text, c => isBlank c ∨ c ∈ text.toList.head?

theorem head_append_of_blanks {P : Char → Prop} {blanks rest : List Char} {d : Char}
    (hblanks : ∀ b ∈ blanks, isBlank b) (hd : P d) (hP : ∀ b, isBlank b → P b) :
    ∃ c word, blanks ++ d :: rest = c :: word ∧ P c := by
  cases blanks with
  | nil => exact ⟨d,rest,rfl,hd⟩
  | cons b blanks => exact ⟨b,blanks ++ d :: rest,rfl,hP b (hblanks b (.head _))⟩

theorem Proper.sign_mem {p : Piece} (hp : p.Proper) {sign : String} (h : p.sign? = some sign) :
    sign.toList ∈ signs := by
  cases p with
  | operand text | mark c => cases h
  | tight text =>
    obtain rfl := Option.some.inj h
    exact hp.1
  | spaced text =>
    obtain rfl := Option.some.inj h
    exact hp
  | loose text =>
    obtain rfl := Option.some.inj h
    have hall : ∀ text ∈ ["?",":"], text.toList ∈ signs := by decide
    exact hall text hp

theorem Spelled.begins {p : Piece} {word : List Char} (h : p.Spelled word) (hp : p.Proper) :
    ∃ c rest, word = c :: rest ∧ p.Begins c := by
  have hcons : ∀ {text : List Char}, text ≠ [] → ∃ c rest, text = c :: rest ∧ c ∈ text.head? := by
    intro text htext
    cases text with
    | nil => exact absurd rfl htext
    | cons c rest => exact ⟨c,rest,rfl,rfl⟩
  cases h with
  | operand text =>
    apply hcons
    intro hnil
    simp [Proper,operandEnd?,String.toList_eq_nil_iff.1 hnil] at hp
  | mark c hbefore hbehind =>
    exact head_append_of_blanks hbefore (.inr rfl) fun b hb => .inl hb
  | tight sign => exact hcons (ne_nil_of_mem_signs (hp.sign_mem rfl))
  | spaced sign => exact ⟨' ',_,rfl,rfl⟩
  | loose sign hbefore =>
    obtain ⟨c,rest,htext,hc⟩ := hcons (ne_nil_of_mem_signs (hp.sign_mem rfl))
    rw [htext,List.cons_append]
    exact head_append_of_blanks hbefore (.inr hc) fun b hb => .inl hb

theorem Begins.ends {text : String} {p : Piece} {c : Char} (h : p.Begins c) (hp : p.Proper)
    (hdivided : Divided (.operand text) p) :
    isWord c = false ∧ ((operandEnd? text).any Mode.isNumeric → c ≠ '.') := by
  have hblank : ∀ {c : Char}, isBlank c →
      isWord c = false ∧ ((operandEnd? text).any Mode.isNumeric → c ≠ '.') := by
    refine fun hb => ⟨isWord_eq_false_of_isBlank hb,fun _ hdot => ?_⟩
    rw [hdot] at hb
    cases hb
  have hsign : ∀ {sign : String} {c : Char}, sign.toList ∈ signs → c ∈ sign.toList.head? →
      isWord c = false ∧ ((operandEnd? text).any Mode.isNumeric → c ≠ '.') := by
    intro sign c hmem hc
    have hall : ∀ sign ∈ signs, ∀ c ∈ sign.head?, isWord c = false ∧ c ≠ '.' := by decide
    exact ⟨(hall _ hmem c hc).1,fun _ => (hall _ hmem c hc).2⟩
  cases p with
  | operand other => exact hdivided.elim
  | mark d =>
    rcases h with hb | rfl
    · exact hblank hb
    · have hall : ∀ d ∈ ['(',')','[',']',',','.'], isWord d = false := by decide
      refine ⟨hall c hp,fun hnumeric hdot => ?_⟩
      rw [hdivided hdot] at hnumeric
      cases hnumeric
  | tight sign => exact hsign hp.1 h
  | spaced sign => exact hblank h
  | loose sign =>
    rcases h with hb | hc
    · exact hblank hb
    · exact hsign (hp.sign_mem rfl) hc

theorem Begins.tight {p : Piece} {c : Char} (h : p.Begins c) (hp : p.Proper) (hc : [c] ∈ signs)
    (hother : c ∉ ['?',':']) : ∃ sign, p = .tight sign := by
  have hblank : ¬isBlank c := fun hb => append_notMem_signs hb [] hc
  cases p with
  | operand text =>
    cases htext : text.toList with
    | nil => simp [Begins,htext] at h
    | cons d rest =>
      obtain rfl : d = c := by simpa [Begins,htext] using h
      obtain ⟨mode,hmode⟩ := Option.isSome_iff_exists.1 hp
      rw [operandEnd?] at hmode
      split at hmode
      · cases hmode
      · rw [htext] at hmode
        exact absurd hc (head_of_quietly (Option.filter_eq_some_iff.1 hmode).1).1
  | mark d =>
    obtain rfl := h.resolve_left hblank
    have hall : ∀ d ∈ ['(',')','[',']',',','.'], [d] ∉ signs := by decide
    exact absurd hc (hall c hp)
  | tight sign => exact ⟨sign,rfl⟩
  | spaced sign => exact absurd h hblank
  | loose sign =>
    have hall : ∀ text ∈ ["?",":"], ∀ c ∈ text.toList.head?, c ∈ ['?',':'] := by decide
    exact absurd (hall sign hp c (h.resolve_left hblank)) hother

theorem Begins.goes_on {sign : String} (hsign : Proper (.tight sign)) {p : Piece} {c : Char}
    (h : p.Begins c) (hp : p.Proper) : sign.toList ++ [c] ∈ signs ↔ ¬Apart (.tight sign) p := by
  constructor
  · intro hmem
    rcases of_append_mem_signs (ne_nil_of_mem_signs hsign.1) hmem with hquestion | ⟨hc,hother⟩
    · exact absurd (String.toList_inj.1 hquestion) hsign.2
    · obtain ⟨other,rfl⟩ := h.tight hp hc hother
      exact not_not.2 ⟨c,h,hmem⟩
  · intro hmerges
    cases p with
    | tight other =>
      obtain ⟨d,hd,hmem⟩ := not_not.1 hmerges
      exact Option.mem_unique h hd ▸ hmem
    | _ => exact absurd trivial hmerges

end Piece

/-- Pieces that can be told from each other: all are proper, and no operand goes on in the next
piece. -/
structure Legible (ps : List Piece) : Prop where
  proper : ∀ p ∈ ps, p.Proper
  divided : ps.IsChain Piece.Divided

theorem Legible.tail {p : Piece} {ps : List Piece} (h : Legible (p :: ps)) : Legible ps :=
  ⟨(List.forall_mem_cons.1 h.proper).2,(List.isChain_cons.1 h.divided).2⟩

theorem Spell.begins {ps : List Piece} {cs : List Char} (h : Spell ps cs)
    (hps : ∀ p ∈ ps, p.Proper) : ∀ c ∈ cs.head?, ∃ p ∈ ps.head?, p.Proper ∧ p.Begins c := by
  intro c hc
  cases h with
  | nil => cases hc
  | @cons p _ _ _ hp _ =>
    have hproper := hps p (.head _)
    obtain ⟨d,rest,rfl,hd⟩ := hp.begins hproper
    obtain rfl : d = c := by simpa using hc
    exact ⟨p,rfl,hproper,hd⟩

theorem signsOf_cons (p : Piece) (ps : List Piece) :
    signsOf (p :: ps) = p.sign?.toList ++ signsOf ps := by
  cases h : p.sign? <;> simp [signsOf,h]

/-- What is read from a legible piece that no sign in front of it goes on with. -/
theorem signsFrom_piece {p : Piece} {word cs : List Char} (h : p.Spelled word) (hp : p.Proper)
    (hoperand : ∀ text, p = .operand text →
      ∀ c ∈ cs.head?, isWord c = false ∧ ((operandEnd? text).any Mode.isNumeric → c ≠ '.'))
    (htight : ∀ sign, p = .tight sign → ∀ c ∈ cs.head?, sign.toList ++ [c] ∉ signs) :
    signsFrom .free (word ++ cs) = p.sign?.toList ++ signsFrom .free cs := by
  have hblank : ∀ sign : String, sign.toList ∈ signs →
      signsFrom .free (sign.toList ++ ' ' :: cs) = sign :: signsFrom .free cs := by
    intro sign hsign
    have hspace : ∀ c ∈ (' ' :: cs).head?, sign.toList ++ [c] ∉ signs := by
      intro c hc
      obtain rfl : ' ' = c := by simpa using hc
      exact append_notMem_signs rfl sign.toList
    rw [signsFrom_free_sign hsign,signsFrom_of_sign hspace,String.ofList_toList]
    exact congrArg _ (signsFrom_of_blanks forall_mem_space cs)
  cases h with
  | operand text =>
    obtain ⟨mode,hmode⟩ := Option.isSome_iff_exists.1 hp
    have hends := hoperand text rfl
    rw [hmode] at hends
    rw [operandEnd?] at hmode
    split at hmode
    · cases hmode
    · obtain ⟨hquiet,hclosed⟩ := Option.filter_eq_some_iff.1 hmode
      rw [signsFrom_of_quietly rfl hquiet,signsFrom_of_isClosed hclosed (by simpa using hends)]
      rfl
  | mark c hbefore hbehind =>
    have hall : ∀ c ∈ ['(',')','[',']',',','.'], fresh c = .free := by decide
    rw [List.append_assoc,signsFrom_of_blanks hbefore,List.cons_append,signsFrom,next,hall c hp]
    exact signsFrom_of_blanks hbehind cs
  | tight sign =>
    rw [signsFrom_free_sign hp.1,signsFrom_of_sign (htight sign rfl),String.ofList_toList]
    rfl
  | spaced sign =>
    have hsigns := hblank sign (hp.sign_mem rfl)
    have hspace := signsFrom_of_blanks forall_mem_space (sign.toList ++ ' ' :: cs)
    simpa [Piece.sign?] using hspace.trans hsigns
  | loose sign hbefore =>
    have hsigns := hblank sign (hp.sign_mem rfl)
    simpa [Piece.sign?] using (signsFrom_of_blanks hbefore (sign.toList ++ ' ' :: cs)).trans hsigns

theorem signsFrom_ne_of_merges {sign : String} (hsign : Piece.Proper (.tight sign))
    {ps : List Piece} {cs : List Char} (h : Spell ps cs) (hps : ∀ p ∈ ps, p.Proper) {q : Piece}
    (hq : q ∈ ps.head?) (hmerges : ¬Piece.Apart (.tight sign) q) :
    signsFrom .free (sign.toList ++ cs) ≠ signsOf (.tight sign :: ps) := by
  cases h with
  | nil => cases hq
  | @cons p _ word cs hp _ =>
    obtain rfl : p = q := by simpa using hq
    have hproper := hps p (.head _)
    obtain ⟨c,rest,rfl,hc⟩ := hp.begins hproper
    have hgoes := (hc.goes_on hsign hproper).2 hmerges
    obtain ⟨text,more,hread,hlonger⟩ := signsFrom_sign_cons (sign.toList ++ [c]) (rest ++ cs)
    rw [signsFrom_free_sign hsign.1,List.cons_append,signsFrom,ended,next,if_pos hgoes,if_pos hgoes,
      List.nil_append,hread,signsOf_cons]
    intro heq
    obtain rfl : text = sign := (List.cons.inj heq).1
    have hlength := hlonger.length_le
    rw [List.length_append,List.length_singleton] at hlength
    omega

/-- From legible pieces their signs are read exactly if no tight sign goes on in the next one. -/
theorem signsFrom_spell {ps : List Piece} {cs : List Char} (h : Spell ps cs) (hps : Legible ps) :
    signsFrom .free cs = signsOf ps ↔ ps.IsChain Piece.Apart := by
  induction h with
  | nil => simp [signsFrom,signsOf]
  | @cons p ps word cs hp hspell ih =>
    have hbegins := hspell.begins hps.tail.proper
    have hproper := hps.proper p (.head _)
    have hoperand : ∀ text, p = .operand text → ∀ c ∈ cs.head?,
        isWord c = false ∧ ((operandEnd? text).any Mode.isNumeric → c ≠ '.') := by
      rintro text rfl c hc
      obtain ⟨q,hq,hqproper,hqc⟩ := hbegins c hc
      exact hqc.ends hqproper ((List.isChain_cons.1 hps.divided).1 q hq)
    rw [List.isChain_cons]
    -- Only a tight sign can fail to be apart from the next piece; all else ends by itself.
    by_cases hapart : ∀ q ∈ ps.head?, p.Apart q
    · have htight : ∀ sign, p = .tight sign → ∀ c ∈ cs.head?, sign.toList ++ [c] ∉ signs := by
        rintro sign rfl c hc
        obtain ⟨q,hq,hqproper,hqc⟩ := hbegins c hc
        rw [hqc.goes_on hproper hqproper,not_not]
        exact hapart q hq
      rw [signsFrom_piece hp hproper hoperand htight,signsOf_cons,List.append_cancel_left_eq,
        ih hps.tail,and_iff_right hapart]
    · -- The first sign that is read is longer than the first one spelled, whatever follows.
      refine iff_of_false ?_ fun hchain => hapart hchain.1
      simp only [not_forall] at hapart
      obtain ⟨q,hq,hmerges⟩ := hapart
      cases hp with
      | tight sign => exact signsFrom_ne_of_merges hproper hspell hps.tail.proper hq hmerges
      | _ => exact absurd trivial hmerges

end Lexing
end Scribe
