import Scribe.Proofs.ExpressionPieces

/-! Line breaks between statements. A statement that is no expression begins with a keyword or a
brace, so nothing in front of it goes on in it. An expression begins with the signs in front of its
leftmost operand, and nothing keeps it from going on the line before it. -/
namespace Scribe

namespace Text

theorem toList_join_cons (separator line : String) (rest : List String) :
    ∃ behind, (join separator (line :: rest)).toList = line.toList ++ behind := by
  cases rest with
  | nil => exact ⟨[],by simp⟩
  | cons next rest =>
    exact ⟨separator.toList ++ (join separator (next :: rest)).toList,by simp [join]⟩

theorem toList_foldl_glue (text : String) (lines : List String) :
    ∃ behind, (lines.foldl glue text).toList = text.toList ++ behind := by
  induction lines generalizing text with
  | nil => exact ⟨[],by simp⟩
  | cons line lines ih =>
    obtain ⟨behind,hbehind⟩ := ih (glue text line)
    rw [List.foldl_cons,hbehind]
    unfold glue
    split
    · exact ⟨line.toList ++ behind,by simp⟩
    · exact ⟨' ' :: (line.toList ++ behind),by simp⟩

theorem closeWith_cons (suffix line : String) (lines : List String) :
    ∃ behind rest, closeWith suffix (line :: lines) = (line ++ behind) :: rest := by
  cases lines with
  | nil => exact ⟨suffix,[],rfl⟩
  | cons next lines => exact ⟨"",closeWith suffix (next :: lines),by simp [closeWith]⟩

theorem wrap_eq_cons (front : String) (lines : List String) (suffix : String) :
    ∃ behind rest, wrap front lines suffix = (front ++ behind) :: rest := by
  cases lines with
  | nil => exact ⟨suffix,[],rfl⟩
  | cons line lines =>
    obtain ⟨behind,rest,hclosed⟩ := closeWith_cons suffix (front ++ line) lines
    exact ⟨line ++ behind,rest,by rw [wrap,hclosed,String.append_assoc]⟩

end Text

namespace Lexing
open Text

/-- A text that goes on a line before it without a semicolon: behind blanks it begins with a
bracket, a backquote, a slash, or a sign that is not doubled. -/
def continues (text : String) : Bool :=
  match text.toList.dropWhile isBlank with
  | [] => false
  | c :: rest => c ∈ ['(', '[', '\x60', '/'] || (c ∈ ['+', '-'] && rest.head? != some c)

/-- Lines of which the first begins with some characters, behind blanks. -/
def Opens (opening : List Char) (lines : List String) : Prop :=
  ∃ line rest blanks behind, lines = line :: rest ∧ (∀ b ∈ blanks, isBlank b) ∧
    line.toList = blanks ++ (opening ++ behind)

section Opens
variable {opening : List Char} {lines : List String}

theorem Opens.oneLine (h : Opens opening lines) (hsolid : Solid opening) :
    ∃ behind, (oneLine lines).toList = opening ++ behind := by
  obtain ⟨line,rest,blanks,behind,rfl,hblanks,hline⟩ := h
  obtain ⟨kept,hkept⟩ := hsolid.trimChars_opening hblanks behind
  have htrim : (trim line).toList = opening ++ kept := by simp [trim,hline,hkept]
  have hglue : glue "" (trim line) = trim line := by simp [glue]
  obtain ⟨more,hmore⟩ := toList_foldl_glue (trim line) (rest.map trim)
  refine ⟨kept ++ more,?_⟩
  rw [Text.oneLine,List.map_cons,List.foldl_cons,hglue,hmore,htrim,List.append_assoc]

theorem Opens.tight (h : Opens opening lines) (hsolid : Solid opening) :
    ∃ behind, (tight lines).toList = opening ++ behind := by
  obtain ⟨line,rest,blanks,behind,rfl,hblanks,hline⟩ := h
  obtain ⟨kept,hkept⟩ := hsolid.trimChars_opening hblanks behind
  have htrim : (trim line).toList = opening ++ kept := by simp [trim,hline,hkept]
  obtain ⟨more,hmore⟩ := toList_join_cons "" (trim line) (rest.map trim)
  refine ⟨kept ++ more,?_⟩
  rw [Text.tight,List.map_cons,hmore,htrim,List.append_assoc]

theorem opens_of_toList {line : String} {rest : List String}
    (h : ∃ behind, line.toList = opening ++ behind) : Opens opening (line :: rest) := by
  obtain ⟨behind,hbehind⟩ := h
  exact ⟨line,rest,[],behind,rfl,by simp,hbehind⟩

end Opens

theorem continues_of_opens {opening : List Char} {text : String} {blanks behind : List Char}
    (hsolid : Solid opening) (hsign : opening ∉ [['+'],['-']]) (hblanks : ∀ b ∈ blanks, isBlank b)
    (h : text.toList = blanks ++ (opening ++ behind)) :
    continues text = continues (String.ofList opening) := by
  have hnone : ∀ b ∈ ([] : List Char), isBlank b := by simp
  have hhead : ∃ c ∈ (opening ++ behind).head?, isBlank c = false := by
    rw [List.head?_append_of_ne_nil _ hsolid.ne_nil]
    exact hsolid.1
  have htext := dropWhile_isBlank_append hblanks hhead
  have hopening : opening.dropWhile isBlank = opening := dropWhile_isBlank_append hnone hsolid.1
  rw [continues,continues,h,htext,String.toList_ofList,hopening]
  cases opening with
  | nil => exact absurd rfl hsolid.ne_nil
  | cons c rest =>
    -- Only a lone sign depends on what comes next, and that is no opening here.
    cases rest with
    | nil =>
      have hc : c ∉ ['+','-'] := by simpa using hsign
      simp [hc]
    | cons d rest => simp

/-- What stands behind the signs in front: an operand without the blanks around it, or a mark. -/
def firstWord? : List Piece → Option String
  | [] => none
  | .tight _ :: rest => firstWord? rest
  | .operand text :: _ => some (trim text)
  | .mark c :: _ => some (String.singleton c)
  | .spaced sign :: _ | .loose sign :: _ => some sign

/-- How pieces begin: the signs in front and the first word behind them. -/
def opening : List Piece → String
  | [] => ""
  | .tight sign :: rest => sign ++ opening rest
  | .operand text :: _ => trim text
  | .mark c :: _ => String.singleton c
  | .spaced sign :: _ | .loose sign :: _ => sign

theorem firstWord?_append {ps : List Piece} {word : String} (h : firstWord? ps = some word)
    (qs : List Piece) : firstWord? (ps ++ qs) = some word ∧ opening (ps ++ qs) = opening ps := by
  induction ps with
  | nil => cases h
  | cons p ps ih =>
    cases p with
    | tight sign =>
      obtain ⟨hword,hopening⟩ := ih h
      exact ⟨hword,by rw [List.cons_append,opening,hopening,opening]⟩
    | _ => exact ⟨h,rfl⟩

/-- Pieces that begin with something to be seen behind the signs, and not with a lone sign for an
operand. -/
def Worded (ps : List Piece) : Prop :=
  (∀ word ∈ firstWord? ps, word ≠ "") ∧ opening ps ∉ ["+", "-"]

instance (ps : List Piece) : Decidable (Worded ps) :=
  have : Decidable (∀ word ∈ firstWord? ps, word ≠ "") := Option.decidableForallMem (firstWord? ps)
  inferInstanceAs (Decidable (_ ∧ _))

end Lexing

namespace Printing
open Program Text Lexing

/-- An expression is printed with its opening in front, if there is something to be seen. -/
def Led (place : Place) (n : Node) : Prop :=
  ∃ word, firstWord? n.pieces = some word ∧
    (word ≠ "" → Solid (opening n.pieces).toList ∧ Opens (opening n.pieces).toList (plain place n))

section Leading
variable {place : Place} {n : Node}

theorem Led.followed {left : Node} {qs : List Piece} (h : Led place left)
    (hpieces : n.pieces = left.pieces ++ qs)
    (hopens : ∀ o, Solid o → Opens o (plain place left) → Opens o (plain place n)) :
    Led place n := by
  obtain ⟨word,hword,hled⟩ := h
  obtain ⟨hfirst,hopening⟩ := firstWord?_append hword qs
  refine ⟨word,by rw [hpieces,hfirst],fun hne => ?_⟩
  obtain ⟨hsolid,hleft⟩ := hled hne
  rw [hpieces,hopening]
  exact ⟨hsolid,hopens _ hsolid hleft⟩

theorem Led.signed {value : Node} {sign : String} (h : Led place value)
    (hsign : Solid sign.toList) (hpieces : n.pieces = .tight sign :: value.pieces)
    (hplain : plain place n = [sign ++ oneLine (plain place value)]) : Led place n := by
  obtain ⟨word,hword,hled⟩ := h
  refine ⟨word,by rw [hpieces,firstWord?,hword],fun hne => ?_⟩
  obtain ⟨hsolid,hvalue⟩ := hled hne
  obtain ⟨behind,hbehind⟩ := hvalue.oneLine hsolid
  rw [hpieces,hplain,opening,String.toList_append]
  refine ⟨by simpa using hsign.append [] hsolid,opens_of_toList ⟨behind,?_⟩⟩
  rw [String.toList_append,hbehind,List.append_assoc]

theorem led_of_mark {c : Char} {qs : List Piece} (behind : String) (hc : isBlank c = false)
    (hpieces : n.pieces = .mark c :: qs)
    (hplain : plain place n = [String.singleton c ++ behind]) : Led place n := by
  refine ⟨String.singleton c,by rw [hpieces,firstWord?],fun _ => ?_⟩
  rw [hpieces,hplain,opening]
  refine ⟨solid_of_forall (by simp) (by simpa using hc),opens_of_toList ⟨behind.toList,?_⟩⟩
  rw [String.toList_append]

theorem led_of_operand {text : String} (hpieces : n.pieces = [.operand text])
    (hplain : plain place n = [text]) : Led place n := by
  refine ⟨trim text,by rw [hpieces,firstWord?],fun hne => ?_⟩
  obtain ⟨blanks,behind,hblanks,htext⟩ := exists_trimmed text.toList
  have htrim : (trim text).toList = trimChars text.toList := by simp [trim]
  rw [hpieces,hplain,opening,htrim]
  refine ⟨solid_trimChars ?_,text,[],blanks,behind,rfl,hblanks,htext⟩
  intro hempty
  exact hne (by rw [trim,hempty])

theorem opens_conditionalLines {o : List Char} {test success failure : List String}
    (h : Opens o test) (hsuccess : success ≠ []) (hfailure : failure ≠ []) :
    Opens o ((conditionalLines test success failure).getD []) := by
  obtain ⟨line,rest,blanks,behind,rfl,hblanks,hline⟩ := h
  cases success with
  | nil => exact absurd rfl hsuccess
  | cons s ss =>
    cases failure with
    | nil => exact absurd rfl hfailure
    | cons f fs => exact ⟨line,_,blanks,behind,rfl,hblanks,hline⟩

theorem opens_callLines {o behind : List Char} {callee : String} (h : callee.toList = o ++ behind)
    (arguments : List (List String)) : Opens o (callLines callee arguments) := by
  unfold callLines
  split
  · exact opens_of_toList ⟨behind ++ ("(" ++ join ", " arguments.flatten ++ ")").toList,by simp [h]⟩
  · exact opens_of_toList ⟨behind ++ ['('],by simp [h]⟩

theorem opens_path {o : List Char} {first : Node} (rest : List Node) (ho : Solid o)
    (h : Opens o (plain place first)) : Opens o [join "" (plainPath ((first :: rest).zip
      (plainEach place (first :: rest))))] := by
  obtain ⟨blanks,behind,hblanks,hstep⟩ : ∃ blanks behind, (∀ b ∈ blanks, isBlank b) ∧
      (plainStep true first (plain place first)).toList = blanks ++ (o ++ behind) := by
    cases first with
    | reference name =>
      obtain ⟨line,_,blanks,behind,hlines,hblanks,hline⟩ := h
      obtain ⟨rfl,-⟩ : name = line ∧ _ := by simpa [plain] using hlines
      exact ⟨blanks,behind,hblanks,hline⟩
    | _ =>
      obtain ⟨behind,hbehind⟩ := h.oneLine ho
      exact ⟨[],behind,by simp,hbehind⟩
  have hjoin : ∀ texts : List String, (join "" (plainStep true first (plain place first) ::
      texts)).toList = blanks ++ (o ++ (behind ++ texts.flatMap String.toList)) := by
    intro texts
    rw [toList_join_empty,List.flatMap_cons,hstep,List.append_assoc,List.append_assoc]
  exact ⟨_,[],blanks,_,rfl,hblanks,hjoin _⟩

theorem solid_sign {sign : String} (h : sign ∈ (Reading.binaryOperators ++
    Reading.unaryOperators).map operatorSign ++ Reading.updateOperators) : Solid sign.toList := by
  have hall : ∀ sign ∈ (Reading.binaryOperators ++ Reading.unaryOperators).map operatorSign ++
      Reading.updateOperators, sign.toList ≠ [] ∧ sign.toList.all fun c => !isBlank c := by decide
  obtain ⟨hne,hblank⟩ := hall sign h
  exact solid_of_forall hne (by simpa using hblank)

theorem opens_oneLine {o : List Char} {lines rest : List String} (behind : String) (ho : Solid o)
    (h : Opens o lines) : Opens o ((oneLine lines ++ behind) :: rest) := by
  obtain ⟨more,hmore⟩ := h.oneLine ho
  exact opens_of_toList ⟨more ++ behind.toList,by simp [hmore]⟩

theorem plain_ne_nil (hfits : Fits .expression n) : plain place n ≠ [] := by
  obtain ⟨hok,hlines⟩ := lines_of_fits rfl hfits place
  rw [← hlines]
  exact lines_ne_nil hfits.1 hok

theorem led_of_children {role : Role} (hrole : role.isValue) (hfits : Fits role n)
    (h : ∀ c ∈ n.children, Led place c) : Led place n := by
  obtain ⟨hadmits,hcomplete,hslots⟩ := fits_iff.1 hfits
  have hkind := kind_of_isValue hrole hadmits
  cases n with
  | binaryExpression operator left right =>
    have hleft := h left (.head _)
    cases right with
    | none =>
      have hsign : Solid (operatorSign operator).toList :=
        solid_sign (List.mem_append_left _ (List.mem_map_of_mem (List.mem_append_left _ hcomplete)))
      exact hleft.signed hsign (by rw [Node.pieces]) (by rw [plain])
    | some right =>
      refine hleft.followed (by rw [Node.pieces]) fun o ho hopens => ?_
      rw [plain,String.append_assoc,String.append_assoc,String.append_assoc]
      exact opens_oneLine _ ho hopens
  | unaryExpression operator value =>
    have hsign : Solid (operatorSign operator).toList :=
      solid_sign (List.mem_append_left _ (List.mem_map_of_mem (List.mem_append_right _ hcomplete)))
    exact (h value (.head _)).signed hsign (by rw [Node.pieces]) (by rw [plain])
  | updateExpression operator value isPostfix =>
    have hvalue := h value (.head _)
    cases isPostfix with
    | true =>
      refine hvalue.followed (by rw [Node.pieces]) fun o ho hopens => ?_
      rw [plain]
      exact opens_oneLine _ ho hopens
    | false =>
      have hsign := solid_sign (List.mem_append_right _ hcomplete)
      exact hvalue.signed hsign (by rw [Node.pieces]) (by simp [plain])
  | conditionalExpression test success failure =>
    refine (h test (.head _)).followed (by rw [Node.pieces]) fun o ho hopens => ?_
    -- The test has its lines only if the other two parts have some as well.
    have hthen : Fits .expression success := hslots (.expression,success) (by simp [Node.slots])
    have helse : Fits .expression failure := hslots (.expression,failure) (by simp [Node.slots])
    rw [plain]
    exact opens_conditionalLines hopens (plain_ne_nil hthen) (plain_ne_nil helse)
  | assignmentExpression left operator right =>
    refine (h left (.head _)).followed (by rw [Node.pieces]) fun o ho hopens => ?_
    obtain ⟨behind,rest,hwrap⟩ :=
      wrap_eq_cons (oneLine (plain place left) ++ " " ++ operator ++ " ") (plain place right) ""
    rw [plain,hwrap,String.append_assoc,String.append_assoc,String.append_assoc]
    exact opens_oneLine _ ho hopens
  | callExpression callee arguments =>
    refine (h callee (.head _)).followed (by rw [Node.pieces]) fun o ho hopens => ?_
    obtain ⟨behind,hbehind⟩ := hopens.tight ho
    rw [plain]
    exact opens_callLines hbehind _
  | parenthesizedExpression value =>
    refine led_of_mark (oneLine (plain place value) ++ ")") rfl (by rw [Node.pieces]) ?_
    rw [plain,String.append_assoc]
    rfl
  | index value =>
    refine led_of_mark (oneLine (plain place value) ++ "]") rfl (by rw [Node.pieces]) ?_
    rw [plain,String.append_assoc]
    rfl
  | path steps =>
    rw [Node.children_path] at h
    cases steps with
    | nil => exact absurd rfl hcomplete
    | cons first rest =>
      refine (h first (.head _)).followed (by rw [Node.pieces,piecesPath]) fun o ho hopens => ?_
      rw [plain]
      exact opens_path rest ho hopens
  | reference text | numberLiteral text | booleanLiteral text | nullLiteral | stringLiteral text
  | userDefinedLiteral text => exact led_of_operand (by rw [Node.pieces]) (by rw [plain])
  | _ => simp [Node.kind,Kind.isExpression] at hkind

theorem led_of_fits {role : Role} (hrole : role.isValue) (hfits : Fits role n) : Led place n :=
  induct_value hrole hfits fun _ _ hrole hfits h => led_of_children hrole hfits h

end Leading

/-- What statements begin with that are no expressions. -/
def statementStarts : List String :=
  ["const ", "let ", "function ", "\x7b", "\x7d", "if (", "for (", "while (", "do \x7b", "switch (",
    "case ", "default:", "return", "return ", "throw ", "break", "continue"]

/-- The first line, if any, begins like a statement that is no expression. -/
def Keyworded (lines : List String) : Prop :=
  ∀ line ∈ lines.head?, ∃ start ∈ statementStarts, ∃ behind, line = start ++ behind

section Keyworded
variable {lines more : List String}

theorem keyworded_nil : Keyworded [] := by simp [Keyworded]

theorem keyworded_cons {start : String} (hstart : start ∈ statementStarts) (behind : String) :
    Keyworded ((start ++ behind) :: lines) := by
  intro line hline
  obtain rfl : start ++ behind = line := by simpa using hline
  exact ⟨start,hstart,behind,rfl⟩

theorem keyworded_start {start : String} (hstart : start ∈ statementStarts) :
    Keyworded (start :: lines) := by
  simpa using keyworded_cons hstart ""

theorem Keyworded.append (h : Keyworded lines) (hmore : Keyworded more) :
    Keyworded (lines ++ more) := by
  cases lines with
  | nil => exact hmore
  | cons line lines => exact h

theorem keyworded_wrap {start : String} (hstart : start ∈ statementStarts) (suffix : String) :
    Keyworded (wrap start lines suffix) := by
  obtain ⟨behind,rest,hwrap⟩ := wrap_eq_cons start lines suffix
  rw [hwrap]
  exact keyworded_cons hstart behind

theorem Keyworded.braced (h : Keyworded lines) (hne : lines ≠ []) (statements : List String) :
    Keyworded (braced lines statements) := by
  cases lines with
  | nil => exact absurd rfl hne
  | cons line lines =>
    obtain ⟨start,hstart,behind,rfl⟩ := h line rfl
    obtain ⟨tail,rest,hclosed⟩ := closeWith_cons " \x7b" ("" ++ (start ++ behind)) lines
    rw [Printing.braced,wrap,hclosed,String.empty_append,String.append_assoc]
    exact keyworded_cons hstart (behind ++ tail)

end Keyworded

theorem keyworded_printed {x : Draft (List String)} (h : x.Results Keyworded) :
    Keyworded x.printed.lines := by
  cases hx : x.result with
  | ok lines => simpa [Recorded.printed,hx] using h lines hx
  | error e => simpa [Recorded.printed,hx] using keyworded_nil

theorem keyworded_append {p q : Printed} (hp : Keyworded p.lines) (hq : Keyworded q.lines) :
    Keyworded (p.append q).lines := by
  unfold Printed.append
  split
  · exact hp.append hq
  · exact hp

theorem keyworded_append_left {p : Printed} (hp : Keyworded p.lines)
    (hne : p.failure = none → p.lines ≠ []) (q : Printed) : Keyworded (p.append q).lines := by
  unfold Printed.append
  split
  · rename_i hok
    cases hlines : p.lines with
    | nil => exact absurd hlines (hne hok)
    | cons line lines => simpa [Keyworded,hlines] using hp
  · exact hp

theorem keyworded_concat {ps : List Printed} (h : ∀ p ∈ ps, Keyworded p.lines) :
    Keyworded (Printed.concat ps).lines := by
  induction ps with
  | nil => exact keyworded_nil
  | cons p ps ih =>
    obtain ⟨hp,hps⟩ := List.forall_mem_cons.1 h
    exact keyworded_append hp (ih hps)

theorem keyworded_declare (d : Declarator) (lines : List String) : Keyworded (declare d lines) := by
  unfold declare
  split
  · exact keyworded_wrap (by decide) ""
  · exact keyworded_wrap (by decide) ""

theorem keyworded_signature (name : String) (parameters : List String)
    (returnType : Option String) : Keyworded [signature name parameters returnType] := by
  unfold signature TypeName.annotate
  split
  · simp only [String.append_assoc]
    exact keyworded_cons (by decide) _
  · simp only [String.append_assoc]
    exact keyworded_cons (by decide) _

theorem keyworded_chainLines (arms : List (Option (List String) × List String)) :
    Keyworded (chainLines arms) := by
  cases arms with
  | nil => exact keyworded_start (by decide)
  | cons arm rest =>
    rcases arm with ⟨_ | condition,statements⟩
    · have hbrace : "\x7d" ∈ statementStarts := by decide
      exact keyworded_cons hbrace " else \x7b"
    · obtain ⟨behind,others,hwrap⟩ := wrap_eq_cons "if (" condition ") \x7b"
      simp only [chainLines,armHead,if_true,hwrap,List.cons_append]
      exact keyworded_cons (by decide) behind

/-- A statement that is no expression begins with a keyword or a brace, wherever it stands. -/
theorem keyworded_of_statement {n : Node} (hmember : Role.member.admits n.kind)
    (hkind : n.kind.isExpression = false) (place : Place) : Keyworded (print place n).lines := by
  cases n with
  | namespaceBlock name body =>
    rw [print,Printed.lines_concat_inSegment]
    exact keyworded_nil
  | declaration declarators =>
    rw [print]
    refine keyworded_concat fun p hp => ?_
    rw [← List.map_uncurry_zip_eq_zipWith] at hp
    obtain ⟨⟨d,x⟩,-,rfl⟩ := List.mem_map.1 hp
    exact keyworded_printed (Recorded.results_map (keyworded_declare d))
  | functionDefinition name parameters returnType body =>
    by_cases hscope : place.scope = .function
    · rw [print_function_inside hscope,functionDraft]
      refine keyworded_printed
        (Recorded.results_bind fun parameters => Recorded.results_map fun lines => ?_)
      exact (keyworded_signature _ _ _).braced (by simp) lines
    · rw [print_function_outside hscope]
      exact keyworded_nil
  | block statements =>
    rw [print]
    exact keyworded_printed (Recorded.results_map fun lines => keyworded_start (by decide))
  | ifStatement choices =>
    rw [print]
    exact keyworded_printed (Recorded.results_map keyworded_chainLines)
  | forStatement init test update body =>
    rw [print]
    refine keyworded_printed (Recorded.results_bind fun init => Recorded.results_bind fun test =>
      Recorded.results_bind fun update => Recorded.results_map fun lines => ?_)
    refine Keyworded.braced ?_ (by simp) lines
    simp only [forHead,String.append_assoc]
    exact keyworded_cons (by decide) _
  | whileStatement condition statements | switchStatement condition statements =>
    rw [print]
    refine keyworded_printed
      (Recorded.results_bind fun condition => Recorded.results_map fun lines => ?_)
    exact (keyworded_wrap (by decide) ")").braced (wrap_ne_nil _ _ _) lines
  | doStatement statements condition =>
    rw [print]
    exact keyworded_append_left (keyworded_start (by decide)) (by simp [Printed.text]) _
  | caseStatement isDefault test statements =>
    cases isDefault with
    | true =>
      rw [print]
      exact keyworded_append_left (keyworded_start (by decide)) (by simp [Printed.text]) _
    | false =>
      cases test with
      | none =>
        rw [print]
        exact keyworded_nil
      | some test =>
        rw [print]
        have hlabel : Keyworded ((print place test).draft.map fun lines =>
            wrap "case " lines ":").printed.lines :=
          keyworded_printed (Recorded.results_map fun lines => keyworded_wrap (by decide) ":")
        exact keyworded_append_left hlabel (HasLines.printed (.map fun _ => wrap_ne_nil _ _ _)) _
  | returnStatement value =>
    cases value with
    | none =>
      rw [print]
      exact keyworded_start (by decide)
    | some value =>
      rw [print]
      exact keyworded_printed (Recorded.results_map fun lines => keyworded_wrap (by decide) "")
  | throwStatement value =>
    rw [print]
    exact keyworded_printed (Recorded.results_map fun lines => keyworded_wrap (by decide) "")
  | breakStatement | continueStatement =>
    rw [print]
    exact keyworded_start (by decide)
  | _ => simp [Node.kind,Kind.isExpression,Role.admits] at hkind hmember

theorem Keyworded.not_continues {lines : List String} (h : Keyworded lines) :
    continues (join "\n" lines) = false := by
  have hstarts : ∀ start ∈ statementStarts, start.toList.head?.any fun c =>
      !isBlank c && decide (c ∉ ['(','[','\x60','/']) && decide (c ∉ ['+','-']) := by decide
  cases lines with
  | nil => rfl
  | cons line rest =>
    obtain ⟨start,hstart,behind,rfl⟩ := h line rfl
    obtain ⟨more,hmore⟩ := toList_join_cons "\n" (start ++ behind) rest
    obtain ⟨c,hc,hplain⟩ := (Option.any_eq_true _ _).1 (hstarts start hstart)
    obtain ⟨tail,htail⟩ : ∃ tail, start.toList = c :: tail := List.head?_eq_some_iff.1 hc
    obtain ⟨⟨hblank,hbracket⟩,hsign⟩ : (isBlank c = false ∧ c ∉ ['(','[','\x60','/']) ∧
        c ∉ ['+','-'] := by
      simpa only [Bool.and_eq_true,Bool.not_eq_true',decide_eq_true_eq] using hplain
    rw [continues,hmore,String.toList_append,htail,List.cons_append,List.cons_append,
      List.dropWhile_cons_of_neg (by simp [hblank])]
    simp [hbracket,hsign]

end Printing

namespace Program

/-- The groups of statements or declarations in a node. -/
def Node.bodies : Node → List (List Node)
  | .namespaceBlock _ body => [body]
  | .functionDefinition _ _ _ body => [body]
  | .block statements => [statements]
  | .ifStatement choices => choices.map Choice.statements
  | .forStatement _ _ _ body => [body]
  | .whileStatement _ statements => [statements]
  | .doStatement statements _ => [statements]
  | .switchStatement _ statements => [statements]
  | .caseStatement _ _ statements => [statements]
  | _ => []

theorem Node.mem_slots_of_bodies {n c : Node} {siblings : List Node} (h : siblings ∈ n.bodies)
    (hc : c ∈ siblings) : (.member,c) ∈ n.slots := by
  cases n with
  | ifStatement choices =>
    obtain ⟨choice,hchoice,rfl⟩ := List.mem_map.1 h
    simp only [slots,List.mem_flatMap]
    exact ⟨choice,hchoice,by simp [hc]⟩
  | _ => simp_all [bodies,slots]

theorem allFit_of_siblings {program siblings : List Node} (h : AllFit .member program)
    (hsiblings : siblings = program ∨ ∃ n ∈ walk program, siblings ∈ n.bodies) :
    AllFit .member siblings := by
  rcases hsiblings with rfl | ⟨n,hn,hbody⟩
  · exact h
  · have hsorted : Everywhere Node.Sorted program := everywhere_iff.2 fun n hn => (h n hn).2
    intro c hc
    exact (everywhere_sorted_iff.1 (hsorted.of_mem hn)).2 _ (Node.mem_slots_of_bodies hbody hc)

theorem everywhere_siblings {P : Node → Prop} {program siblings : List Node}
    (h : Everywhere P program)
    (hsiblings : siblings = program ∨ ∃ n ∈ walk program, siblings ∈ n.bodies) :
    Everywhere P siblings := by
  rcases hsiblings with rfl | ⟨n,hn,hbody⟩
  · exact h
  · refine everywhere_iff.2 fun c hc => ?_
    have hchild : c ∈ n.children := Node.mem_children.2 ⟨_,Node.mem_slots_of_bodies hbody hc⟩
    exact everywhere_iff.1 (everywhere_singleton.1 (h.of_mem hn)).2 c hchild

end Program

namespace Printing
open Program Text Lexing Reading

/-- An expression goes on the line before it exactly if its opening does. -/
theorem continues_of_fits {n : Node} (hfits : Fits .expression n) (hworded : Worded n.pieces)
    (place : Place) :
    continues (join "\n" (print place n).lines) = continues (opening n.pieces) := by
  obtain ⟨-,hlines⟩ := lines_of_fits rfl hfits place
  have hbegins : Led place n := led_of_fits rfl hfits
  obtain ⟨word,hword,hled⟩ := hbegins
  obtain ⟨hsolid,line,rest,blanks,behind,hplain,hblanks,hline⟩ := hled (hworded.1 word hword)
  obtain ⟨more,hmore⟩ := toList_join_cons "\n" line rest
  have htext : (join "\n" (line :: rest)).toList =
      blanks ++ ((opening n.pieces).toList ++ (behind ++ more)) := by
    rw [hmore,hline,List.append_assoc,List.append_assoc]
  have hsign : (opening n.pieces).toList ∉ [['+'],['-']] := by
    have hlone := hworded.2
    simp only [List.mem_cons,List.not_mem_nil,or_false,String.ext_iff] at hlone ⊢
    exact hlone
  rw [hlines,hplain,continues_of_opens hsolid hsign hblanks htext,String.ofList_toList]

theorem failureAt_siblings {root : ParseTree} {program siblings : List Node} {d : Document}
    (hread : (readFile root).result = .ok program) (hd : document program = .ok d)
    (hsiblings : siblings = program ∨ ∃ n ∈ walk program, siblings ∈ n.bodies) (place : Place) :
    ∀ n ∈ siblings, failureAt place n = none := by
  have hfits := readFile_allFit hread
  have hsorted : Everywhere Node.Sorted program := everywhere_iff.2 fun n hn => (hfits n hn).2
  have hlabelled : Everywhere Node.Labelled program := by
    rcases document_of_sorted hsorted with ⟨-,hall⟩ | ⟨herror,-⟩
    · exact hall
    · rw [hd] at herror
      cases herror
  intro n hn
  have hown := everywhere_iff.1 (everywhere_siblings hlabelled hsiblings) n hn
  rcases failureAt_of_sorted n place (allFit_of_siblings hfits hsiblings n hn).2 with
    ⟨hok,-⟩ | ⟨-,hbare⟩
  · exact hok
  · exact absurd hown hbare

/-- Two neighbours among the statements of a program that has been read and printed stand on lines
that follow each other directly, and the second one goes on the line before it exactly if it is an
expression that begins with a bracket, a backquote, a slash or a sign that is not doubled. -/
theorem continues_sibling_iff {root : ParseTree} {program : List Node} {d : Document}
    (hread : (readFile root).result = .ok program) (hd : document program = .ok d)
    {siblings before after : List Node} {first second : Node}
    (hsiblings : siblings = program ∨ ∃ n ∈ walk program, siblings ∈ n.bodies)
    (hsplit : siblings = before ++ first :: second :: after) (hworded : Worded second.pieces)
    (place : Place) :
    (Printed.concat (printAll place siblings)).lines =
        before.flatMap (fun n => (print place n).lines) ++ ((print place first).lines ++
          ((print place second).lines ++ after.flatMap fun n => (print place n).lines)) ∧
      (siblings = program → d.segments = before.flatMap (segmentsOf .top) ++
        (segmentsOf .top first ++ (segmentsOf .top second ++ after.flatMap (segmentsOf .top)))) ∧
      (continues (join "\n" (print place second).lines) ↔
        second.kind.isExpression ∧ continues (opening second.pieces)) := by
  refine ⟨?_,?_,?_⟩
  · have hall : ∀ p ∈ printAll place siblings, p.failure = .none := by
      rw [printAll_eq_map]
      exact List.forall_mem_map.2 (failureAt_siblings hread hd hsiblings place)
    rw [Printed.lines_concat hall,printAll_eq_map,hsplit]
    simp [List.flatMap_map]
  · rintro rfl
    rw [(segments_of_document hd).2,hsplit]
    simp
  · have hmem : second ∈ siblings := by simp [hsplit]
    have hmember := allFit_of_siblings (readFile_allFit hread) hsiblings second hmem
    by_cases hkind : second.kind.isExpression
    · rw [continues_of_fits ⟨hkind,hmember.2⟩ hworded place]
      simp [hkind]
    · have hstart := keyworded_of_statement hmember.1 (by simpa using hkind) place
      simp [hstart.not_continues,hkind]

/-- `void f() { a = b; ... }`, with a statement behind the assignment. -/
def assignedFile (second : ParseTree) : ParseTree :=
  .node "translation_unit" "" [.node "function_definition" "" [.node "primitive_type" "void" [],
    .node "function_declarator" "" [.node "identifier" "f" [],
      .node "parameter_list" "()" [.node "(" "(" [],.node ")" ")" []]],
    .node "compound_statement" "" [.node "\x7b" "\x7b" [],
      .node "expression_statement" "" [
        .node "assignment_expression" "" [.node "identifier" "a" [],.node "=" "=" [],
          .node "identifier" "b" []],
        .node ";" ";" []],
      .node "expression_statement" "" [second,.node ";" ";" []],
      .node "\x7d" "\x7d" []]]]

def assignment : Node := .assignmentExpression (.reference "a") "=" (.reference "b")

def assignedProgram (second : Node) : List Node :=
  [.functionDefinition "f" [] (some "void") [assignment,second]]

/-- `++(g).n`. -/
def steppedTree : ParseTree :=
  .node "update_expression" "" [.node "++" "++" [],
    .node "field_expression" "" [
      .node "parenthesized_expression" "" [.node "(" "(" [],.node "identifier" "g" [],
        .node ")" ")" []],
      .node "." "." [],.node "field_identifier" "n" []]]

def steppedExpression : Node :=
  .updateExpression "++"
    (.path [.parenthesizedExpression (.reference "g"),.reference "n"]) false

def steppedDocument : Document :=
  ⟨[[],["function f(): void \x7b","  a = b","  ++(g).n","\x7d"]]⟩

theorem continues_sibling_steppedExpression :
    (readFile (assignedFile steppedTree)).result = .ok (assignedProgram steppedExpression) ∧
      document (assignedProgram steppedExpression) = .ok steppedDocument ∧
      Worded steppedExpression.pieces ∧ opening steppedExpression.pieces = "++(" ∧
      ¬continues (join "\n" (print .top steppedExpression).lines) := by
  have hread : (readFile (assignedFile steppedTree)).result =
      .ok (assignedProgram steppedExpression) := rfl
  have hd : document (assignedProgram steppedExpression) = .ok steppedDocument := rfl
  have hworded : Worded steppedExpression.pieces := by decide
  have hbody : ∃ n ∈ walk (assignedProgram steppedExpression),
      [assignment,steppedExpression] ∈ n.bodies :=
    ⟨.functionDefinition "f" [] (some "void") [assignment,steppedExpression],
      by simp [assignedProgram,walk_cons],.head _⟩
  have hsplit : [assignment,steppedExpression] = [] ++ assignment :: steppedExpression :: [] := rfl
  obtain ⟨-,-,hiff⟩ := continues_sibling_iff hread hd (.inr hbody) hsplit hworded .top
  exact ⟨hread,hd,hworded,by decide,fun hcontinues => absurd (hiff.1 hcontinues).2 (by decide)⟩

/-- `(g)(c)`. -/
def calledTree : ParseTree :=
  .node "call_expression" "" [
    .node "parenthesized_expression" "" [.node "(" "(" [],.node "identifier" "g" [],
      .node ")" ")" []],
    .node "argument_list" "" [.node "(" "(" [],.node "identifier" "c" [],.node ")" ")" []]]

def calledExpression : Node :=
  .callExpression (.parenthesizedExpression (.reference "g")) [.reference "c"]

def calledDocument : Document :=
  ⟨[[],["function f(): void \x7b","  a = b","  (g)(c)","\x7d"]]⟩

/-- Without a semicolon the assigned value is called behind the line break. -/
theorem continues_calledExpression :
    (readFile (assignedFile calledTree)).result = .ok (assignedProgram calledExpression) ∧
      document (assignedProgram calledExpression) = .ok calledDocument ∧
      (print .top calledExpression).lines = ["(g)(c)"] ∧ continues "(g)(c)" := by
  exact ⟨rfl,rfl,by decide,by decide⟩

end Printing
end Scribe
