import Scribe.Proofs.RuleInvariant
import Scribe.Proofs.Segments

/-! Files put behind one another. An item is read and printed without regard to those in front
of it, so what comes of two lists of items in a row is what comes of the first and then of the
second. -/
namespace Scribe

namespace Recorded
variable {ω ε α β γ : Type}

theorem ok_bind (a : α) (f : α → Recorded ω ε β) : (ok a).bind f = f a := rfl

theorem bind_ok (x : Recorded ω ε α) : (x.bind fun a => ok a) = x := by
  rcases x with ⟨record,result⟩
  cases result with
  | error e => rfl
  | ok a => simp [bind]

theorem bind_assoc (x : Recorded ω ε α) (f : α → Recorded ω ε β) (g : β → Recorded ω ε γ) :
    (x.bind f).bind g = x.bind fun a => (f a).bind g := by
  rcases x with ⟨record,result⟩
  cases result with
  | error e => rfl
  | ok a => cases hfa : (f a).result <;> simp [bind,hfa]

theorem map_bind (x : Recorded ω ε α) (f : α → Recorded ω ε β) (g : β → γ) :
    (x.bind f).map g = x.bind fun a => (f a).map g := by
  rcases x with ⟨record,result⟩
  cases result <;> rfl

end Recorded

namespace Reading
open Program

theorem readChildren_append (rule : Rule) (context : String) (s : rule.State)
    (xs ys : List ParseTree) :
    readChildren rule context s (xs ++ ys) =
      (readChildren rule context s xs).bind fun t => readChildren rule context t ys := by
  induction xs generalizing s with
  | nil => rw [readChildren_nil,Recorded.ok_bind,List.nil_append]
  | cons x xs ih =>
    rw [List.cons_append,readChildren_cons,readChildren_cons]
    split
    · exact ih s
    · split
      · exact ih _
      · rw [Recorded.bind_assoc]
        simp only [ih]
      · rfl
      · rfl

/-- Go over items of a node of kind `context`, behind those that have been read. -/
def readItems (context : String) (items : List Node) (children : List ParseTree) :
    Outcome (List Node) :=
  readChildren .items context items children

theorem readItems_cons (context : String) (items : List Node) (child : ParseTree)
    (rest : List ParseTree) :
    readItems context items (child :: rest) =
      if isNoise child.kind ∨ child.kind ∈ ["\x7b","\x7d"] then readItems context items rest
      else match item? child.kind with
        | some plan => (read plan.rule context child).bind fun value =>
          readItems context (items ++ plan.build value) rest
        | none => .unsupported child.kind context := by
  refine (readChildren_cons .items context items child rest).trans ?_
  by_cases hnoise : isNoise child.kind
  · rw [if_pos hnoise,if_pos (.inl hnoise)]
    rfl
  · by_cases hbrace : child.kind ∈ ["\x7b","\x7d"]
    · have hkeep : Rule.step .items items (head child) = .keep items := if_pos hbrace
      rw [if_neg hnoise,if_pos (.inr hbrace),hkeep]
      rfl
    · have hexpect : Rule.step .items items (head child) =
          .expect (item? child.kind) fun more : List Node => (items ++ more : List Node) :=
        if_neg hbrace
      rw [if_neg hnoise,if_neg (not_or.2 ⟨hnoise,hbrace⟩),hexpect]
      cases item? child.kind <;> rfl

theorem readItems_append (context : String) (before items : List Node)
    (children : List ParseTree) :
    readItems context (before ++ items) children =
      (readItems context items children).map (before ++ ·) := by
  induction children generalizing items with
  | nil => rfl
  | cons child rest ih =>
    rw [readItems_cons,readItems_cons]
    split
    · exact ih items
    · split
      · rename_i plan _
        rw [Recorded.map_bind]
        simp only [← ih,List.append_assoc]
      · rfl

def fileOf (text : String) (items : List ParseTree) : ParseTree :=
  .node "translation_unit" text items

theorem readFile_fileOf (text : String) (items : List ParseTree) :
    readFile (fileOf text items) = readItems "translation_unit" [] items := by
  have hread : readFile (fileOf text items) =
      (readItems "translation_unit" [] items).bind fun program => .ok program :=
    (readFile_of_unit rfl).trans (read_node "translation_unit" text items)
  rw [hread,Recorded.bind_ok]

theorem readFile_append (text text₁ text₂ : String) (xs ys : List ParseTree) :
    readFile (fileOf text (xs ++ ys)) =
      (readFile (fileOf text₁ xs)).bind fun first =>
        (readFile (fileOf text₂ ys)).map (first ++ ·) := by
  rw [readFile_fileOf,readFile_fileOf,readFile_fileOf]
  have hsplit : readItems "translation_unit" [] (xs ++ ys) =
      (readItems "translation_unit" [] xs).bind fun first =>
        readItems "translation_unit" first ys := readChildren_append .items _ _ xs ys
  have hbehind : ∀ first, readItems "translation_unit" first ys =
      (readItems "translation_unit" [] ys).map (first ++ ·) := by
    intro first
    rw [← readItems_append,List.append_nil]
  rw [hsplit,funext hbehind]

end Reading

namespace Printing
open Program

theorem Printed.append_assoc (p q r : Printed) : (p.append q).append r = p.append (q.append r) := by
  cases hp : p.failure <;> cases hq : q.failure <;> simp [append,hp,hq]

theorem Printed.concat_append (ps qs : List Printed) :
    concat (ps ++ qs) = (concat ps).append (concat qs) := by
  induction ps with
  | nil => rfl
  | cons p ps ih => rw [List.cons_append,concat,ih,concat,append_assoc]

theorem printProgram_append (ps qs : List Node) :
    printProgram (ps ++ qs) = (printProgram ps).append (printProgram qs) := by
  simp only [printProgram,printAll_eq_map,List.map_append,Printed.concat_append]

namespace Document

def append (d e : Document) : Document := ⟨d.segments ++ e.segments⟩

/-- Something has been printed, if only an empty line. -/
def HasLines (d : Document) : Prop := ∃ segment ∈ d.segments, segment ≠ []

theorem text_eq_join (d : Document) : d.text = Text.join "\n" d.segments.flatten := by
  rw [text,Text.join_flatten]

theorem hasLines_iff {d : Document} : d.HasLines ↔ d.segments.flatten ≠ [] := by
  simp [HasLines]

theorem text_append {d e : Document} (hd : d.HasLines) (he : e.HasLines) :
    (d.append e).text = d.text ++ "\n" ++ e.text := by
  rw [text_eq_join,text_eq_join,text_eq_join,append,List.flatten_append]
  exact Text.join_append "\n" (hasLines_iff.1 hd) (hasLines_iff.1 he)

theorem text_append_left {d : Document} (hd : ¬d.HasLines) (e : Document) :
    (d.append e).text = e.text := by
  have hnone : d.segments.flatten = [] := by simpa [hasLines_iff] using hd
  rw [text_eq_join,text_eq_join,append,List.flatten_append,hnone,List.nil_append]

theorem text_append_right (d : Document) {e : Document} (he : ¬e.HasLines) :
    (d.append e).text = d.text := by
  have hnone : e.segments.flatten = [] := by simpa [hasLines_iff] using he
  rw [text_eq_join,text_eq_join,append,List.flatten_append,hnone,List.append_nil]

end Document

/-- Programs in a row have the document of the first and then that of the second, and fail as the
first of them that does. -/
theorem document_append (ps qs : List Node) :
    document (ps ++ qs) =
      (document ps).bind fun d => (document qs).map fun e => d.append e := by
  simp only [document,printProgram_append,Printed.failure_append]
  cases hp : (printProgram ps).failure with
  | some e => rfl
  | none => cases hq : (printProgram qs).failure <;> simp [Printed.append,hp,Except.bind,Except.map,
      Document.append]

open Reading

/-- Converting items in a row is converting the first of them and then the others. -/
theorem document_of_fileOf_append (text text₁ text₂ : String) (xs ys : List ParseTree) :
    (∀ e, (readFile (fileOf text₁ xs)).result = .error e →
      (readFile (fileOf text (xs ++ ys))).result = .error e) ∧
    ∀ ps, (readFile (fileOf text₁ xs)).result = .ok ps →
      (∀ e, (readFile (fileOf text₂ ys)).result = .error e →
        (readFile (fileOf text (xs ++ ys))).result = .error e) ∧
      ∀ qs, (readFile (fileOf text₂ ys)).result = .ok qs →
        (readFile (fileOf text (xs ++ ys))).result = .ok (ps ++ qs) ∧
        ∀ d e, document ps = .ok d → document qs = .ok e →
          ∃ both, document (ps ++ qs) = .ok both ∧ both.segments = d.segments ++ e.segments ∧
            (d.HasLines → e.HasLines → both.text = d.text ++ "\n" ++ e.text) ∧
            (¬d.HasLines → both.text = e.text) ∧ (¬e.HasLines → both.text = d.text) := by
  have hread := congrArg Recorded.result (readFile_append text text₁ text₂ xs ys)
  rw [Recorded.result_bind] at hread
  refine ⟨fun e he => by rw [hread,he]; rfl,fun ps hps => ?_⟩
  have hrest : (readFile (fileOf text (xs ++ ys))).result =
      (readFile (fileOf text₂ ys)).result.map (ps ++ ·) := by
    rw [hread,hps]
    rfl
  refine ⟨fun e he => by rw [hrest,he]; rfl,fun qs hqs => ⟨by rw [hrest,hqs]; rfl,?_⟩⟩
  intro d e hd he
  refine ⟨d.append e,?_,rfl,Document.text_append,fun hnone => Document.text_append_left hnone e,
    Document.text_append_right d⟩
  rw [document_append,hd,he]
  rfl

/-- A namespace with a variable in it. -/
def memberItem : ParseTree :=
  .node "namespace_definition" "" [.node "namespace" "namespace" [],
    .node "namespace_identifier" "N" [],
    .node "declaration_list" "" [.node "\x7b" "\x7b" [],
      .node "declaration" "" [.node "primitive_type" "int" [],.node "identifier" "x" [],
        .node ";" ";" []],
      .node "\x7d" "\x7d" []]]

/-- A statement with a name that is missing from the source. -/
def blankItem : ParseTree :=
  .node "expression_statement" "" [.node "identifier" "" [],.node ";" ";" []]

def memberProgram : List Node :=
  [.namespaceBlock "N" [.declaration [⟨"x", some "int", none, false⟩]]]

def blankProgram : List Node := [.reference ""]

theorem document_memberItem_blankItem :
    (readFile (fileOf "" ([memberItem] ++ [blankItem]))).result =
        .ok (memberProgram ++ blankProgram) ∧
      ∃ both, document (memberProgram ++ blankProgram) = .ok both ∧
        both.segments = [[],["let N_x: number"]] ++ [[""]] ∧
        both.text = "let N_x: number" ++ "\n" ++ "" := by
  have hmember : (readFile (fileOf "" [memberItem])).result = .ok memberProgram := rfl
  have hblank : (readFile (fileOf "" [blankItem])).result = .ok blankProgram := rfl
  have hd : document memberProgram = .ok ⟨[[],["let N_x: number"]]⟩ := rfl
  have he : document blankProgram = .ok ⟨[[""]]⟩ := rfl
  obtain ⟨-,hfirst⟩ := document_of_fileOf_append "" "" "" [memberItem] [blankItem]
  obtain ⟨-,hsecond⟩ := hfirst memberProgram hmember
  obtain ⟨hread,hdocument⟩ := hsecond blankProgram hblank
  obtain ⟨both,hboth,hsegments,htext,-,-⟩ := hdocument _ _ hd he
  exact ⟨hread,both,hboth,hsegments,
    htext ⟨["let N_x: number"],by simp,by simp⟩ ⟨[""],by simp,by simp⟩⟩

end Printing
end Scribe
