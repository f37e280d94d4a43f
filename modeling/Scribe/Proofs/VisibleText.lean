import Scribe.Text.Lines

/-! The visible characters of texts and lines. Indenting lines, trimming them, gluing them onto one
line and putting them behind one another changes blanks only. -/
namespace Scribe
namespace Text

/-- The characters of a text that are not blank, in order. -/
def visible (s : String) : List Char := s.toList.filter (!isBlank ·)

def visibleOf (lines : List String) : List Char := lines.flatMap visible

@[simp] theorem visible_append (s t : String) : visible (s ++ t) = visible s ++ visible t := by
  simp [visible]

@[simp] theorem visible_empty : visible "" = [] := rfl

@[simp] theorem visibleOf_nil : visibleOf [] = [] := rfl

@[simp] theorem visibleOf_cons (line : String) (lines : List String) :
    visibleOf (line :: lines) = visible line ++ visibleOf lines :=
  List.flatMap_cons

@[simp] theorem visibleOf_append (xs ys : List String) :
    visibleOf (xs ++ ys) = visibleOf xs ++ visibleOf ys :=
  List.flatMap_append

@[simp] theorem visible_indentation (levels : Nat) : visible (indentation levels) = [] := by
  simp [visible,indentation,show isBlank ' ' from rfl]

@[simp] theorem visibleOf_indent (levels : Nat) (lines : List String) :
    visibleOf (indent levels lines) = visibleOf lines := by
  simp [visibleOf,indent,List.flatMap_map]

theorem visibleOf_closeWith (suffix line : String) (lines : List String) :
    visibleOf (closeWith suffix (line :: lines)) = visibleOf (line :: lines) ++ visible suffix := by
  induction lines generalizing line with
  | nil => simp [closeWith]
  | cons next rest ih => rw [closeWith,visibleOf_cons,ih,visibleOf_cons line,List.append_assoc]

@[simp] theorem visibleOf_wrap (opening : String) (lines : List String) (suffix : String) :
    visibleOf (wrap opening lines suffix) =
      visible opening ++ visibleOf lines ++ visible suffix := by
  cases lines with
  | nil => simp [wrap]
  | cons first rest => simp [wrap,visibleOf_closeWith]

theorem filter_dropWhile_isBlank (cs : List Char) :
    (cs.dropWhile isBlank).filter (!isBlank ·) = cs.filter (!isBlank ·) := by
  induction cs with
  | nil => rfl
  | cons c cs ih =>
    by_cases hc : isBlank c
    · simp [hc,ih]
    · simp [hc]

@[simp] theorem visible_trim (s : String) : visible (trim s) = visible s := by
  simp only [visible,trim,trimChars,String.toList_ofList,List.filter_reverse,
    filter_dropWhile_isBlank,List.reverse_reverse]

theorem visible_glue (text line : String) :
    visible (glue text line) = visible text ++ visible line := by
  unfold glue
  split
  · exact visible_append text line
  · rw [visible_append,visible_append,show visible " " = [] from rfl,List.append_nil]

@[simp] theorem visible_oneLine (lines : List String) : visible (oneLine lines) = visibleOf lines := by
  have hfold : ∀ (lines : List String) (text : String),
      visible ((lines.map trim).foldl glue text) = visible text ++ visibleOf lines := by
    intro lines
    induction lines with
    | nil => simp
    | cons line rest ih =>
      intro text
      simp [ih,visible_glue]
  exact hfold lines ""

theorem visible_join (separator : String) (texts : List String) :
    visible (join separator texts) = List.intercalate (visible separator) (texts.map visible) := by
  induction texts with
  | nil => rfl
  | cons s rest ih =>
    cases rest with
    | nil => simp
    | cons t rest =>
      rw [join,visible_append,visible_append,ih]
      simp only [List.map_cons,List.intercalate_cons_cons]

theorem visible_join_empty (texts : List String) : visible (join "" texts) = visibleOf texts := by
  induction texts with
  | nil => rfl
  | cons s rest ih =>
    cases rest with
    | nil => simp
    | cons t rest => rw [join,visible_append,String.append_empty,ih,visibleOf_cons s]

@[simp] theorem visible_tight (lines : List String) : visible (tight lines) = visibleOf lines := by
  rw [tight,visible_join_empty,visibleOf,visibleOf,List.flatMap_map]
  simp

end Text
end Scribe
