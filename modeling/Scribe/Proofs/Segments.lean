import Scribe.Proofs.PrintingFailure

/-! The segments of a document. Each node at the top and each member of a namespace has segments
of its own, and they follow each other as the nodes do. -/
namespace Scribe
namespace Printing
open Program

namespace Printed

theorem lines_concat_inSegment (ps : List Printed) :
    (concat (ps.map inSegment)).lines = [] := by
  induction ps with
  | nil => rfl
  | cons p ps ih => cases hp : p.failure <;> simp_all [concat,append,inSegment]

theorem opened_concat_inSegment {ps : List Printed} (h : ∀ p ∈ ps, p.failure = .none) :
    (concat (ps.map inSegment)).opened = ps.flatMap (·.inSegment.opened) := by
  induction ps with
  | nil => rfl
  | cons p ps ih =>
    obtain ⟨hp,hps⟩ := List.forall_mem_cons.1 h
    rw [List.map_cons,concat,append,failure_inSegment,hp,List.flatMap_cons,← ih hps]

theorem append_none (p : Printed) : p.append none = p := by
  cases h : p.failure <;> cases p <;> simp_all [append,none]

theorem lines_concat {ps : List Printed} (h : ∀ p ∈ ps, p.failure = .none) :
    (concat ps).lines = ps.flatMap (·.lines) := by
  induction ps with
  | nil => rfl
  | cons p ps ih =>
    obtain ⟨hp,hps⟩ := List.forall_mem_cons.1 h
    rw [concat,append,hp,List.flatMap_cons,← ih hps]

end Printed

theorem lines_printed {x : Draft (List String)} (h : x.printed.failure = none) :
    x.result = .ok x.printed.lines := by
  cases hx : x.result with
  | ok lines => simp [Recorded.printed,hx]
  | error e => simp [Recorded.failure?,hx] at h

/-- The segments of a node that is printed into a new one. -/
def segmentsOf (place : Place) (n : Node) : List Segment := (print place n).inSegment.opened

theorem opened_printAll {place : Place} {ns : List Node} (h : ∀ n ∈ ns, failureAt place n = none) :
    (Printed.concat ((printAll place ns).map Printed.inSegment)).opened =
      ns.flatMap (segmentsOf place) := by
  have hall : ∀ p ∈ printAll place ns, p.failure = .none := by
    rw [printAll_eq_map]
    exact List.forall_mem_map.2 h
  rw [Printed.opened_concat_inSegment hall,printAll_eq_map,List.flatMap_map]
  rfl

theorem forall_failure_of_concat {place : Place} {ns : List Node}
    (h : (Printed.concat ((printAll place ns).map Printed.inSegment)).failure = none) :
    ∀ n ∈ ns, failureAt place n = none := by
  rw [Printed.failure_concat,printAll_eq_map,List.map_map,List.findSome?_map,
    List.findSome?_eq_none_iff] at h
  exact h

/-- A document has the segments of the nodes of its program. -/
theorem segments_of_document {program : List Node} {d : Document} (h : document program = .ok d) :
    (∀ n ∈ program, failureAt .top n = none) ∧
      d.segments = program.flatMap (segmentsOf .top) := by
  cases hok : (printProgram program).failure with
  | some e => simp [document,hok] at h
  | none =>
    obtain rfl : (⟨(printProgram program).opened⟩ : Document) = d := by
      simpa [document,hok] using h
    have hall := forall_failure_of_concat hok
    exact ⟨hall,opened_printAll hall⟩

theorem segmentsOf_namespaceBlock {place : Place} {name : String} {body : List Node}
    (h : failureAt place (.namespaceBlock name body) = none) :
    (∀ n ∈ body, failureAt (place.enter name) n = none) ∧
      segmentsOf place (.namespaceBlock name body) =
        [] :: body.flatMap (segmentsOf (place.enter name)) := by
  rw [failureAt,print] at h
  have hall := forall_failure_of_concat h
  refine ⟨hall,?_⟩
  rw [segmentsOf,print,Printed.inSegment,Printed.lines_concat_inSegment,opened_printAll hall]

/-- The lines of a function, whether or not they go to a segment of their own. -/
def functionDraft (place : Place) (name : String) (parameters : List Parameter)
    (returnType : Option String) (body : List Node) : Draft (List String) :=
  (Recorded.all (printParameters place parameters)).bind fun parameters =>
    (Printed.concat (printAll place.inFunction body)).draft.map
      (braced [signature (place.declare name) parameters returnType])

section Functions
variable {place : Place} {name : String} {parameters : List Parameter}
  {returnType : Option String} {body : List Node}

theorem print_function_inside (h : place.scope = .function) :
    print place (.functionDefinition name parameters returnType body) =
      (functionDraft place name parameters returnType body).printed := by
  rw [print,h]
  rfl

theorem print_function_outside (h : place.scope ≠ .function) :
    print place (.functionDefinition name parameters returnType body) =
      (functionDraft place name parameters returnType body).printed.inSegment := by
  rw [print]
  cases hscope : place.scope with
  | function => exact absurd hscope h
  | none => rfl
  | namespaceMember => rfl

end Functions

end Printing
end Scribe
