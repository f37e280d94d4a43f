import Scribe.Proofs.Brackets
import Scribe.Proofs.Loading
import Scribe.Proofs.Segments

/-! Brackets in printed programs. Printing writes brackets in pairs around what it has printed, so
if no text of a program has any of its own, all segments of the document are balanced. -/
namespace Scribe

namespace Recorded
variable {ω ε α β : Type} {Q : ω → Prop} {P : α → Prop} {R : β → Prop}

/-- Whatever comes of it has a property, and so has every entry that is recorded on the way. -/
def Yields (Q : ω → Prop) (P : α → Prop) (x : Recorded ω ε α) : Prop :=
  ∀ a, x.result = .ok a → P a ∧ ∀ w ∈ x.record, Q w

theorem yields_ok {a : α} (h : P a) : (ok a : Recorded ω ε α).Yields Q P := by
  intro b hb
  obtain rfl : a = b := by simpa using hb
  exact ⟨h,by simp⟩

theorem yields_fail (e : ε) : (fail e : Recorded ω ε α).Yields Q P := by
  intro a ha
  simp at ha

theorem Yields.imp {P' : α → Prop} {x : Recorded ω ε α} (h : x.Yields Q P)
    (himp : ∀ a, P a → P' a) : x.Yields Q P' := fun a ha => ⟨himp a (h a ha).1,(h a ha).2⟩

theorem Yields.map {x : Recorded ω ε α} {f : α → β} (h : x.Yields Q P)
    (hf : ∀ a, P a → R (f a)) : (x.map f).Yields Q R := by
  intro b hb
  obtain ⟨a,ha,rfl⟩ := result_map_eq_ok.1 hb
  obtain ⟨hvalue,hrecord⟩ := h a ha
  exact ⟨hf a hvalue,hrecord⟩

theorem Yields.bind {x : Recorded ω ε α} {f : α → Recorded ω ε β} (h : x.Yields Q P)
    (hf : ∀ a, P a → (f a).Yields Q R) : (x.bind f).Yields Q R := by
  intro b hb
  obtain ⟨a,ha,hfa⟩ := result_bind_eq_ok.1 hb
  obtain ⟨hvalue,hrecord⟩ := h a ha
  obtain ⟨hresult,hrecord'⟩ := hf a hvalue b hfa
  refine ⟨hresult,?_⟩
  simpa [Recorded.bind,ha] using List.forall_mem_append.2 ⟨hrecord,hrecord'⟩

theorem Yields.all {xs : List (Recorded ω ε α)} (h : ∀ x ∈ xs, x.Yields Q P) :
    (all xs).Yields Q fun as => ∀ a ∈ as, P a := by
  induction xs with
  | nil => exact yields_ok (by simp)
  | cons x xs ih =>
    obtain ⟨hx,hxs⟩ := List.forall_mem_cons.1 h
    refine hx.bind fun a ha => (ih hxs).map fun as has => ?_
    exact List.forall_mem_cons.2 ⟨ha,has⟩

end Recorded

namespace Program

def Node.texts : Node → List String
  | namespaceBlock name _ => [name]
  | declaration declarators => declarators.flatMap fun d => d.name :: d.typeName.toList
  | functionDefinition name _ returnType _ => name :: returnType.toList
  | parameter p => p.name :: p.typeName.toList
  | binaryExpression operator _ _ | unaryExpression operator _ | updateExpression operator _ _
  | assignmentExpression _ operator _ => [operator]
  | reference name => [name]
  | numberLiteral value | booleanLiteral value | stringLiteral value => [value]
  | userDefinedLiteral text => [text]
  | _ => []

def Node.Unbracketed (n : Node) : Prop := ∀ text ∈ n.texts, Text.Unbracketed text

end Program

namespace Printing
open Program Text

/-- The lines have their brackets in pairs. -/
def Enclosed (lines : List String) : Prop := Nested (bracketsOf lines)

theorem enclosed_nil : Enclosed [] := nested_nil

theorem Enclosed.append {xs ys : List String} (hx : Enclosed xs) (hy : Enclosed ys) :
    Enclosed (xs ++ ys) := by
  rw [Enclosed,bracketsOf_append]
  exact Nested.append hx hy

theorem enclosed_flatten {groups : List (List String)} (h : ∀ g ∈ groups, Enclosed g) :
    Enclosed groups.flatten := by
  rw [Enclosed,bracketsOf_flatten]
  exact Nested.flatMap h

theorem Enclosed.indented {lines : List String} (h : Enclosed lines) (levels : Nat) :
    Enclosed (indent levels lines) := by
  rwa [Enclosed,bracketsOf_indent]

section Layout
variable {lines : List String}

theorem enclosed_singleton {s : String} : Enclosed [s] ↔ Nested (brackets s) := by
  rw [Enclosed,bracketsOf_cons,bracketsOf_nil,List.append_nil]

theorem nested_of_unbracketed {s : String} (h : Unbracketed s) : Nested (brackets s) := by
  rw [brackets_eq_nil.2 h]
  exact nested_nil

theorem Enclosed.oneLine (h : Enclosed lines) : Nested (brackets (oneLine lines)) := by
  rwa [brackets_oneLine]

theorem Enclosed.wrapped (h : Enclosed lines) {opening suffix : String}
    (hopening : Unbracketed opening) (hsuffix : Unbracketed suffix) :
    Enclosed (wrap opening lines suffix) := by
  rwa [Enclosed,bracketsOf_wrap,brackets_eq_nil.2 hopening,brackets_eq_nil.2 hsuffix,
    List.append_nil,List.nil_append]

theorem enclosed_signed (h : Enclosed lines) {sign : String} (hsign : Unbracketed sign) :
    Enclosed [sign ++ oneLine lines] ∧ Enclosed [oneLine lines ++ sign] := by
  rw [enclosed_singleton,enclosed_singleton,brackets_append,brackets_append,
    brackets_eq_nil.2 hsign,List.nil_append,List.append_nil]
  exact ⟨h.oneLine,h.oneLine⟩

theorem Enclosed.inParentheses (h : Enclosed lines) {opening : String}
    (hopening : brackets opening = ['(']) : Enclosed (wrap opening lines ")") := by
  rw [Enclosed,bracketsOf_wrap,hopening]
  exact Nested.enclose h rfl

theorem enclosed_braced {head : List String} (hhead : Enclosed head) (h : Enclosed lines) :
    Enclosed (braced head lines) := by
  rw [Enclosed,braced,bracketsOf_append,bracketsOf_append,bracketsOf_wrap,bracketsOf_indent,
    List.append_assoc,List.append_assoc]
  exact Nested.append hhead (Nested.enclose h rfl)

theorem Enclosed.declared (h : Enclosed lines) (d : Declarator) : Enclosed (declare d lines) := by
  unfold declare
  split
  · exact h.wrapped (by decide) (by decide)
  · exact h.wrapped (by decide) (by decide)

theorem nested_signature {name : String} {parameters : List String} {returnType : Option String}
    (hname : Unbracketed name) (hparameters : Enclosed parameters)
    (htype : ∀ t ∈ returnType, Unbracketed t) :
    Nested (brackets (signature name parameters returnType)) := by
  rw [signature,TypeName.brackets_annotate _ htype]
  simp only [brackets_append,brackets_eq_nil.2 hname,brackets_join (show brackets ", " = [] from rfl)]
  exact Nested.enclose hparameters rfl

theorem nested_clause {o : Option String} (h : ∀ s ∈ o, Nested (brackets s)) :
    Nested (brackets (clause o)) := by
  cases o with
  | none => exact nested_nil
  | some s =>
    rw [clause]
    split
    · exact nested_nil
    · rw [brackets_append]
      exact h s rfl

theorem nested_forHead {init : List String} {test update : Option String} (hinit : Enclosed init)
    (htest : ∀ s ∈ test, Nested (brackets s)) (hupdate : ∀ s ∈ update, Nested (brackets s)) :
    Nested (brackets (forHead init test update)) := by
  have hsemicolon : brackets ";" = [] := rfl
  have hparts := (Nested.append hinit (nested_clause htest)).append (nested_clause hupdate)
  simp only [forHead,brackets_append,brackets_join (show brackets ", " = [] from rfl),hsemicolon,
    List.append_nil]
  exact Nested.enclose hparts rfl

theorem enclosed_conditionalLines {test success failure : List String} (htest : Enclosed test)
    (hsuccess : Enclosed success) (hfailure : Enclosed failure)
    (h : conditionalLines test success failure = some lines) : Enclosed lines := by
  unfold conditionalLines at h
  split at h
  · obtain rfl := Option.some.inj h
    simpa [Enclosed,show brackets "? " = [] from rfl,show brackets ": " = [] from rfl] using
      (Nested.append htest hsuccess).append hfailure
  · cases h

theorem bracketsOf_argumentLines (arguments : List (List String)) :
    bracketsOf (argumentLines arguments) = arguments.flatMap bracketsOf := by
  induction arguments with
  | nil => rfl
  | cons argument rest ih =>
    cases rest with
    | nil => simp [argumentLines]
    | cons next rest => simp [argumentLines,ih,show brackets "," = [] from rfl]

theorem enclosed_callLines {callee : String} {arguments : List (List String)}
    (hcallee : Nested (brackets callee)) (harguments : ∀ a ∈ arguments, Enclosed a) :
    Enclosed (callLines callee arguments) := by
  have hcall : bracketsOf (callLines callee arguments) =
      brackets callee ++ '(' :: (arguments.flatMap bracketsOf ++ [')']) := by
    unfold callLines
    split
    · simp [brackets_join (show brackets ", " = [] from rfl),show brackets "(" = ['('] from rfl,
        show brackets ")" = [')'] from rfl]
    · simp [bracketsOf_argumentLines,show brackets "(" = ['('] from rfl,
        show brackets ")" = [')'] from rfl]
  rw [Enclosed,hcall]
  exact hcallee.append (Nested.enclose (Nested.flatMap harguments) rfl)

end Layout

section Chain

/-- An arm of a chain with its condition and statements in pairs of brackets. -/
structure ArmEnclosed (arm : Option (List String) × List String) : Prop where
  condition : ∀ lines ∈ arm.1, Enclosed lines
  statements : Enclosed arm.2

def armBrackets (arm : Option (List String) × List String) : List Char :=
  (arm.1.elim [] fun condition => '(' :: (bracketsOf condition ++ [')'])) ++
    '\x7b' :: (bracketsOf arm.2 ++ ['\x7d'])

theorem ArmEnclosed.nested {arm : Option (List String) × List String} (h : ArmEnclosed arm) :
    Nested (armBrackets arm) := by
  have hstatements : Nested ('\x7b' :: (bracketsOf arm.2 ++ ['\x7d'])) :=
    Nested.enclose h.statements rfl
  rcases arm with ⟨_ | condition,statements⟩
  · exact hstatements
  · exact (Nested.enclose (h.condition condition rfl) rfl).append hstatements

theorem bracketsOf_armHead_first (condition : List String) :
    bracketsOf (armHead true (some condition)) = '(' :: (bracketsOf condition ++ [')','\x7b']) := by
  rw [armHead,bracketsOf_wrap]
  rfl

theorem bracketsOf_armHead_later (condition : Option (List String)) :
    bracketsOf (armHead false condition) =
      '\x7d' :: ((condition.elim [] fun c => '(' :: (bracketsOf c ++ [')'])) ++ ['\x7b']) := by
  cases condition with
  | none => rfl
  | some c =>
    simp [armHead,show brackets "\x7d else if (" = ['\x7d','('] from rfl,
      show brackets ") \x7b" = [')','\x7b'] from rfl]

theorem bracketsOf_laterArms (arms : List (Option (List String) × List String)) :
    bracketsOf (arms.flatMap fun (condition, statements) =>
      armHead false condition ++ indent 1 statements) ++ ['\x7d'] =
      '\x7d' :: arms.flatMap armBrackets := by
  induction arms with
  | nil => rfl
  | cons arm arms ih =>
    rw [List.flatMap_cons,bracketsOf_append,List.append_assoc,ih,bracketsOf_append,
      bracketsOf_armHead_later,bracketsOf_indent,List.flatMap_cons,armBrackets]
    simp

theorem enclosed_chainLines {condition : List String} {statements : List String}
    {rest : List (Option (List String) × List String)} (hfirst : ArmEnclosed (some condition,statements))
    (hrest : ∀ arm ∈ rest, ArmEnclosed arm) :
    Enclosed (chainLines ((some condition,statements) :: rest)) := by
  have hchain : bracketsOf (chainLines ((some condition,statements) :: rest)) =
      armBrackets (some condition,statements) ++ rest.flatMap armBrackets := by
    have hend : bracketsOf ["\x7d"] = ['\x7d'] := rfl
    rw [chainLines,bracketsOf_append,bracketsOf_append,List.append_assoc,hend,
      bracketsOf_laterArms,bracketsOf_append,bracketsOf_armHead_first,bracketsOf_indent,armBrackets]
    simp
  rw [Enclosed,hchain]
  exact hfirst.nested.append (Nested.flatMap fun arm harm => (hrest arm harm).nested)

end Chain

theorem unbracketed_operatorSign {operator : String} (h : Unbracketed operator) :
    Unbracketed (operatorSign operator) := by
  unfold operatorSign
  cases hsign : operatorSigns.lookup operator with
  | none => exact h
  | some sign => exact unbracketed_of_lookup (by decide) hsign

def Place.Unbracketed (place : Place) : Prop := ∀ name ∈ place.path, Text.Unbracketed name

theorem Place.Unbracketed.enter {place : Place} (h : place.Unbracketed) {name : String}
    (hname : Text.Unbracketed name) : (place.enter name).Unbracketed :=
  List.forall_mem_append.2 ⟨h,List.forall_mem_singleton.2 hname⟩

theorem Place.Unbracketed.declare {place : Place} (h : place.Unbracketed) {name : String}
    (hname : Text.Unbracketed name) : Text.Unbracketed (place.declare name) := by
  unfold Place.declare
  split
  · rw [← brackets_eq_nil,brackets_join rfl,bracketsOf,List.flatMap_eq_nil_iff]
    intro part hpart
    exact brackets_eq_nil.2 (h.enter hname part hpart)
  · exact hname

/-- What comes of a draft of lines has its brackets in pairs, in every segment. -/
def Encloses (x : Draft (List String)) : Prop := x.Yields Enclosed Enclosed

def EnclosesText (x : Draft String) : Prop := x.Yields Enclosed fun s => Nested (brackets s)

@[simp] theorem draft_printed (x : Draft (List String)) : x.printed.draft = x := by
  rcases x with ⟨record,lines | e⟩ <;> rfl

namespace Printed

theorem draft_append (p q : Printed) :
    (p.append q).draft = p.draft.bind fun lines => q.draft.map (lines ++ ·) := by
  cases hp : p.failure <;> cases hq : q.failure <;>
    simp [append,draft,Recorded.bind,Recorded.map,hp,hq,Except.map]

theorem encloses_append {p q : Printed} (hp : Encloses p.draft) (hq : Encloses q.draft) :
    Encloses (p.append q).draft := by
  rw [draft_append]
  exact hp.bind fun lines hlines => hq.map fun more hmore => hlines.append hmore

theorem encloses_concat {ps : List Printed} (h : ∀ p ∈ ps, Encloses p.draft) :
    Encloses (concat ps).draft := by
  induction ps with
  | nil => exact Recorded.yields_ok enclosed_nil
  | cons p ps ih =>
    obtain ⟨hp,hps⟩ := List.forall_mem_cons.1 h
    exact encloses_append hp (ih hps)

theorem encloses_inSegment {p : Printed} (h : Encloses p.draft) : Encloses p.inSegment.draft := by
  intro lines hlines
  cases hp : p.failure with
  | some e => simp [draft,inSegment,hp] at hlines
  | none =>
    obtain ⟨hown,hopened⟩ := h p.lines (by simp [draft,hp])
    obtain rfl : [] = lines := by simpa [draft,inSegment,hp] using hlines
    refine ⟨enclosed_nil,?_⟩
    simpa [draft,inSegment,hp] using ⟨hown,by simpa [draft,hp] using hopened⟩

end Printed

section Inside
variable {place : Place}

theorem encloses_members {ns : List Node} (h : ∀ n ∈ ns, Encloses (print place n).draft) :
    Encloses (Printed.concat (printAll place ns)).draft := by
  rw [printAll_eq_map]
  exact Printed.encloses_concat (List.forall_mem_map.2 h)

theorem encloses_segments {ns : List Node} (h : ∀ n ∈ ns, Encloses (print place n).draft) :
    Encloses (Printed.concat ((printAll place ns).map Printed.inSegment)).draft := by
  refine Printed.encloses_concat (List.forall_mem_map.2 fun p hp => ?_)
  rw [printAll_eq_map] at hp
  obtain ⟨n,hn,rfl⟩ := List.mem_map.1 hp
  exact Printed.encloses_inSegment (h n hn)

theorem encloses_arguments {ns : List Node} (h : ∀ n ∈ ns, Encloses (print place n).draft) :
    (Recorded.all ((printAll place ns).map Printed.draft)).Yields Enclosed
      fun groups => ∀ g ∈ groups, Enclosed g := by
  refine Recorded.Yields.all (List.forall_mem_map.2 fun p hp => ?_)
  rw [printAll_eq_map] at hp
  obtain ⟨n,hn,rfl⟩ := List.mem_map.1 hp
  exact h n hn

theorem encloses_printOption {o : Option Node} (h : ∀ n ∈ o, Encloses (print place n).draft) :
    (Recorded.option (printOption place o)).Yields Enclosed fun lines =>
      lines.isSome = o.isSome ∧ ∀ l ∈ lines, Enclosed l := by
  cases o with
  | none => exact Recorded.yields_ok ⟨rfl,nofun⟩
  | some n => exact Recorded.Yields.map (h n rfl) fun lines hlines => ⟨rfl,by simpa using hlines⟩

theorem encloses_printDeclarators (hplace : place.Unbracketed) {ds : List Declarator}
    (htexts : (Node.declaration ds).Unbracketed)
    (h : ∀ d ∈ ds, ∀ n ∈ d.init, Encloses (print place n).draft) :
    ∀ x ∈ printDeclarators place ds, Encloses x := by
  induction ds with
  | nil => exact nofun
  | cons d ds ih =>
    obtain ⟨hd,hds⟩ := List.forall_mem_cons.1 h
    obtain ⟨hown,hrest⟩ := List.forall_mem_append.1 htexts
    have hlater := ih hrest hds
    rcases d with ⟨name,typeName,init,isConst⟩
    obtain ⟨hname,htype⟩ := List.forall_mem_cons.1 hown
    have hannotated : Unbracketed (TypeName.annotate (place.declare name) typeName) := by
      rw [← brackets_eq_nil,TypeName.brackets_annotate _ (by simpa using htype)]
      exact brackets_eq_nil.2 (hplace.declare hname)
    cases init with
    | none =>
      refine List.forall_mem_cons.2 ⟨Recorded.yields_ok ?_,hlater⟩
      exact enclosed_singleton.2 (nested_of_unbracketed hannotated)
    | some init =>
      refine List.forall_mem_cons.2 ⟨Recorded.Yields.map (hd init rfl) fun lines hlines => ?_,hlater⟩
      refine hlines.wrapped ?_ (by decide)
      rw [← brackets_eq_nil,brackets_append,brackets_eq_nil.2 hannotated]
      rfl

theorem encloses_declared {ds : List Declarator} {drafts : List (Draft (List String))}
    (h : ∀ x ∈ drafts, Encloses x) :
    Encloses (Printed.concat
      (List.zipWith (fun d lines => (lines.map (declare d)).printed) ds drafts)).draft := by
  apply Printed.encloses_concat
  induction drafts generalizing ds with
  | nil => simp
  | cons x drafts ih =>
    cases ds with
    | nil => simp
    | cons d ds =>
      obtain ⟨hx,hdrafts⟩ := List.forall_mem_cons.1 h
      refine List.forall_mem_cons.2 ⟨?_,ih hdrafts⟩
      rw [draft_printed]
      exact Recorded.Yields.map hx fun lines hlines => hlines.declared d

theorem encloses_parameter {p : Parameter} (htexts : (Node.parameter p).Unbracketed)
    (h : ∀ n ∈ p.defaultValue, Encloses (print place n).draft) :
    Encloses (print place (.parameter p)).draft ∧
      ∀ x ∈ printParameters place [p], EnclosesText x := by
  rcases p with ⟨name,typeName,value,isConst,isRef⟩
  obtain ⟨hname,htype⟩ := List.forall_mem_cons.1 htexts
  have hannotated : brackets (TypeName.annotate name typeName) = [] := by
    rw [TypeName.brackets_annotate _ (by simpa using htype)]
    exact brackets_eq_nil.2 hname
  cases value with
  | none =>
    have hnested : Enclosed [TypeName.annotate name typeName] :=
      enclosed_singleton.2 (nested_of_unbracketed (brackets_eq_nil.1 hannotated))
    refine ⟨Recorded.yields_ok hnested,List.forall_mem_singleton.2 (Recorded.yields_ok ?_)⟩
    exact hnested.oneLine
  | some value =>
    have hnested : ∀ lines, Enclosed lines →
        Enclosed [TypeName.annotate name typeName ++ " = " ++ oneLine lines] := by
      intro lines hlines
      rw [enclosed_singleton,brackets_append,brackets_append,hannotated]
      exact hlines.oneLine
    rw [print,draft_printed]
    refine ⟨Recorded.Yields.map (h value rfl) hnested,List.forall_mem_singleton.2 ?_⟩
    exact Recorded.Yields.map (h value rfl) fun lines hlines => (hnested lines hlines).oneLine

theorem encloses_printParameters {ps : List Parameter}
    (htexts : ∀ p ∈ ps, (Node.parameter p).Unbracketed)
    (h : ∀ p ∈ ps, ∀ n ∈ p.defaultValue, Encloses (print place n).draft) :
    (Recorded.all (printParameters place ps)).Yields Enclosed Enclosed := by
  have heach : ∀ x ∈ printParameters place ps, EnclosesText x := by
    induction ps with
    | nil => exact nofun
    | cons p ps ih =>
      obtain ⟨hown,hrest⟩ := List.forall_mem_cons.1 htexts
      obtain ⟨hp,hps⟩ := List.forall_mem_cons.1 h
      have hsplit : printParameters place (p :: ps) =
          printParameters place [p] ++ printParameters place ps := by
        rcases p with ⟨name,typeName,_ | value,isConst,isRef⟩ <;> rfl
      rw [hsplit]
      exact List.forall_mem_append.2 ⟨(encloses_parameter hown hp).2,ih hrest hps⟩
  exact (Recorded.Yields.all heach).imp fun texts htexts => Nested.flatMap htexts

theorem encloses_choice {c : Choice}
    (hcondition : ∀ n ∈ c.condition, Encloses (print place n).draft)
    (hstatements : ∀ n ∈ c.statements, Encloses (print place n).draft) :
    ((Printed.concat (printAll place c.statements)).draft.bind fun statements =>
      (Recorded.option (printOption place c.condition)).map fun condition =>
        (condition, statements)).Yields Enclosed
      fun arm => arm.1.isSome = c.condition.isSome ∧ ArmEnclosed arm := by
  refine (encloses_members hstatements).bind fun statements hs => ?_
  exact (encloses_printOption hcondition).map fun condition hc => ⟨hc.1,hc.2,hs⟩

theorem encloses_printChoices {cs : List Choice}
    (h : ∀ c ∈ cs, (∀ n ∈ c.condition, Encloses (print place n).draft) ∧
      ∀ n ∈ c.statements, Encloses (print place n).draft) :
    ∀ x ∈ printChoices place cs, x.Yields Enclosed ArmEnclosed := by
  induction cs with
  | nil => exact nofun
  | cons c cs ih =>
    obtain ⟨⟨hcondition,hstatements⟩,hcs⟩ := List.forall_mem_cons.1 h
    rcases c with ⟨condition,statements⟩
    refine List.forall_mem_cons.2 ⟨?_,ih hcs⟩
    exact (encloses_choice hcondition hstatements).imp fun arm harm => harm.2

theorem encloses_chain {first : Choice} {rest : List Choice} (hfirst : first.condition.isSome)
    (h : ∀ c ∈ first :: rest, (∀ n ∈ c.condition, Encloses (print place n).draft) ∧
      ∀ n ∈ c.statements, Encloses (print place n).draft) :
    Encloses ((Recorded.all (printChoices place (first :: rest))).map chainLines) := by
  obtain ⟨⟨hcondition,hstatements⟩,hrest⟩ := List.forall_mem_cons.1 h
  have hlater := Recorded.Yields.all (encloses_printChoices hrest)
  have harms : (Recorded.all (printChoices place (first :: rest))).Yields Enclosed
      fun arms => Enclosed (chainLines arms) := by
    rcases first with ⟨condition,statements⟩
    refine (encloses_choice hcondition hstatements).bind fun arm harm => hlater.map fun arms harms => ?_
    rcases arm with ⟨_ | lines,statements⟩
    · exact absurd (harm.1.trans hfirst) (by simp)
    · exact enclosed_chainLines harm.2 harms
  exact harms.map fun arms henclosed => henclosed

theorem encloses_printInits (hplace : place.Unbracketed) {ns : List Node}
    (htexts : ∀ n ∈ ns, n.Unbracketed) (h : ∀ n ∈ ns, Encloses (print place n).draft)
    (hinit : ∀ n ∈ ns, ∀ c ∈ n.children, Encloses (print place c).draft) :
    ∀ x ∈ printInits place ns, EnclosesText x := by
  induction ns with
  | nil => exact nofun
  | cons n ns ih =>
    obtain ⟨hown,hrest⟩ := List.forall_mem_cons.1 htexts
    obtain ⟨hn,hns⟩ := List.forall_mem_cons.1 h
    obtain ⟨hinside,hinsides⟩ := List.forall_mem_cons.1 hinit
    have hlater := ih hrest hns hinsides
    cases n with
    | declaration ds =>
      have hds := encloses_printDeclarators hplace hown (Node.forall_children_declaration.1 hinside)
      refine List.forall_mem_cons.2 ⟨(Recorded.Yields.all hds).map fun groups hgroups => ?_,hlater⟩
      rw [brackets_append,brackets_join rfl,bracketsOf,List.flatMap_map]
      exact Nested.flatMap fun g hg => (hgroups g hg).oneLine
    | _ =>
      exact List.forall_mem_cons.2 ⟨Recorded.Yields.map hn fun lines hlines => hlines.oneLine,hlater⟩

theorem encloses_stepText {isFirst : Bool} {n : Node} (htexts : n.Unbracketed)
    (h : Encloses (print place n).draft) : EnclosesText (stepText isFirst n (print place n)) := by
  cases n with
  | reference name =>
    refine Recorded.yields_ok (nested_of_unbracketed ?_)
    have hname : Unbracketed name := htexts name (.head _)
    split
    · exact hname
    · rw [← brackets_eq_nil,brackets_append,brackets_eq_nil.2 hname]
      rfl
  | _ => exact Recorded.Yields.map h fun lines hlines => hlines.oneLine

theorem zip_printAll (place : Place) (ns : List Node) :
    ns.zip (printAll place ns) = ns.map fun n => (n,print place n) := by
  induction ns with
  | nil => rfl
  | cons n ns ih => rw [printAll,List.zip_cons_cons,ih,List.map_cons]

theorem encloses_pathTexts {steps : List Node} (htexts : ∀ n ∈ steps, n.Unbracketed)
    (h : ∀ n ∈ steps, Encloses (print place n).draft) :
    ∀ x ∈ pathTexts (steps.zip (printAll place steps)), EnclosesText x := by
  have hstep : ∀ n ∈ steps, ∀ isFirst, EnclosesText (stepText isFirst n (print place n)) :=
    fun n hn _ => encloses_stepText (htexts n hn) (h n hn)
  rw [zip_printAll]
  cases steps with
  | nil => exact nofun
  | cons n ns =>
    obtain ⟨hn,hns⟩ := List.forall_mem_cons.1 hstep
    refine List.forall_mem_cons.2 ⟨hn true,List.forall_mem_map.2 (List.forall_mem_map.2 ?_)⟩
    exact fun m hm => hns m hm false

theorem encloses_functionDefinition (hplace : place.Unbracketed) {name : String}
    {ps : List Parameter} {returnType : Option String} {body : List Node}
    (htexts : (Node.functionDefinition name ps returnType body).Unbracketed)
    (hparameters : ∀ p ∈ ps, (Node.parameter p).Unbracketed)
    (hvalues : ∀ p ∈ ps, ∀ n ∈ p.defaultValue, Encloses (print place n).draft)
    (hbody : ∀ n ∈ body, Encloses (print place.inFunction n).draft) :
    Encloses (print place (.functionDefinition name ps returnType body)).draft := by
  obtain ⟨hname,hreturn⟩ := List.forall_mem_cons.1 htexts
  have hdraft : Encloses (functionDraft place name ps returnType body) := by
    refine (encloses_printParameters hparameters hvalues).bind fun texts htexts => ?_
    refine (encloses_members hbody).map fun lines hlines =>
      enclosed_braced (enclosed_singleton.2 ?_) hlines
    exact nested_signature (hplace.declare hname) htexts (by simpa using hreturn)
  by_cases hscope : place.scope = .function
  · rwa [print_function_inside hscope,draft_printed]
  · rw [print_function_outside hscope]
    exact Printed.encloses_inSegment (by rwa [draft_printed])

theorem encloses_forStatement {init body : List Node} {test update : Option Node}
    (hinits : ∀ x ∈ printInits place init, EnclosesText x)
    (htest : ∀ n ∈ test, Encloses (print place n).draft)
    (hupdate : ∀ n ∈ update, Encloses (print place n).draft)
    (hbody : ∀ n ∈ body, Encloses (print place n).draft) :
    Encloses (print place (.forStatement init test update body)).draft := by
  have hone : ∀ {o : Option (List String)}, (∀ l ∈ o, Enclosed l) →
      ∀ s ∈ o.map oneLine, Nested (brackets s) := by
    intro o ho s hs
    obtain ⟨l,hl,rfl⟩ := Option.map_eq_some_iff.1 hs
    exact (ho l hl).oneLine
  rw [print,draft_printed]
  refine (Recorded.Yields.all hinits).bind fun inits hinits => ?_
  refine (encloses_printOption htest).bind fun test htest => ?_
  refine (encloses_printOption hupdate).bind fun update hupdate => ?_
  refine (encloses_members hbody).map fun lines hlines => ?_
  refine enclosed_braced (enclosed_singleton.2 ?_) hlines
  exact nested_forHead (Nested.flatMap hinits) (hone htest.2) (hone hupdate.2)

theorem encloses_caseStatement {isDefault : Bool} {test : Option Node} {statements : List Node}
    (htest : ∀ n ∈ test, Encloses (print place n).draft)
    (hstatements : ∀ n ∈ statements, Encloses (print place n).draft) :
    Encloses (print place (.caseStatement isDefault test statements)).draft := by
  have hindented : ∀ p ∈ [((Printed.concat (printAll place statements)).draft.map
      (indent 1)).printed], Encloses p.draft := by
    rw [List.forall_mem_singleton,draft_printed]
    exact (encloses_members hstatements).map fun lines hlines => hlines.indented 1
  cases isDefault with
  | true =>
    have hlabel : Enclosed ["default:"] := enclosed_singleton.2 nested_nil
    rw [print]
    exact Printed.encloses_concat (List.forall_mem_cons.2 ⟨Recorded.yields_ok hlabel,hindented⟩)
  | false =>
    cases test with
    | none =>
      rw [print,draft_printed]
      exact Recorded.yields_fail _
    | some test =>
      rw [print]
      refine Printed.encloses_concat (List.forall_mem_cons.2 ⟨?_,hindented⟩)
      rw [draft_printed]
      exact Recorded.Yields.map (htest test rfl) fun lines hlines =>
        hlines.wrapped (by decide) (by decide)

end Inside

theorem encloses_doLines {statements condition : Draft (List String)}
    (hstatements : Encloses statements) (hcondition : Encloses condition) :
    Encloses (Printed.concat [.text ["do \x7b"],(statements.map (indent 1)).printed,
      (condition.map fun lines => wrap "\x7d while (" lines ")").printed]).draft := by
  -- The opening brace is only closed by the condition, so the two are looked at together.
  have htail : ((statements.map (indent 1)).bind fun lines =>
      (condition.map fun lines => wrap "\x7d while (" lines ")").map (lines ++ ·)).Yields Enclosed
      fun lines => Enclosed ("do \x7b" :: lines) := by
    refine (Recorded.Yields.map hstatements (R := fun lines => ∃ inner, Enclosed inner ∧
      lines = indent 1 inner) fun inner hinner => ⟨inner,hinner,rfl⟩).bind ?_
    rintro - ⟨inner,hinner,rfl⟩
    refine (Recorded.Yields.map hcondition (R := fun lines => ∃ test, Enclosed test ∧
      lines = wrap "\x7d while (" test ")") fun test htest => ⟨test,htest,rfl⟩).map ?_
    rintro - ⟨test,htest,rfl⟩
    simpa [Enclosed,show brackets "do \x7b" = ['\x7b'] from rfl,
      show brackets "\x7d while (" = ['\x7d','('] from rfl,show brackets ")" = [')'] from rfl] using
      (Nested.enclose hinner rfl : Nested ('\x7b' :: (bracketsOf inner ++ ['\x7d']))).append
        (Nested.enclose htest rfl : Nested ('(' :: (bracketsOf test ++ [')'])))
  rw [Printed.concat,Printed.concat,Printed.concat,Printed.concat,Printed.append_none,
    Printed.draft_append,Printed.draft_append,draft_printed,draft_printed]
  refine Recorded.Yields.bind (P := (· = ["do \x7b"])) (Recorded.yields_ok rfl) ?_
  rintro - rfl
  exact htail.map fun lines hlines => hlines

/-- A node is printed with its brackets in pairs, wherever it stands. -/
def Enclosing (n : Node) : Prop :=
  ∀ place : Place, place.Unbracketed → Encloses (print place n).draft

/-- A node is printed with its brackets in pairs if the nodes inside it are, and those inside them:
the head of a `for` looks into its declarations, and a function into its parameters. -/
theorem enclosing_of_children {n : Node} (hvalid : n.Valid) (htexts : n.Unbracketed)
    (hinside : ∀ c ∈ n.children, c.Unbracketed) (h : ∀ c ∈ n.children, Enclosing c)
    (hinner : ∀ c ∈ n.children, ∀ m ∈ c.children, Enclosing m) : Enclosing n := by
  intro place hplace
  have hprinted : ∀ c ∈ n.children, Encloses (print place c).draft := fun c hc => h c hc place hplace
  have hdeeper : ∀ c ∈ n.children, ∀ m ∈ c.children, Encloses (print place m).draft :=
    fun c hc m hm => hinner c hc m hm place hplace
  cases n with
  | namespaceBlock name body =>
    have hname : Unbracketed name := htexts name (.head _)
    have hbody : ∀ n ∈ body, Encloses (print (place.enter name) n).draft := by
      simp only [Node.children,Node.slots,List.map_map,List.forall_mem_map] at h
      exact fun n hn => h n hn _ (hplace.enter hname)
    rw [print]
    exact encloses_segments hbody
  | declaration ds =>
    rw [print]
    exact encloses_declared
      (encloses_printDeclarators hplace htexts (Node.forall_children_declaration.1 hprinted))
  | functionDefinition name ps returnType body =>
    obtain ⟨hparameters,-⟩ := Node.forall_children_functionDefinition.1 hinside
    obtain ⟨hvalues,-⟩ := Node.forall_children_functionDefinition.1 hdeeper
    obtain ⟨-,hbody⟩ := Node.forall_children_functionDefinition.1 h
    exact encloses_functionDefinition hplace htexts hparameters
      (fun p hp => Node.forall_children_parameter.1 (hvalues p hp))
      fun n hn => hbody n hn place.inFunction hplace
  | parameter p =>
    exact (encloses_parameter htexts (Node.forall_children_parameter.1 hprinted)).1
  | block statements =>
    simp only [Node.children,Node.slots,List.map_map,List.forall_mem_map] at hprinted
    rw [print,draft_printed]
    refine (encloses_members hprinted).map fun lines hlines => ?_
    rw [Enclosed,bracketsOf_append,bracketsOf_cons,bracketsOf_indent]
    exact Nested.enclose hlines rfl
  | ifStatement cs =>
    obtain ⟨⟨first,rest,rfl,hfirst⟩,-⟩ := hvalid
    rw [print,draft_printed]
    exact encloses_chain hfirst (Node.forall_children_ifStatement.1 hprinted)
  | forStatement init test update body =>
    obtain ⟨hinits,htest,hupdate,hbody⟩ := Node.forall_children_forStatement.1 hprinted
    obtain ⟨hinitTexts,-⟩ := Node.forall_children_forStatement.1 hinside
    obtain ⟨hdeclared,-⟩ := Node.forall_children_forStatement.1 hdeeper
    exact encloses_forStatement (encloses_printInits hplace hinitTexts hinits hdeclared) htest
      hupdate hbody
  | whileStatement condition statements | switchStatement condition statements =>
    obtain ⟨hcondition,hstatements⟩ : Encloses (print place condition).draft ∧
        ∀ n ∈ statements, Encloses (print place n).draft := by
      simpa [Node.children,Node.slots] using hprinted
    rw [print,draft_printed]
    refine Recorded.Yields.bind hcondition fun head hhead => ?_
    exact (encloses_members hstatements).map fun lines hlines =>
      enclosed_braced (hhead.inParentheses rfl) hlines
  | doStatement statements condition =>
    obtain ⟨hstatements,hcondition⟩ := Node.forall_children_doStatement.1 hprinted
    rw [print]
    exact encloses_doLines (encloses_members hstatements) hcondition
  | caseStatement isDefault test statements =>
    obtain ⟨htest,hstatements⟩ := Node.forall_children_caseStatement.1 hprinted
    exact encloses_caseStatement htest hstatements
  | returnStatement value =>
    cases value with
    | none => exact Recorded.yields_ok (enclosed_singleton.2 nested_nil)
    | some value =>
      rw [print,draft_printed]
      exact Recorded.Yields.map (hprinted value (.head _)) fun lines hlines =>
        hlines.wrapped (by decide) (by decide)
  | throwStatement value =>
    rw [print,draft_printed]
    exact Recorded.Yields.map (hprinted value (.head _)) fun lines hlines =>
      hlines.wrapped (by decide) (by decide)
  | binaryExpression operator left right =>
    have hsign := unbracketed_operatorSign (htexts operator (.head _))
    have hleft := hprinted left (.head _)
    cases right with
    | none =>
      rw [print,draft_printed]
      exact Recorded.Yields.map hleft fun lines hlines => (enclosed_signed hlines hsign).1
    | some right =>
      rw [print,draft_printed]
      refine Recorded.Yields.bind hleft fun left hl => ?_
      refine Recorded.Yields.map (hprinted right (.tail _ (.head _))) fun right hr =>
        enclosed_singleton.2 ?_
      simp only [brackets_append,brackets_eq_nil.2 hsign,show brackets " " = [] from rfl,
        List.append_nil]
      exact hl.oneLine.append hr.oneLine
  | unaryExpression operator value =>
    have hsign := unbracketed_operatorSign (htexts operator (.head _))
    rw [print,draft_printed]
    exact Recorded.Yields.map (hprinted value (.head _)) fun lines hlines =>
      (enclosed_signed hlines hsign).1
  | updateExpression operator value isPostfix =>
    have hsign : Unbracketed operator := htexts operator (.head _)
    rw [print,draft_printed]
    refine Recorded.Yields.map (hprinted value (.head _)) fun lines hlines => ?_
    cases isPostfix with
    | false => exact (enclosed_signed hlines hsign).1
    | true => exact (enclosed_signed hlines hsign).2
  | conditionalExpression test success failure =>
    obtain ⟨htest,hsuccess,hfailure⟩ := Node.forall_children_conditionalExpression.1 hprinted
    rw [print,draft_printed]
    refine Recorded.Yields.bind htest fun t ht => ?_
    refine Recorded.Yields.bind hsuccess fun s hs => ?_
    refine Recorded.Yields.bind hfailure fun f hf => ?_
    cases hlines : conditionalLines t s f with
    | none => exact Recorded.yields_fail _
    | some lines => exact Recorded.yields_ok (enclosed_conditionalLines ht hs hf hlines)
  | assignmentExpression left operator right =>
    have hsign := brackets_eq_nil.2 (htexts operator (.head _))
    rw [print,draft_printed]
    refine Recorded.Yields.bind (hprinted left (.head _)) fun left hl => ?_
    refine Recorded.Yields.map (hprinted right (.tail _ (.head _))) fun right hr => ?_
    simp only [Enclosed,bracketsOf_wrap,brackets_append,hsign,show brackets " " = [] from rfl,
      brackets_empty,List.append_nil]
    exact hl.oneLine.append hr
  | callExpression callee arguments =>
    obtain ⟨hcallee,harguments⟩ := Node.forall_children_callExpression.1 hprinted
    rw [print,draft_printed]
    refine Recorded.Yields.bind hcallee fun callee hcallee => ?_
    refine (encloses_arguments harguments).map fun groups hgroups => ?_
    exact enclosed_callLines (by rwa [brackets_tight]) hgroups
  | parenthesizedExpression value | index value =>
    rw [print,draft_printed]
    refine Recorded.Yields.map (hprinted value (.head _)) fun lines hlines =>
      enclosed_singleton.2 ?_
    rw [brackets_append,brackets_append]
    exact Nested.enclose hlines.oneLine rfl
  | path steps =>
    rw [Node.children_path] at hprinted hinside
    rw [print,draft_printed]
    refine (Recorded.Yields.all (encloses_pathTexts hinside hprinted)).map fun texts htexts =>
      enclosed_singleton.2 ?_
    rw [brackets_join rfl]
    exact Nested.flatMap htexts
  | numberLiteral value =>
    exact Recorded.yields_ok (enclosed_singleton.2
      (nested_of_unbracketed (htexts value (.head _)).numeral))
  | breakStatement | continueStatement | nullLiteral =>
    exact Recorded.yields_ok (enclosed_singleton.2 nested_nil)
  | reference text | booleanLiteral text | stringLiteral text | userDefinedLiteral text =>
    exact Recorded.yields_ok (enclosed_singleton.2
      (nested_of_unbracketed (htexts text (.head _))))

theorem enclosing_of_unbracketed (n : Node) (hvalid : Everywhere Node.Valid [n])
    (htexts : Everywhere Node.Unbracketed [n]) : Enclosing n := by
  have hboth : Everywhere (fun m => m.Valid ∧ m.Unbracketed) [n] :=
    fun m hm => ⟨hvalid m hm,htexts m hm⟩
  refine hboth.induct fun m hm hinside hchildren hinner => ?_
  exact enclosing_of_children hm.1 hm.2 (fun c hc => (hinside c hc).2) hchildren hinner

/-- If no text of a valid program has brackets, every segment of its document is balanced, and so is
the text of the document. -/
theorem balanced_document {program : List Node} {d : Document}
    (hvalid : Everywhere Node.Valid program) (htexts : Everywhere Node.Unbracketed program)
    (hd : document program = .ok d) :
    (∀ segment ∈ d.segments, Balanced (join "" segment)) ∧ Balanced d.text := by
  have hprinted : Encloses (printProgram program).draft := encloses_segments fun n hn =>
    enclosing_of_unbracketed n (everywhere_iff.1 hvalid n hn) (everywhere_iff.1 htexts n hn) .top
      nofun
  have hsegments : ∀ segment ∈ d.segments, Enclosed segment := by
    cases hok : (printProgram program).failure with
    | some e => simp [document,hok] at hd
    | none =>
      obtain rfl : (⟨(printProgram program).opened⟩ : Document) = d := by
        simpa [document,hok] using hd
      simpa [Printed.draft,hok] using (hprinted (printProgram program).lines (by simp [Printed.draft,hok])).2
  refine ⟨fun segment hsegment => balanced_of_nested ?_,balanced_of_nested ?_⟩
  · rw [brackets_join rfl]
    exact hsegments segment hsegment
  · rw [Document.text,← join_flatten,brackets_join rfl]
    exact enclosed_flatten hsegments

/-- A function in a namespace with a chain, a call and an index. -/
def bracketProgram : List Node :=
  [.namespaceBlock "a" [.functionDefinition "f" [⟨"n", some "int", none, false, false⟩] none
    [.ifStatement [⟨some (.reference "n"), [.callExpression (.reference "g") [.reference "n"]]⟩,
      ⟨none, [.returnStatement (some (.path [.reference "xs", .index (.reference "n")]))]⟩]]]]

def bracketDocument : Document :=
  ⟨[[], [], ["function a_f(n: number) \x7b", "  if (n) \x7b", "    g(n)", "  \x7d else \x7b",
    "    return xs[n]", "  \x7d", "\x7d"]]⟩

theorem balanced_bracketDocument :
    document bracketProgram = .ok bracketDocument ∧
      (∀ segment ∈ bracketDocument.segments, Balanced (join "" segment)) ∧
      Balanced bracketDocument.text := by
  have hvalid : Everywhere Node.Valid bracketProgram := by
    simp [bracketProgram,everywhere_cons,Node.children,Node.slots,Node.Valid]
  have htexts : Everywhere Node.Unbracketed bracketProgram := by
    simp [bracketProgram,everywhere_cons,Node.children,Node.slots,Node.Unbracketed,Node.texts]
    decide
  have hd : document bracketProgram = .ok bracketDocument := rfl
  exact ⟨hd,balanced_document hvalid htexts hd⟩

end Printing
end Scribe
