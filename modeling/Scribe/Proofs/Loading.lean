import Scribe.Program.Decode
import Scribe.Proofs.Sorts

/-! What can be loaded. Whatever a document holds, a program that is loaded from it has all
its chains and paths in order, at every depth. -/
namespace Scribe
namespace Program

namespace Checked
variable {α β : Type}

@[simp] theorem map_valid (f : α → β) (a : α) : f <$> valid a = valid (f a) := rfl

@[simp] theorem seq_valid (f : α → β) (a : α) : valid f <*> valid a = valid (f a) := rfl

@[simp] theorem within_valid (step : Step) (a : α) : (valid a).within step = valid a := rfl

theorem within_eq_valid {step : Step} {x : Checked α} {a : α} :
    x.within step = valid a ↔ x = valid a := by
  cases x <;> simp [within]

theorem map_eq_valid {f : α → β} {x : Checked α} {b : β} :
    f <$> x = valid b ↔ ∃ a, x = valid a ∧ f a = b := by
  cases x with
  | valid a => simp
  | faulty faults => exact ⟨nofun,nofun⟩

theorem list_map_valid (position : Nat) (xs : List α) :
    list position (xs.map valid) = valid xs := by
  induction xs generalizing position with
  | nil => rfl
  | cons x xs ih => simp [list,ih,Checked.map,Checked.and]

/-- What comes of a check has a property if it is valid. -/
def Gives (P : α → Prop) (x : Checked α) : Prop := ∀ a, x = valid a → P a

section Gives
variable {P : α → Prop} {Q : β → Prop}

theorem gives_valid {a : α} (h : P a) : (valid a).Gives P := by
  rintro _ ⟨⟩
  exact h

theorem gives_wrong (problem : Problem) : (wrong problem).Gives P := nofun

theorem gives_top (x : Checked α) : x.Gives fun _ => True := fun _ _ => trivial

theorem Gives.map {f : α → β} {x : Checked α} (h : x.Gives P) (hf : ∀ a, P a → Q (f a)) :
    (f <$> x).Gives Q := by
  intro b hb
  obtain ⟨a,ha,rfl⟩ := map_eq_valid.1 hb
  exact hf a (h a ha)

/-- A further field is checked for what the value made so far needs of it. -/
theorem Gives.seq {f : Checked (α → β)} {x : Checked α}
    (hf : f.Gives fun g => ∀ a, P a → Q (g a)) (hx : x.Gives P) : (f <*> x).Gives Q := by
  intro b hb
  cases f with
  | faulty faults => cases x <;> cases hb
  | valid g =>
    cases x with
    | faulty faults => cases hb
    | valid a =>
      obtain rfl : g a = b := by simpa using hb
      exact hf g rfl a (hx a rfl)

theorem Gives.within {x : Checked α} (h : x.Gives P) (step : Step) : (x.within step).Gives P :=
  fun a ha => h a (within_eq_valid.1 ha)

theorem Gives.ensure {x : Checked α} {problem? : α → Option Problem} (h : x.Gives P) :
    (x.ensure problem?).Gives fun a => P a ∧ problem? a = none := by
  intro a ha
  cases x with
  | faulty faults => cases ha
  | valid b =>
    cases hb : problem? b with
    | some problem => simp [Checked.ensure,hb,wrong] at ha
    | none =>
      obtain rfl : b = a := by simpa [Checked.ensure,hb] using ha
      exact ⟨h b rfl,hb⟩

theorem Gives.list {xs : List (Checked α)} (h : ∀ x ∈ xs, x.Gives P) (position : Nat) :
    (list position xs).Gives fun as => ∀ a ∈ as, P a := by
  induction xs generalizing position with
  | nil => exact gives_valid (by simp)
  | cons x xs ih =>
    have hhead := (h x (by simp)).within (.index position)
    have htail := ih (fun y hy => h y (by simp [hy])) (position + 1)
    refine Gives.seq (Gives.map hhead fun a ha => ?_) htail
    intro as has
    exact List.forall_mem_cons.2 ⟨ha,has⟩

end Gives
end Checked

/-- Chains start with a condition and only their last arm may lack one; paths have steps. -/
def Node.Valid : Node → Prop
  | ifStatement choices => (∃ first rest, choices = first :: rest ∧ first.condition.isSome) ∧
    ∀ choice ∈ choices.dropLast, choice.condition.isSome
  | path steps => steps ≠ []
  | _ => True

/-- What is loaded from a value, in whatever role, is valid at every depth. -/
structure View.Sound (v : View) : Prop where
  node : v.node.Gives fun n => Everywhere Node.Valid [n]
  declarator : v.declarator.Gives fun d => Everywhere Node.Valid d.init.toList
  parameter : v.parameter.Gives fun p => Everywhere Node.Valid p.defaultValue.toList
  choice : v.choice.Gives fun c => Everywhere Node.Valid (c.condition.toList ++ c.statements)
  nodes : v.nodes.Gives fun ns => Everywhere Node.Valid ns
  declarators : v.declarators.Gives fun ds =>
    Everywhere Node.Valid (ds.flatMap (·.init.toList))
  parameters : v.parameters.Gives fun ps => Everywhere Node.Valid (ps.map .parameter)
  choices : v.choices.Gives fun cs =>
    Everywhere Node.Valid (cs.flatMap fun c => c.condition.toList ++ c.statements)

section Sound
open Checked

theorem View.Sound.orNull {v : View} (hv : v.Sound) :
    (View.orNull View.node v).Gives fun o => Everywhere Node.Valid o.toList := by
  unfold View.orNull
  split
  · exact gives_valid everywhere_nil
  · exact hv.node.map fun n hn => hn

variable {ms : Members} {α : Type} {P : α → Prop}

namespace Members

def Sound (ms : Members) : Prop := ∀ m ∈ ms, m.2.Sound

namespace Sound

theorem required (hms : ms.Sound) (name : String) {role : View → Checked α}
    (hrole : ∀ v : View, v.Sound → (role v).Gives P) : (ms.required name role).Gives P := by
  unfold Members.required
  split
  · rename_i v hv
    exact (hrole v (hms _ (Json.mem_of_member? hv))).within _
  · exact (gives_wrong _).within _

theorem optional (hms : ms.Sound) (name : String) {role : View → Checked α} {value : α}
    (hrole : ∀ v : View, v.Sound → (role v).Gives P) (hvalue : P value) :
    (ms.optional name role value).Gives P := by
  unfold Members.optional
  split
  · rename_i v hv
    exact (hrole v (hms _ (Json.mem_of_member? hv))).within _
  · exact gives_valid hvalue

theorem node (hms : ms.Sound) (name : String) :
    (ms.required name View.node).Gives fun n => Everywhere Node.Valid [n] :=
  hms.required name fun _ hv => hv.node

theorem node? (hms : ms.Sound) (name : String) :
    (ms.optional name (View.orNull View.node) none).Gives
      fun o => Everywhere Node.Valid o.toList :=
  hms.optional name (fun _ hv => hv.orNull) everywhere_nil

theorem nodes (hms : ms.Sound) (name : String) :
    (ms.optional name View.nodes []).Gives (Everywhere Node.Valid) :=
  hms.optional name (fun _ hv => hv.nodes) everywhere_nil

theorem declarator (hms : ms.Sound) :
    ms.declarator.Gives fun d => Everywhere Node.Valid d.init.toList := by
  refine .seq (.seq (.seq (.map (gives_top _) ?_) (gives_top _)) (hms.node? "init")) (gives_top _)
  intro name _ typeName _ init hinit isConst _
  exact hinit

theorem parameter (hms : ms.Sound) :
    ms.parameter.Gives fun p => Everywhere Node.Valid p.defaultValue.toList := by
  refine .seq (.seq (.seq (.seq (.seq (.map (gives_top _) ?_) (gives_top _)) (gives_top _))
    (hms.node? "default")) (gives_top _)) (gives_top _)
  intro _ _ name _ typeName _ value hvalue isConst _ isRef _
  exact hvalue

theorem choice (hms : ms.Sound) :
    ms.choice.Gives fun c => Everywhere Node.Valid (c.condition.toList ++ c.statements) := by
  refine .seq (.map (hms.node? "condition") ?_) (hms.nodes "statements")
  intro condition hcondition statements hstatements
  exact everywhere_append.2 ⟨hcondition,hstatements⟩

theorem chain (hms : ms.Sound) : ms.chain.Gives fun choices =>
    Everywhere Node.Valid [.ifStatement choices] := by
  intro choices hchoices
  obtain ⟨harms,hproblem⟩ := Gives.ensure (hms.required "choices" fun _ hv => hv.choices) _ hchoices
  rw [everywhere_singleton,Node.children_ifStatement]
  exact ⟨chainFault?_eq_none.1 (chainProblem?_eq_none.1 hproblem),harms⟩

theorem steps (hms : ms.Sound) :
    ms.steps.Gives fun steps => Everywhere Node.Valid [.path steps] := by
  intro steps hsteps
  obtain ⟨hinside,hproblem⟩ := Gives.ensure (hms.required "steps" fun _ hv => hv.nodes) _ hsteps
  rw [everywhere_singleton,Node.children_path]
  exact ⟨pathProblem?_eq_none.1 hproblem,hinside⟩

theorem fields (hms : ms.Sound) (kind : Kind) :
    (ms.fields kind).Gives fun n => Everywhere Node.Valid [n] := by
  cases kind with
  | breakStatement | continueStatement | nullLiteral =>
    apply gives_valid
    simp_all [everywhere_cons,Node.Valid,Node.children,Node.slots]
  | reference | numberLiteral | booleanLiteral | stringLiteral | userDefinedLiteral =>
    refine .map (gives_top _) ?_
    intro text _
    simp_all [everywhere_cons,Node.Valid,Node.children,Node.slots]
  | namespaceBlock =>
    refine .seq (.map (gives_top _) ?_) (hms.nodes "body")
    intro name _ body hbody
    simp_all [everywhere_cons,Node.Valid,Node.children,Node.slots,Function.comp_def]
  | declaration =>
    refine .map (hms.optional "declarators" (fun _ hv => hv.declarators) everywhere_nil) ?_
    intro ds hds
    rw [everywhere_singleton,Node.children_declaration]
    exact ⟨trivial,hds⟩
  | functionDefinition =>
    refine .seq (.seq (.seq (.map (gives_top _) ?_)
      (hms.optional "parameters" (fun _ hv => hv.parameters) everywhere_nil)) (gives_top _))
      (hms.nodes "body")
    intro name _ parameters hparameters returnType _ body hbody
    simp_all [everywhere_cons,Node.Valid,Node.children,Node.slots,Function.comp_def]
  | parameter =>
    refine .map hms.parameter ?_
    intro p hp
    simp_all [everywhere_cons,Node.Valid,Node.children,Node.slots,Function.comp_def]
  | block =>
    refine .map (hms.nodes "statements") ?_
    intro statements hstatements
    simp_all [everywhere_cons,Node.Valid,Node.children,Node.slots,Function.comp_def]
  | ifStatement => exact .map hms.chain fun _ h => h
  | path => exact .map hms.steps fun _ h => h
  | forStatement =>
    refine .seq (.seq (.seq (.map (hms.nodes "init") ?_) (hms.node? "test"))
      (hms.node? "update")) (hms.nodes "body")
    intro init hinit test htest update hupdate body hbody
    simp_all [everywhere_cons,Node.Valid,Node.children,Node.slots,Function.comp_def]
  | whileStatement | switchStatement =>
    refine .seq (.map (hms.node "condition") ?_) (hms.nodes "statements")
    intro condition hcondition statements hstatements
    simp_all [everywhere_cons,Node.Valid,Node.children,Node.slots,Function.comp_def]
  | doStatement =>
    refine .seq (.map (hms.nodes "statements") ?_) (hms.node "condition")
    intro statements hstatements condition hcondition
    simp_all [everywhere_cons,Node.Valid,Node.children,Node.slots,Function.comp_def]
  | caseStatement =>
    refine .seq (.seq (.map (gives_top _) ?_) (hms.node? "test")) (hms.nodes "statements")
    intro isDefault _ test htest statements hstatements
    simp_all [everywhere_cons,Node.Valid,Node.children,Node.slots,Function.comp_def]
  | returnStatement =>
    refine .map (hms.node? "statement") ?_
    intro statement hstatement
    simp_all [everywhere_cons,Node.Valid,Node.children,Node.slots,Function.comp_def]
  | throwStatement | index =>
    refine .map (hms.node "expression") ?_
    intro expression hexpression
    simp_all [everywhere_cons,Node.Valid,Node.children,Node.slots]
  | binaryExpression =>
    refine .seq (.seq (.map (gives_top _) ?_) (hms.node "left")) (hms.node? "right")
    intro operator _ left hleft right hright
    simp_all [everywhere_cons,Node.Valid,Node.children,Node.slots,Function.comp_def]
  | unaryExpression =>
    refine .seq (.map (gives_top _) ?_) (hms.node "expression")
    intro operator _ expression hexpression
    simp_all [everywhere_cons,Node.Valid,Node.children,Node.slots]
  | updateExpression =>
    refine .seq (.seq (.map (gives_top _) ?_) (hms.node "expression")) (gives_top _)
    intro operator _ expression hexpression isPostfix _
    simp_all [everywhere_cons,Node.Valid,Node.children,Node.slots]
  | conditionalExpression =>
    refine .seq (.seq (.map (hms.node "test") ?_) (hms.node "success")) (hms.node "failure")
    intro test htest success hsuccess failure hfailure
    simp_all [everywhere_cons,Node.Valid,Node.children,Node.slots]
  | assignmentExpression =>
    refine .seq (.seq (.map (hms.node "left") ?_) (gives_top _)) (hms.node "right")
    intro left hleft operator _ right hright
    simp_all [everywhere_cons,Node.Valid,Node.children,Node.slots]
  | callExpression =>
    refine .seq (.map (hms.node "object") ?_) (hms.nodes "args")
    intro callee hcallee arguments harguments
    simp_all [everywhere_cons,Node.Valid,Node.children,Node.slots,Function.comp_def]
  | parenthesizedExpression =>
    refine .map (hms.node "value") ?_
    intro value hvalue
    simp_all [everywhere_cons,Node.Valid,Node.children,Node.slots]

theorem ofMembers (hms : ms.Sound) : (View.ofMembers ms).Sound where
  node := by
    rw [View.ofMembers,Members.node]
    split
    · exact gives_wrong _
    · split
      · exact gives_wrong _
      · exact (hms.fields _).within _
  declarator := hms.declarator
  parameter := hms.parameter
  choice := hms.choice
  nodes := gives_wrong _
  declarators := gives_wrong _
  parameters := gives_wrong _
  choices := gives_wrong _

end Sound
end Members

theorem View.Sound.ofElements {vs : List View} (h : ∀ v ∈ vs, v.Sound) :
    (View.ofElements vs).Sound where
  node := gives_wrong _
  declarator := gives_wrong _
  parameter := gives_wrong _
  choice := gives_wrong _
  nodes := by
    intro ns hns
    have hall := Gives.list (List.forall_mem_map.2 fun v hv => (h v hv).node) 0 ns hns
    exact everywhere_iff.2 hall
  declarators := by
    intro ds hds
    have hall := Gives.list (List.forall_mem_map.2 fun v hv => (h v hv).declarator) 0 ds hds
    exact everywhere_flatMap.2 hall
  parameters := by
    intro ps hps
    have hall := Gives.list (List.forall_mem_map.2 fun v hv => (h v hv).parameter) 0 ps hps
    refine everywhere_iff.2 (List.forall_mem_map.2 fun p hp => ?_)
    rw [everywhere_singleton]
    refine ⟨trivial,?_⟩
    simpa [Node.children,Node.slots,Function.comp_def] using hall p hp
  choices := by
    intro cs hcs
    have hall := Gives.list (List.forall_mem_map.2 fun v hv => (h v hv).choice) 0 cs hcs
    exact everywhere_flatMap.2 hall

theorem View.sound_scalar (isNull : Bool) (word? : Option String) (text : Checked String)
    (flag : Checked Bool) :
    View.Sound { isNull := isNull, word? := word?, text := text, flag := flag } where
  node := gives_wrong _
  declarator := gives_wrong _
  parameter := gives_wrong _
  choice := gives_wrong _
  nodes := gives_wrong _
  declarators := gives_wrong _
  parameters := gives_wrong _
  choices := gives_wrong _

mutual
theorem view_sound : ∀ v : Json.Value, (view v).Sound
  | .null => View.sound_scalar ..
  | .bool _ => View.sound_scalar ..
  | .number _ => View.sound_scalar ..
  | .string _ => View.sound_scalar ..
  | .array vs => .ofElements (viewAll_sound vs)
  | .object ms => (viewMembers_sound ms).ofMembers

theorem viewAll_sound : ∀ vs : List Json.Value, ∀ v ∈ viewAll vs, v.Sound
  | [] => by simp [viewAll]
  | v :: vs => List.forall_mem_cons.2 ⟨view_sound v,viewAll_sound vs⟩

theorem viewMembers_sound : ∀ ms : List (String × Json.Value), (viewMembers ms).Sound
  | [] => by simp [viewMembers,Members.Sound]
  | (_,v) :: ms => List.forall_mem_cons.2 ⟨view_sound v,viewMembers_sound ms⟩
end

theorem valid_of_load {document : String} {program : List Node}
    (h : load document = .valid program) : Everywhere Node.Valid program := by
  unfold load at h
  split at h
  · exact (view_sound _).nodes program h
  · exact absurd h nofun

end Sound

end Program
end Scribe
