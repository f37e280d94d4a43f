import Scribe.Program.Encode
import Scribe.Proofs.JsonRoundTrip
import Scribe.Proofs.Loading

/-! Programs as documents. A program whose chains and paths are in order is loaded from the
document that it is dumped as; these are all the programs that can be loaded. -/
namespace Scribe
namespace Program

/-- A node that is read back from what it is encoded as. -/
def Loads (n : Node) : Prop := (view (encode n)).node = .valid n

section Encoded

theorem encodeAll_eq_map (ns : List Node) : encodeAll ns = ns.map encode := by
  induction ns with
  | nil => rfl
  | cons n ns ih => rw [encodeAll,ih,List.map_cons]

theorem viewAll_eq_map (vs : List Json.Value) : viewAll vs = vs.map view := by
  induction vs with
  | nil => rfl
  | cons v vs ih => rw [viewAll,ih,List.map_cons]

@[simp] theorem text_view_string (s : String) : (view (.string s)).text = .valid s := rfl

@[simp] theorem flag_view_bool (b : Bool) : (view (.bool b)).flag = .valid b := rfl

@[simp] theorem orNull_view_encodeText (s : Option String) :
    View.orNull View.text (view (encodeText s)) = .valid s := by
  cases s <;> rfl

theorem isNull_view_encode (n : Node) : (view (encode n)).isNull = false := by
  cases n with
  | parameter p =>
    cases p
    rfl
  | _ => rfl

theorem orNull_view_encodeOption {o : Option Node} (h : ∀ n ∈ o, Loads n) :
    View.orNull View.node (view (encodeOption o)) = .valid o := by
  cases o with
  | none => rfl
  | some n =>
    have hn : (view (encode n)).node = .valid n := h n rfl
    simp only [encodeOption,View.orNull,isNull_view_encode,hn]
    rfl

theorem nodes_view_encodeAll {ns : List Node} (h : ∀ n ∈ ns, Loads n) :
    (view (.array (encodeAll ns))).nodes = .valid ns := by
  have hmap : (viewAll (encodeAll ns)).map View.node = ns.map .valid := by
    rw [encodeAll_eq_map,viewAll_eq_map,List.map_map,List.map_map]
    exact List.map_congr_left h
  rw [view,View.ofElements,hmap,Checked.list_map_valid]

theorem declarators_view_encode {ds : List Declarator} (h : ∀ d ∈ ds, ∀ n ∈ d.init, Loads n) :
    (view (.array (encodeDeclarators ds))).declarators = .valid ds := by
  have hmap : (viewAll (encodeDeclarators ds)).map View.declarator = ds.map .valid := by
    induction ds with
    | nil => rfl
    | cons d ds ih =>
      rcases d with ⟨name,typeName,init,isConst⟩
      have hinit : View.orNull View.node (view (encodeOption init)) = .valid init :=
        orNull_view_encodeOption (h _ List.mem_cons_self)
      have htail := ih fun d hd => h d (List.mem_cons_of_mem _ hd)
      rw [encodeDeclarators,viewAll,List.map_cons,htail,view,View.ofMembers,Members.declarator]
      simp [Members.required,Members.optional,Json.member?,viewMembers,hinit]
  rw [view,View.ofElements,hmap,Checked.list_map_valid]

theorem choices_view_encode {cs : List Choice}
    (h : ∀ c ∈ cs, (∀ n ∈ c.condition, Loads n) ∧ ∀ n ∈ c.statements, Loads n) :
    (view (.array (encodeChoices cs))).choices = .valid cs := by
  have hmap : (viewAll (encodeChoices cs)).map View.choice = cs.map .valid := by
    induction cs with
    | nil => rfl
    | cons c cs ih =>
      rcases c with ⟨condition,statements⟩
      have hcondition : View.orNull View.node (view (encodeOption condition)) = .valid condition :=
        orNull_view_encodeOption (h _ List.mem_cons_self).1
      have hstatements : (view (.array (encodeAll statements))).nodes = .valid statements :=
        nodes_view_encodeAll (h _ List.mem_cons_self).2
      have htail := ih fun c hc => h c (List.mem_cons_of_mem _ hc)
      rw [encodeChoices,viewAll,List.map_cons,htail,view,View.ofMembers,Members.choice]
      simp [Members.optional,Json.member?,viewMembers,hcondition,hstatements]
  rw [view,View.ofElements,hmap,Checked.list_map_valid]

theorem ofName?_name (kind : Kind) : Kind.ofName? kind.name = some kind := by
  cases kind <;> decide

theorem node_view_object (kind : Kind) (ms : List (String × Json.Value))
    (h : Json.member? "kind" (viewMembers ms) = none) :
    (view (.object (tag kind :: ms))).node =
      (Members.fields (viewMembers (tag kind :: ms)) kind).within (.field kind.name) := by
  rw [view,View.ofMembers,Members.node]
  simp only [viewMembers,tag,Json.member?,h,if_true,view,Option.bind_some,ofName?_name]

theorem encodeParameters_eq_map (ps : List Parameter) :
    encodeParameters ps = ps.map fun p => encode (.parameter p) := by
  induction ps with
  | nil => rfl
  | cons p ps ih =>
    cases p
    rw [encodeParameters,ih,List.map_cons,encode]

theorem parameter_view_encode {p : Parameter} (h : Loads (.parameter p)) :
    (view (encode (.parameter p))).parameter = .valid p := by
  cases p
  rw [Loads,encode,node_view_object _ _ rfl,Members.fields,Checked.within_eq_valid,
    Checked.map_eq_valid] at h
  obtain ⟨q,hq,hparameter⟩ := h
  cases hparameter
  exact hq

theorem parameters_view_encode {ps : List Parameter} (h : ∀ p ∈ ps, Loads (.parameter p)) :
    (view (.array (encodeParameters ps))).parameters = .valid ps := by
  have hmap : (viewAll (encodeParameters ps)).map View.parameter = ps.map .valid := by
    rw [encodeParameters_eq_map,viewAll_eq_map,List.map_map,List.map_map]
    exact List.map_congr_left fun p hp => parameter_view_encode (h p hp)
  rw [view,View.ofElements,hmap,Checked.list_map_valid]

theorem Loads.node {n : Node} (h : Loads n) : (view (encode n)).node = .valid n := h

theorem loads_of_children {n : Node} (hn : n.Valid) (h : ∀ c ∈ n.children, Loads c) :
    Loads n := by
  cases n with
  | declaration ds =>
    have hinits := Node.forall_children_declaration.1 h
    rw [Loads,encode,node_view_object _ _ rfl,Members.fields]
    simp [Members.optional,Json.member?,viewMembers,tag,declarators_view_encode hinits]
  | functionDefinition name ps returnType body =>
    obtain ⟨hps,hbody⟩ := Node.forall_children_functionDefinition.1 h
    rw [Loads,encode,node_view_object _ _ rfl,Members.fields]
    simp [Members.required,Members.optional,Json.member?,viewMembers,tag,
      parameters_view_encode hps,nodes_view_encodeAll hbody]
  | parameter p =>
    rcases p with ⟨name,typeName,value,isConst,isRef⟩
    have hvalue : ∀ n ∈ value, Loads n := Node.forall_children_parameter.1 h
    have hkind : (view (.string Kind.parameter.name)).word? = some Kind.parameter.name := rfl
    rw [Loads,encode,node_view_object _ _ rfl,Members.fields,Members.parameter]
    simp [Members.required,Members.optional,Members.parameterKind,Json.member?,viewMembers,tag,
      hkind,orNull_view_encodeOption hvalue]
  | ifStatement choices =>
    have harms := Node.forall_children_ifStatement.1 h
    have hchain : chainProblem? choices = none :=
      chainProblem?_eq_none.2 (chainFault?_eq_none.2 hn)
    rw [Loads,encode,node_view_object _ _ rfl,Members.fields,Members.chain]
    simp [Members.required,Json.member?,viewMembers,tag,choices_view_encode harms,Checked.ensure,
      hchain]
  | path steps =>
    have hsteps : ∀ n ∈ steps, Loads n := by
      rwa [Node.children_path] at h
    have hpath : pathProblem? steps = none := pathProblem?_eq_none.2 hn
    rw [Loads,encode,node_view_object _ _ rfl,Members.fields,Members.steps]
    simp [Members.required,Json.member?,viewMembers,tag,nodes_view_encodeAll hsteps,Checked.ensure,
      hpath]
  | _ =>
    -- All other kinds have only texts, flags, single nodes and lists of nodes for fields.
    rw [Loads,encode,node_view_object _ _ rfl,Members.fields]
    simp +contextual [Members.required,Members.optional,Json.member?,viewMembers,tag,h,Loads.node,
      nodes_view_encodeAll,orNull_view_encodeOption,Node.children,Node.slots]

/-- Every node that is valid at every depth is loaded. -/
theorem loads_of_valid (n : Node) (h : Everywhere Node.Valid [n]) : Loads n :=
  h.induct fun _ hvalid _ hchildren _ => loads_of_children hvalid hchildren

end Encoded

section Numberless
open Json

theorem numberless_encodeText (s : Option String) : (encodeText s).Numberless := by
  cases s <;> trivial

theorem numberless_encodeOption {o : Option Node} (h : ∀ n ∈ o, (encode n).Numberless) :
    (encodeOption o).Numberless := by
  cases o with
  | none => trivial
  | some n => exact h n rfl

theorem numberless_encodeAll {ns : List Node} (h : ∀ n ∈ ns, (encode n).Numberless) :
    AllNumberless (encodeAll ns) := by
  induction ns with
  | nil => trivial
  | cons n ns ih =>
    obtain ⟨hn,hns⟩ := List.forall_mem_cons.1 h
    exact ⟨hn,ih hns⟩

theorem numberless_encodeDeclarators {ds : List Declarator}
    (h : ∀ d ∈ ds, ∀ n ∈ d.init, (encode n).Numberless) : AllNumberless (encodeDeclarators ds) := by
  induction ds with
  | nil => trivial
  | cons d ds ih =>
    rcases d with ⟨name,typeName,init,isConst⟩
    obtain ⟨hd,hds⟩ := List.forall_mem_cons.1 h
    rw [encodeDeclarators]
    exact ⟨⟨trivial,numberless_encodeText _,numberless_encodeOption hd,trivial,trivial⟩,ih hds⟩

theorem numberless_encodeChoices {cs : List Choice}
    (h : ∀ c ∈ cs, (∀ n ∈ c.condition, (encode n).Numberless) ∧
      ∀ n ∈ c.statements, (encode n).Numberless) : AllNumberless (encodeChoices cs) := by
  induction cs with
  | nil => trivial
  | cons c cs ih =>
    rcases c with ⟨condition,statements⟩
    obtain ⟨⟨hcondition,hstatements⟩,hcs⟩ := List.forall_mem_cons.1 h
    rw [encodeChoices]
    exact ⟨⟨numberless_encodeOption hcondition,numberless_encodeAll hstatements,trivial⟩,ih hcs⟩

theorem numberless_encodeParameters {ps : List Parameter}
    (h : ∀ p ∈ ps, (encode (.parameter p)).Numberless) : AllNumberless (encodeParameters ps) := by
  induction ps with
  | nil => trivial
  | cons p ps ih =>
    obtain ⟨hp,hps⟩ := List.forall_mem_cons.1 h
    cases p
    rw [encodeParameters]
    exact ⟨hp,ih hps⟩

/-- Programs are encoded without numbers. -/
theorem numberless_encode (n : Node) : (encode n).Numberless := by
  induction n using Node.induct_children with
  | step n ih =>
    cases n with
    | declaration ds =>
      have hds := numberless_encodeDeclarators (Node.forall_children_declaration.1 ih)
      exact ⟨trivial,hds,trivial⟩
    | functionDefinition name ps returnType body =>
      obtain ⟨hps,hbody⟩ := Node.forall_children_functionDefinition.1 ih
      exact ⟨trivial,trivial,numberless_encodeParameters hps,numberless_encodeText _,
        numberless_encodeAll hbody,trivial⟩
    | parameter p =>
      rcases p with ⟨name,typeName,value,isConst,isRef⟩
      have hvalue := numberless_encodeOption (Node.forall_children_parameter.1 ih)
      exact ⟨trivial,trivial,numberless_encodeText _,hvalue,trivial,trivial,trivial⟩
    | ifStatement cs =>
      have hcs := numberless_encodeChoices (Node.forall_children_ifStatement.1 ih)
      exact ⟨trivial,hcs,trivial⟩
    | path steps =>
      rw [Node.children_path] at ih
      exact ⟨trivial,numberless_encodeAll ih,trivial⟩
    | _ =>
      rw [encode]
      simp +contextual [Value.Numberless,MembersNumberless,tag,ih,Node.children,Node.slots,
        numberless_encodeAll,numberless_encodeOption]

end Numberless

theorem parse_dump (program : List Node) :
    Json.parse (dump program) = some (.array (encodeAll program)) :=
  Json.parse_render (numberless_encodeAll fun n _ => numberless_encode n)

theorem load_dump_of_valid {program : List Node} (h : Everywhere Node.Valid program) :
    load (dump program) = .valid program := by
  rw [load,parse_dump]
  exact nodes_view_encodeAll fun n hn => loads_of_valid n (everywhere_iff.1 h n hn)

/-- A program whose chains and paths are in order at every depth is loaded from the document
that it is dumped as. Whatever is loaded from any document is such a program. -/
theorem load_dump :
    (∀ program, Everywhere Node.Valid program → load (dump program) = .valid program) ∧
      ∀ document program, load document = .valid program →
        Everywhere Node.Valid program ∧ load (dump program) = load document := by
  refine ⟨fun program h => load_dump_of_valid h,fun document program h => ?_⟩
  have hvalid := valid_of_load h
  rw [h]
  exact ⟨hvalid,load_dump_of_valid hvalid⟩

def sampleChain : List Node :=
  [.ifStatement [⟨some (.path [.reference "a\n",.index (.stringLiteral "\"é😀\"")]),
      [.breakStatement]⟩,
    ⟨none,[.declaration [⟨"x",some "int",none,true⟩]]⟩]]

theorem load_dump_sampleChain :
    (Everywhere Node.Valid sampleChain ∧ load (dump sampleChain) = .valid sampleChain) ∧
      load " [ ] " = .valid [] ∧ load (dump []) = load " [ ] " := by
  have hvalid : Everywhere Node.Valid sampleChain := by
    simp [sampleChain,everywhere_cons,Node.Valid,Node.children,Node.slots]
  have hempty : load " [ ] " = .valid [] := rfl
  exact ⟨⟨hvalid,load_dump.1 sampleChain hvalid⟩,hempty,(load_dump.2 _ [] hempty).2⟩

end Program
end Scribe
