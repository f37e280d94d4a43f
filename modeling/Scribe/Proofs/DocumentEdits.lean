import Mathlib.Logic.Relation
import Scribe.Proofs.DocumentFields

/-! Presentations of a document. In the objects of a document the members can change places, members
with names that are no fields can come in, and members with the default value of their field can be
left out; what is loaded stays the same. -/
namespace Scribe

namespace Json
variable {α : Type} {name key : String} {v w : α} {ms before after : List (String × α)}

theorem member?_eq_none (h : name ∉ ms.map Prod.fst) : member? name ms = none := by
  induction ms with
  | nil => rfl
  | cons m ms ih =>
    rcases m with ⟨key,v⟩
    obtain ⟨hkey,hms⟩ := not_or.1 (mt List.mem_cons.2 h)
    rw [member?,ih hms]
    exact if_neg (Ne.symm hkey)

theorem member?_eq_some_iff (h : (ms.map Prod.fst).count name ≤ 1) :
    member? name ms = some v ↔ (name,v) ∈ ms := by
  refine ⟨mem_of_member?,fun hmem => ?_⟩
  induction ms with
  | nil => simp at hmem
  | cons m ms ih =>
    rcases m with ⟨key,u⟩
    rw [List.map_cons,List.count_cons] at h
    rw [member?]
    rcases List.mem_cons.1 hmem with heq | hlater
    · obtain ⟨rfl,rfl⟩ : name = key ∧ v = u := by simpa using heq
      have hnot : name ∉ ms.map Prod.fst := by
        rw [← List.count_eq_zero]
        simp at h
        omega
      rw [member?_eq_none hnot]
      exact if_pos rfl
    · rw [ih (by omega) hlater]

theorem member?_perm {ms' : List (String × α)} (hperm : ms.Perm ms')
    (h : (ms.map Prod.fst).count name ≤ 1) : member? name ms' = member? name ms := by
  have h' : (ms'.map Prod.fst).count name ≤ 1 := by
    rwa [← (hperm.map Prod.fst).count_eq]
  apply Option.ext
  intro v
  rw [member?_eq_some_iff h,member?_eq_some_iff h',hperm.mem_iff]

theorem member?_append_cons (h : key ≠ name) :
    member? name (before ++ (key,v) :: after) = member? name (before ++ after) := by
  induction before with
  | nil =>
    rw [List.nil_append,List.nil_append,member?]
    cases member? name after <;> simp [h]
  | cons m before ih =>
    rcases m with ⟨key',u⟩
    rw [List.cons_append,List.cons_append,member?,member?,ih]

theorem member?_unique (h : ((before ++ (name,v) :: after).map Prod.fst).count name ≤ 1) :
    member? name (before ++ (name,v) :: after) = some v ∧
      member? name (before ++ after) = none := by
  refine ⟨(member?_eq_some_iff h).2 (by simp),member?_eq_none ?_⟩
  rw [← List.count_eq_zero]
  simp only [List.map_append,List.map_cons,List.count_append,List.count_cons_self] at h ⊢
  omega

end Json

namespace Program
open Json

/-- One change to how a value in a document is presented. -/
inductive Edit : Position → Value → Value → Prop
  | permute {shape : Shape} {ms ms' : List (String × Value)} : ms.Perm ms' →
    Edit (.object shape) (.object ms) (.object ms')
  /-- A member whose name is no field comes in. -/
  | insert {shape : Shape} {before after : List (String × Value)} {name : String} {v : Value} :
    (∀ field ∈ shape.fields (before ++ after), field.name ≠ name) →
    Edit (.object shape) (.object (before ++ after)) (.object (before ++ (name,v) :: after))
  /-- A member that has the default value of its field is left out. -/
  | delete {shape : Shape} {before after : List (String × Value)} {field : Field} {v : Value} :
    field ∈ shape.fields (before ++ (field.name,v) :: after) → field.content.default? = some v →
    Edit (.object shape) (.object (before ++ (field.name,v) :: after)) (.object (before ++ after))
  | member {shape : Shape} {before after : List (String × Value)} {field : Field} {v w : Value} :
    field ∈ shape.fields (before ++ (field.name,v) :: after) → Edit field.content.position v w →
    Edit (.object shape) (.object (before ++ (field.name,v) :: after))
      (.object (before ++ (field.name,w) :: after))
  | element {shape : Shape} {before after : List Value} {v w : Value} :
    Edit (.object shape) v w →
    Edit (.list shape) (.array (before ++ v :: after)) (.array (before ++ w :: after))

theorem Edit.only {shape : Shape} {v w : Value} (h : Edit (.object shape) v w) :
    Edit (.list shape) (.array [v]) (.array [w]) :=
  @Edit.element shape [] [] v w h

/-- In every object each field is given at most once, and every node names a kind. -/
inductive Orderly : Position → Value → Prop
  | leaf (v : Value) : Orderly .leaf v
  | null : Orderly (.object .node) .null
  | object {shape : Shape} {ms : List (String × Value)} :
    (shape = .node → (kindOf? ms).isSome) →
    (∀ field ∈ shape.fields ms, (ms.map Prod.fst).count field.name ≤ 1) →
    (∀ field ∈ shape.fields ms, ∀ v, (field.name,v) ∈ ms → Orderly field.content.position v) →
    Orderly (.object shape) (.object ms)
  | list {shape : Shape} {vs : List Value} : (∀ v ∈ vs, Orderly (.object shape) v) →
    Orderly (.list shape) (.array vs)

theorem Kind.nodup_fields (kind : Kind) : ("kind" :: kind.fields.map Field.name).Nodup := by
  cases kind <;> decide

theorem Shape.nodup_fields (shape : Shape) (ms : List (String × Value)) :
    ((shape.fields ms).map Field.name).Nodup := by
  cases shape with
  | node =>
    rw [Shape.fields]
    cases kindOf? ms with
    | none => decide
    | some kind => exact kind.nodup_fields
  | parameter => exact Kind.parameter.nodup_fields
  | declarator | choice => simp [Shape.fields]

theorem Shape.field_eq {shape : Shape} {ms : List (String × Value)} {field field' : Field}
    (h : field ∈ shape.fields ms) (h' : field' ∈ shape.fields ms)
    (hname : field.name = field'.name) : field = field' :=
  List.inj_on_of_nodup_map (shape.nodup_fields ms) h h' hname

theorem many_view_array (shape : Shape) (vs : List Value) :
    shape.many (view (.array vs)) = .list 0 (vs.map fun v => shape.one (view v)) := by
  cases shape <;> simp [Shape.many,Shape.one,view,View.ofElements,viewAll_eq_map,Function.comp_def]

/-- What is orderly stays so, and means the same, when an object is changed to one that agrees. -/
theorem Orderly.of_agree {shape : Shape} {ms ms' : List (String × Value)}
    (hkind : shape = .node → (kindOf? ms).isSome) (hagree : shape.Agree ms ms')
    (hcount : ∀ field ∈ shape.fields ms, (ms'.map Prod.fst).count field.name ≤ 1)
    (hvalues : ∀ field ∈ shape.fields ms, ∀ v, (field.name,v) ∈ ms' →
      Orderly field.content.position v) :
    Orderly (.object shape) (.object ms') ∧
      (Position.object shape).Same (view (.object ms)) (view (.object ms')) := by
  refine ⟨.object (fun hshape => ?_) ?_ ?_,hagree.one hkind,rfl⟩
  · subst hshape
    rw [hagree.same_kind]
    exact hkind rfl
  · rwa [hagree.same_fields]
  · rwa [hagree.same_fields]

theorem Field.agree_of_eq {field : Field} {ms ms' : List (String × Value)}
    (h : member? field.name ms' = member? field.name ms) :
    field.Agree ((member? field.name ms).map view) ((member? field.name ms').map view) := by
  rw [h]
  cases member? field.name ms with
  | none => exact .absent
  | some v => exact .said (.refl _ _)

theorem Edit.keeps {position : Position} {v w : Value} (h : Edit position v w) :
    Orderly position v → Orderly position w ∧ position.Same (view v) (view w) := by
  induction h with
  | @permute shape ms ms' hperm =>
    rintro (_ | _ | ⟨hkind,hcount,hvalues⟩)
    refine Orderly.of_agree hkind (fun field hfield => ?_) (fun field hfield => ?_) ?_
    · exact field.agree_of_eq (member?_perm hperm (hcount field hfield))
    · rw [← (hperm.map Prod.fst).count_eq]
      exact hcount field hfield
    · exact fun field hfield v hv => hvalues field hfield v (hperm.mem_iff.2 hv)
  | @insert shape before after name v hname =>
    rintro (_ | _ | ⟨hkind,hcount,hvalues⟩)
    refine Orderly.of_agree hkind (fun field hfield => ?_) (fun field hfield => ?_) ?_
    · exact field.agree_of_eq (member?_append_cons (hname field hfield).symm)
    · have hfirst := hcount field hfield
      simpa [List.count_cons,(hname field hfield).symm] using hfirst
    · intro field hfield u hu
      refine hvalues field hfield u ?_
      simpa [hname field hfield] using hu
  | @delete shape before after field v hfield hdefault =>
    rintro (_ | _ | ⟨hkind,hcount,hvalues⟩)
    have hsublist : (before ++ after).Sublist (before ++ (field.name,v) :: after) :=
      (List.sublist_cons_self _ _).append_left before
    refine Orderly.of_agree hkind (fun field' hfield' => ?_) (fun field' hfield' => ?_) ?_
    · by_cases hname : field.name = field'.name
      · obtain rfl := Shape.field_eq hfield hfield' hname
        obtain ⟨hfound,hnone⟩ := member?_unique (hcount field hfield)
        rw [hfound,hnone]
        exact .omitted hdefault
      · exact field'.agree_of_eq (member?_append_cons hname).symm
    · exact ((hsublist.map Prod.fst).count_le _).trans (hcount field' hfield')
    · exact fun field' hfield' u hu => hvalues field' hfield' u (hsublist.subset hu)
  | @member shape before after field v w hfield _ ih =>
    rintro (_ | _ | ⟨hkind,hcount,hvalues⟩)
    have hkeys : (before ++ (field.name,w) :: after).map Prod.fst =
        (before ++ (field.name,v) :: after).map Prod.fst := by simp
    obtain ⟨hw,hsame⟩ := ih (hvalues field hfield v (by simp))
    refine Orderly.of_agree hkind (fun field' hfield' => ?_) (fun field' hfield' => ?_) ?_
    · by_cases hname : field.name = field'.name
      · obtain rfl := Shape.field_eq hfield hfield' hname
        have hcount' := hcount field hfield
        rw [(member?_unique hcount').1,(member?_unique (hkeys ▸ hcount')).1]
        exact .said hsame
      · apply field'.agree_of_eq
        rw [member?_append_cons hname,member?_append_cons hname]
    · rw [hkeys]
      exact hcount field' hfield'
    · intro field' hfield' u hu
      by_cases hname : field.name = field'.name
      · obtain rfl := Shape.field_eq hfield hfield' hname
        have hcount' := hcount field hfield
        have hfound := (member?_eq_some_iff (hkeys ▸ hcount')).2 hu
        obtain rfl : w = u := Option.some.inj
          ((member?_unique (hkeys ▸ hcount')).1.symm.trans hfound)
        exact hw
      · refine hvalues field' hfield' u ?_
        simpa [Ne.symm hname] using hu
  | @element shape before after v w _ ih =>
    rintro (_ | _ | _ | hall)
    obtain ⟨hw,hsame,-⟩ := ih (hall v (by simp))
    refine ⟨.list fun u hu => ?_,?_⟩
    · rcases List.mem_append.1 hu with hbefore | hrest
      · exact hall u (List.mem_append_left _ hbefore)
      · rcases List.mem_cons.1 hrest with rfl | hafter
        · exact hw
        · exact hall u (List.mem_append_right _ (.tail _ hafter))
    · rw [Position.Same,many_view_array,many_view_array,List.map_append,List.map_append,
        List.map_cons,List.map_cons,hsame]

/-- Any number of changes keep a value orderly and what it means. -/
theorem keeps_of_edits {position : Position} {v w : Value}
    (h : Relation.ReflTransGen (Edit position) v w) (hv : Orderly position v) :
    Orderly position w ∧ position.Same (view v) (view w) := by
  induction h with
  | refl => exact ⟨hv,.refl _ _⟩
  | tail _ hedit ih =>
    obtain ⟨hmid,hsame⟩ := ih
    obtain ⟨hlast,hsame'⟩ := hedit.keeps hmid
    exact ⟨hlast,hsame.trans hsame'⟩

section Encoded

/-- The members of an object are its fields, one by one. -/
def Lists (fields : List Field) (ms : List (String × Value)) : Prop :=
  List.Forall₂ (fun field m => m.1 = field.name ∧ Orderly field.content.position m.2) fields ms

theorem Lists.names {fields : List Field} {ms : List (String × Value)} (h : Lists fields ms) :
    ms.map Prod.fst = fields.map Field.name := by
  induction h with
  | nil => rfl
  | cons hm _ ih => rw [List.map_cons,List.map_cons,hm.1,ih]

theorem Lists.exists_field {fields : List Field} {ms : List (String × Value)} (h : Lists fields ms)
    {m : String × Value} (hm : m ∈ ms) :
    ∃ field ∈ fields, m.1 = field.name ∧ Orderly field.content.position m.2 := by
  induction h with
  | nil => simp at hm
  | cons hfirst _ ih =>
    rcases List.mem_cons.1 hm with rfl | hrest
    · exact ⟨_,.head _,hfirst⟩
    · obtain ⟨field,hfield,hrelated⟩ := ih hrest
      exact ⟨field,.tail _ hfield,hrelated⟩

theorem orderly_of_lists {shape : Shape} {ms : List (String × Value)}
    (hkind : shape = .node → (kindOf? ms).isSome) (h : Lists (shape.fields ms) ms) :
    Orderly (.object shape) (.object ms) := by
  refine .object hkind (fun field _ => ?_) fun field hfield v hv => ?_
  · rw [h.names]
    exact List.nodup_iff_count_le_one.1 (shape.nodup_fields ms) _
  · obtain ⟨field',hfield',hname,horderly⟩ := h.exists_field hv
    rwa [Shape.field_eq hfield hfield' hname]

theorem orderly_node (kind : Kind) {ms : List (String × Value)} (h : Lists kind.fields ms) :
    Orderly (.object .node) (.object (tag kind :: ms)) := by
  have hkind : kindOf? (tag kind :: ms) = some kind := by
    have hnone : member? "kind" ms = none := by
      apply member?_eq_none
      rw [h.names]
      exact (List.nodup_cons.1 kind.nodup_fields).1
    rw [kindOf?,tag,member?,hnone]
    exact ofName?_name kind
  refine orderly_of_lists (fun _ => by rw [hkind]; rfl) ?_
  rw [Shape.fields,hkind]
  exact .cons ⟨rfl,.leaf _⟩ h

theorem orderly_encodeOption {o : Option Node}
    (h : ∀ n ∈ o, Orderly (.object .node) (encode n)) :
    Orderly (.object .node) (encodeOption o) := by
  cases o with
  | none => exact .null
  | some n => exact h n rfl

theorem orderly_encodeAll {ns : List Node} (h : ∀ n ∈ ns, Orderly (.object .node) (encode n)) :
    Orderly (.list .node) (.array (encodeAll ns)) := by
  rw [encodeAll_eq_map]
  exact .list (List.forall_mem_map.2 h)

theorem orderly_encodeDeclarators {ds : List Declarator}
    (h : ∀ d ∈ ds, ∀ n ∈ d.init, Orderly (.object .node) (encode n)) :
    Orderly (.list .declarator) (.array (encodeDeclarators ds)) := by
  refine .list ?_
  induction ds with
  | nil => simp [encodeDeclarators]
  | cons d ds ih =>
    rcases d with ⟨name,typeName,init,isConst⟩
    obtain ⟨hd,hds⟩ := List.forall_mem_cons.1 h
    refine List.forall_mem_cons.2 ⟨orderly_of_lists (by simp) ?_,ih hds⟩
    exact .cons ⟨rfl,.leaf _⟩ (.cons ⟨rfl,.leaf _⟩ (.cons ⟨rfl,orderly_encodeOption hd⟩
      (.cons ⟨rfl,.leaf _⟩ .nil)))

theorem orderly_encodeChoices {cs : List Choice}
    (h : ∀ c ∈ cs, (∀ n ∈ c.condition, Orderly (.object .node) (encode n)) ∧
      ∀ n ∈ c.statements, Orderly (.object .node) (encode n)) :
    Orderly (.list .choice) (.array (encodeChoices cs)) := by
  refine .list ?_
  induction cs with
  | nil => simp [encodeChoices]
  | cons c cs ih =>
    rcases c with ⟨condition,statements⟩
    obtain ⟨⟨hcondition,hstatements⟩,hcs⟩ := List.forall_mem_cons.1 h
    refine List.forall_mem_cons.2 ⟨orderly_of_lists (by simp) ?_,ih hcs⟩
    exact .cons ⟨rfl,orderly_encodeOption hcondition⟩ (.cons ⟨rfl,orderly_encodeAll hstatements⟩
      .nil)

theorem encode_parameter {p : Parameter}
    (h : ∀ n ∈ p.defaultValue, Orderly (.object .node) (encode n)) :
    ∃ ms, encode (.parameter p) = .object (tag .parameter :: ms) ∧
      Lists Kind.parameter.fields ms := by
  rcases p with ⟨name,typeName,value,isConst,isRef⟩
  exact ⟨_,rfl,.cons ⟨rfl,.leaf _⟩ (.cons ⟨rfl,.leaf _⟩ (.cons ⟨rfl,orderly_encodeOption h⟩
    (.cons ⟨rfl,.leaf _⟩ (.cons ⟨rfl,.leaf _⟩ .nil))))⟩

theorem orderly_encodeParameters {ps : List Parameter}
    (h : ∀ p ∈ ps, ∀ n ∈ p.defaultValue, Orderly (.object .node) (encode n)) :
    Orderly (.list .parameter) (.array (encodeParameters ps)) := by
  rw [encodeParameters_eq_map]
  refine .list (List.forall_mem_map.2 fun p hp => ?_)
  obtain ⟨ms,hencode,hlists⟩ := encode_parameter (h p hp)
  rw [hencode]
  exact orderly_of_lists (by simp) (.cons ⟨rfl,.leaf _⟩ hlists)

theorem orderly_of_children {n : Node} (h : ∀ c ∈ n.children, Orderly (.object .node) (encode c))
    (hinner : ∀ c ∈ n.children, ∀ m ∈ c.children, Orderly (.object .node) (encode m)) :
    Orderly (.object .node) (encode n) := by
  cases n with
  | declaration ds =>
    have hds := orderly_encodeDeclarators (Node.forall_children_declaration.1 h)
    exact orderly_node .declaration (.cons ⟨rfl,hds⟩ .nil)
  | functionDefinition name ps returnType body =>
    obtain ⟨-,hbody⟩ := Node.forall_children_functionDefinition.1 h
    obtain ⟨hps,-⟩ := Node.forall_children_functionDefinition.1 hinner
    have hparameters := orderly_encodeParameters fun p hp =>
      Node.forall_children_parameter.1 (hps p hp)
    exact orderly_node .functionDefinition (.cons ⟨rfl,.leaf _⟩ (.cons ⟨rfl,hparameters⟩
      (.cons ⟨rfl,.leaf _⟩ (.cons ⟨rfl,orderly_encodeAll hbody⟩ .nil))))
  | parameter p =>
    obtain ⟨ms,hencode,hlists⟩ := encode_parameter (Node.forall_children_parameter.1 h)
    rw [hencode]
    exact orderly_node .parameter hlists
  | ifStatement cs =>
    have hcs := orderly_encodeChoices (Node.forall_children_ifStatement.1 h)
    exact orderly_node .ifStatement (.cons ⟨rfl,hcs⟩ .nil)
  | path steps =>
    rw [Node.children_path] at h
    exact orderly_node .path (.cons ⟨rfl,orderly_encodeAll h⟩ .nil)
  | _ =>
    -- All other kinds have only texts, flags, single nodes and lists of nodes for fields.
    rw [encode]
    refine orderly_node _ ?_
    simp +contextual [Lists,Kind.fields,Content.position,Orderly.leaf,h,orderly_encodeAll,
      orderly_encodeOption,Node.children,Node.slots]

theorem orderly_encode (n : Node) : Orderly (.object .node) (encode n) := by
  induction n using Node.induct_inside with
  | step n hchildren hinside => exact orderly_of_children hchildren hinside

end Encoded

/-- A valid program is loaded from its own document and from every other one that comes of it by
changes of the presentation, however many and however deep. -/
theorem load_of_edits {program : List Node} (hvalid : Everywhere Node.Valid program)
    {original edited : Value} (hdump : parse (dump program) = some original)
    (hedits : Relation.ReflTransGen (Edit (.list .node)) original edited) {document : String}
    (hdocument : parse document = some edited) : load document = .valid program := by
  have horiginal : original = .array (encodeAll program) :=
    Option.some.inj (hdump.symm.trans (parse_dump program))
  have horderly : Orderly (.list .node) original := by
    rw [horiginal]
    exact orderly_encodeAll fun n _ => orderly_encode n
  have hsame : (view original).nodes = (view edited).nodes := (keeps_of_edits hedits horderly).2
  calc load document = (view edited).nodes := by
        rw [load,hdocument]
        rfl
    _ = (view original).nodes := hsame.symm
    _ = load (dump program) := by
        rw [load,hdump]
        rfl
    _ = .valid program := load_dump_of_valid hvalid

/-- A function with a parameter, which it returns. -/
def echoProgram : List Node :=
  [.functionDefinition "f" [⟨"x",none,none,false,false⟩] none
    [.returnStatement (some (.reference "x"))]]

/-- The parameter without its kind. -/
def echoParameter : List (String × Value) :=
  [("name",.string "x"),("type_name",.null),("default",.null),("is_const",.bool false),
    ("is_ref",.bool false)]

def echoStatement : List (String × Value) :=
  [tag .returnStatement,("statement",.object [tag .reference,("name",.string "x")])]

def echoHead (parameter : List (String × Value)) : List (String × Value) :=
  [tag .functionDefinition,("name",.string "f"),("parameters",.array [.object parameter])]

def echoBody (statement : List (String × Value)) : String × Value :=
  ("body",.array [.object statement])

/-- The function with its members the other way round and no return type, a parameter that does not
say its kind, and a statement that says where it stands. -/
def echoEdited : Value :=
  .array [.object (echoHead echoParameter ++
    [echoBody (("line",.string "3") :: echoStatement)]).reverse]

theorem load_echoEdited :
    Everywhere Node.Valid echoProgram ∧
    parse (dump echoProgram) = some (.array (encodeAll echoProgram)) ∧
    Relation.ReflTransGen (Edit (.list .node)) (.array (encodeAll echoProgram)) echoEdited ∧
    parse (render echoEdited) = some echoEdited ∧
    load (render echoEdited) = .valid echoProgram := by
  have hvalid : Everywhere Node.Valid echoProgram := by
    simp [echoProgram,everywhere_cons,Node.children,Node.slots,Node.Valid]
  have hparameter : Edit (.list .node)
      (.array [.object (echoHead (tag .parameter :: echoParameter) ++
        [("return_type",.null),echoBody echoStatement])])
      (.array [.object (echoHead echoParameter ++
        [("return_type",.null),echoBody echoStatement])]) := by
    have hkind := @Edit.delete .parameter [] echoParameter ⟨"kind",.parameterKind⟩ _ (.head _) rfl
    exact .only (@Edit.member .node [tag .functionDefinition,("name",.string "f")] _
      ⟨"parameters",.optionalList .parameter⟩ _ _ (.tail _ (.tail _ (.head _))) hkind.only)
  have hstatement : Edit (.list .node)
      (.array [.object (echoHead echoParameter ++
        [("return_type",.null),echoBody echoStatement])])
      (.array [.object (echoHead echoParameter ++
        [("return_type",.null),echoBody (("line",.string "3") :: echoStatement)])]) := by
    have hline := @Edit.insert .node [] echoStatement "line" (.string "3") (by decide)
    exact .only (@Edit.member .node (echoHead echoParameter ++ [("return_type",.null)]) []
      ⟨"body",.optionalList .node⟩ _ _ (.tail _ (.tail _ (.tail _ (.tail _ (.head _))))) hline.only)
  have htype : Edit (.list .node)
      (.array [.object (echoHead echoParameter ++
        [("return_type",.null),echoBody (("line",.string "3") :: echoStatement)])])
      (.array [.object (echoHead echoParameter ++
        [echoBody (("line",.string "3") :: echoStatement)])]) :=
    .only (@Edit.delete .node (echoHead echoParameter) _ ⟨"return_type",.optionalText⟩ _
      (.tail _ (.tail _ (.tail _ (.head _)))) rfl)
  have horder : Edit (.list .node)
      (.array [.object (echoHead echoParameter ++
        [echoBody (("line",.string "3") :: echoStatement)])]) echoEdited :=
    .only (.permute (List.reverse_perm _).symm)
  have hedits : Relation.ReflTransGen (Edit (.list .node)) (.array (encodeAll echoProgram))
      echoEdited := (((Relation.ReflTransGen.single hparameter).tail hstatement).tail htype).tail horder
  have hrender : parse (render echoEdited) = some echoEdited := by
    apply parse_render
    simp [echoEdited,echoHead,echoBody,echoParameter,echoStatement,tag,Value.Numberless,
      AllNumberless,MembersNumberless]
  exact ⟨hvalid,parse_dump _,hedits,hrender,load_of_edits hvalid (parse_dump _) hedits hrender⟩

end Program
end Scribe
