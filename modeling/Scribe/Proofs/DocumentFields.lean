import Scribe.Proofs.Documents

/-! The fields of the objects in a document. What an object is read as depends only on its fields,
and of a field only on what is said of it: a field that may be left out says the same when it has
its default value. -/
namespace Scribe
namespace Program
open Json (Value member?)

/-- What an object in a document stands for. -/
inductive Shape where
  | node
  | declarator
  | parameter
  | choice
deriving DecidableEq, Repr

namespace Shape

abbrev Item : Shape → Type
  | node => Node
  | declarator => Declarator
  | parameter => Parameter
  | choice => Choice

def one : (shape : Shape) → View → Checked shape.Item
  | node => View.node
  | declarator => View.declarator
  | parameter => View.parameter
  | choice => View.choice

def many : (shape : Shape) → View → Checked (List shape.Item)
  | node => View.nodes
  | declarator => View.declarators
  | parameter => View.parameters
  | choice => View.choices

end Shape

/-- Where the value of a field has further objects. -/
inductive Position where
  | leaf
  | object (shape : Shape)
  | list (shape : Shape)

/-- The values mean the same there. -/
def Position.Same : Position → View → View → Prop
  | leaf, v, w => v = w
  | object shape, v, w => shape.one v = shape.one w ∧ v.isNull = w.isNull
  | list shape, v, w => shape.many v = shape.many w

theorem Position.Same.refl (position : Position) (v : View) : position.Same v v := by
  cases position with
  | leaf => rfl
  | object shape => exact ⟨rfl,rfl⟩
  | list shape => rfl

theorem Position.Same.trans {position : Position} {u v w : View} (h : position.Same u v)
    (h' : position.Same v w) : position.Same u w := by
  cases position with
  | leaf => exact Eq.trans h h'
  | object shape => exact ⟨h.1.trans h'.1,h.2.trans h'.2⟩
  | list shape => exact Eq.trans h h'

/-- What a field says. -/
inductive Content where
  /-- The kind of a node. -/
  | kind
  /-- The kind of what can only be a parameter. -/
  | parameterKind
  | text
  | optionalText
  | flag (value : Bool)
  | node
  | optionalNode
  | optionalList (shape : Shape)
  | list (shape : Shape)

namespace Content

def default? : Content → Option Value
  | parameterKind => some (.string Kind.parameter.name)
  | optionalText | optionalNode => some .null
  | flag value => some (.bool value)
  | optionalList _ => some (.array [])
  | kind | text | node | list _ => none

def position : Content → Position
  | node | optionalNode => .object .node
  | optionalList shape | list shape => .list shape
  | kind | parameterKind | text | optionalText | flag _ => .leaf

end Content

structure Field where
  name : String
  content : Content

/-- The fields of a node of a kind, apart from the kind itself. -/
def Kind.fields : Kind → List Field
  | namespaceBlock => [⟨"name",.text⟩,⟨"body",.optionalList .node⟩]
  | declaration => [⟨"declarators",.optionalList .declarator⟩]
  | functionDefinition => [⟨"name",.text⟩,⟨"parameters",.optionalList .parameter⟩,
    ⟨"return_type",.optionalText⟩,⟨"body",.optionalList .node⟩]
  | parameter => [⟨"name",.text⟩,⟨"type_name",.optionalText⟩,⟨"default",.optionalNode⟩,
    ⟨"is_const",.flag false⟩,⟨"is_ref",.flag false⟩]
  | block => [⟨"statements",.optionalList .node⟩]
  | ifStatement => [⟨"choices",.list .choice⟩]
  | forStatement => [⟨"init",.optionalList .node⟩,⟨"test",.optionalNode⟩,⟨"update",.optionalNode⟩,
    ⟨"body",.optionalList .node⟩]
  | whileStatement | switchStatement => [⟨"condition",.node⟩,⟨"statements",.optionalList .node⟩]
  | doStatement => [⟨"statements",.optionalList .node⟩,⟨"condition",.node⟩]
  | caseStatement => [⟨"is_default",.flag false⟩,⟨"test",.optionalNode⟩,
    ⟨"statements",.optionalList .node⟩]
  | returnStatement => [⟨"statement",.optionalNode⟩]
  | throwStatement => [⟨"expression",.node⟩]
  | breakStatement | continueStatement | nullLiteral => []
  | binaryExpression => [⟨"operator",.text⟩,⟨"left",.node⟩,⟨"right",.optionalNode⟩]
  | unaryExpression => [⟨"operator",.text⟩,⟨"expression",.node⟩]
  | updateExpression => [⟨"operator",.text⟩,⟨"expression",.node⟩,⟨"is_postfix",.flag true⟩]
  | conditionalExpression => [⟨"test",.node⟩,⟨"success",.node⟩,⟨"failure",.node⟩]
  | assignmentExpression => [⟨"left",.node⟩,⟨"operator",.text⟩,⟨"right",.node⟩]
  | callExpression => [⟨"object",.node⟩,⟨"args",.optionalList .node⟩]
  | parenthesizedExpression => [⟨"value",.node⟩]
  | path => [⟨"steps",.list .node⟩]
  | index => [⟨"expression",.node⟩]
  | reference => [⟨"name",.text⟩]
  | numberLiteral | booleanLiteral | stringLiteral => [⟨"value",.text⟩]
  | userDefinedLiteral => [⟨"text",.text⟩]

/-- The kind that the members of an object name. -/
def kindOf? (ms : List (String × Value)) : Option Kind :=
  match member? "kind" ms with
  | some (.string s) => Kind.ofName? s
  | _ => none

/-- The fields of an object; those of a node depend on the kind that it names. -/
def Shape.fields : Shape → List (String × Value) → List Field
  | node, ms => ⟨"kind",.kind⟩ :: ((kindOf? ms).map Kind.fields).getD []
  | declarator, _ => [⟨"name",.text⟩,⟨"type_name",.optionalText⟩,⟨"init",.optionalNode⟩,
    ⟨"is_const",.flag false⟩]
  | parameter, _ => ⟨"kind",.parameterKind⟩ :: Kind.parameter.fields
  | choice, _ => [⟨"condition",.optionalNode⟩,⟨"statements",.optionalList .node⟩]

/-- What two objects say of a field is the same, perhaps because one leaves out the default. -/
inductive Field.Agree (field : Field) : Option View → Option View → Prop
  | absent : field.Agree none none
  | said {v w : View} : field.content.position.Same v w → field.Agree (some v) (some w)
  | omitted {value : Value} : field.content.default? = some value →
    field.Agree (some (view value)) none

section Reading
variable {α : Type} {field : Field} {xs ys : Members} {role : View → Checked α}

theorem required_of_agree (h : field.Agree (member? field.name xs) (member? field.name ys))
    (hrole : ∀ v w, field.content.position.Same v w → role v = role w)
    (hdefault : field.content.default? = none) :
    xs.required field.name role = ys.required field.name role := by
  unfold Members.required
  generalize member? field.name xs = x at h
  generalize member? field.name ys = y at h
  cases h with
  | absent => rfl
  | said hsame => simp only [hrole _ _ hsame]
  | omitted hvalue => simp [hdefault] at hvalue

theorem optional_of_agree (h : field.Agree (member? field.name xs) (member? field.name ys))
    (hrole : ∀ v w, field.content.position.Same v w → role v = role w) {a : α}
    (hdefault : ∀ value, field.content.default? = some value → role (view value) = .valid a) :
    xs.optional field.name role a = ys.optional field.name role a := by
  unfold Members.optional
  generalize member? field.name xs = x at h
  generalize member? field.name ys = y at h
  cases h with
  | absent => rfl
  | said hsame => simp only [hrole _ _ hsame]
  | omitted hvalue => simp only [hdefault _ hvalue,Checked.within]

theorem word?_of_agree (h : field.Agree (member? field.name xs) (member? field.name ys))
    (hfield : field.content = .kind) :
    (member? field.name xs).map View.word? = (member? field.name ys).map View.word? := by
  generalize member? field.name xs = x at h
  generalize member? field.name ys = y at h
  cases h with
  | absent => rfl
  | said hsame =>
    rw [hfield] at hsame
    rw [show _ = _ from hsame]
  | omitted hvalue => simp [hfield,Content.default?] at hvalue

/-- A field is read as the same from two objects. -/
def Field.ReadsSame (field : Field) (xs ys : Members) : Prop :=
  match field.content with
  | .kind => (member? field.name xs).map View.word? = (member? field.name ys).map View.word?
  | .parameterKind => field.name = "kind" → xs.parameterKind = ys.parameterKind
  | .text => xs.required field.name View.text = ys.required field.name View.text
  | .optionalText => xs.optional field.name (View.orNull View.text) none =
    ys.optional field.name (View.orNull View.text) none
  | .flag value => xs.optional field.name View.flag value = ys.optional field.name View.flag value
  | .node => xs.required field.name View.node = ys.required field.name View.node
  | .optionalNode => xs.optional field.name (View.orNull View.node) none =
    ys.optional field.name (View.orNull View.node) none
  | .optionalList shape => xs.optional field.name shape.many [] =
    ys.optional field.name shape.many []
  | .list shape => xs.required field.name shape.many = ys.required field.name shape.many

theorem Field.Agree.readsSame (h : field.Agree (member? field.name xs) (member? field.name ys)) :
    field.ReadsSame xs ys := by
  rcases field with ⟨name,content⟩
  cases content with
  | kind => exact word?_of_agree h rfl
  | parameterKind =>
    rintro rfl
    unfold Members.parameterKind
    generalize member? "kind" xs = x at h
    generalize member? "kind" ys = y at h
    cases h with
    | absent => rfl
    | said hsame => rw [show _ = _ from hsame]
    | omitted hvalue =>
      cases hvalue
      rfl
  | text => exact required_of_agree h (fun _ _ hsame => congrArg _ hsame) rfl
  | optionalText =>
    refine optional_of_agree h (fun _ _ hsame => congrArg _ hsame) fun value hvalue => ?_
    cases hvalue
    rfl
  | flag value =>
    refine optional_of_agree h (fun _ _ hsame => congrArg _ hsame) fun value hvalue => ?_
    cases hvalue
    rfl
  | node => exact required_of_agree h (fun _ _ hsame => hsame.1) rfl
  | optionalNode =>
    refine optional_of_agree h (fun v w hsame => ?_) fun value hvalue => ?_
    · have hnode : v.node = w.node := hsame.1
      rw [View.orNull,View.orNull,hsame.2,hnode]
    · cases hvalue
      rfl
  | optionalList shape =>
    refine optional_of_agree h (fun _ _ hsame => hsame) fun value hvalue => ?_
    cases hvalue
    cases shape <;> rfl
  | list shape => exact required_of_agree h (fun _ _ hsame => hsame) rfl

end Reading

section Objects
variable {xs ys : Members}

theorem parameterKind_of_word?
    (h : (member? "kind" xs).map View.word? = (member? "kind" ys).map View.word?) :
    xs.parameterKind = ys.parameterKind := by
  unfold Members.parameterKind
  cases hx : member? "kind" xs <;> cases hy : member? "kind" ys <;> simp_all

theorem fields_of_readsSame {kind : Kind}
    (hkind : (Field.mk "kind" .kind).ReadsSame xs ys)
    (h : ∀ field ∈ kind.fields, field.ReadsSame xs ys) : xs.fields kind = ys.fields kind := by
  have hparameter := parameterKind_of_word? hkind
  cases kind <;>
    simp_all [Kind.fields,Field.ReadsSame,Shape.many,Members.fields,Members.parameter,
      Members.chain,Members.steps]

theorem member?_viewMembers (name : String) (ms : List (String × Value)) :
    member? name (viewMembers ms) = (member? name ms).map view := by
  induction ms with
  | nil => rfl
  | cons m ms ih =>
    rcases m with ⟨key,v⟩
    rw [viewMembers,member?,member?,ih]
    cases member? name ms with
    | some later => rfl
    | none =>
      by_cases h : key = name <;> simp [h]

theorem kindOf?_eq (ms : List (String × Value)) :
    kindOf? ms = ((member? "kind" ms).map fun v => (view v).word?).bind fun word? =>
      word?.bind Kind.ofName? := by
  unfold kindOf?
  cases member? "kind" ms with
  | none => rfl
  | some v => cases v <;> rfl

theorem node_of_kindOf? {ms : List (String × Value)} {kind : Kind} (h : kindOf? ms = some kind) :
    (view (.object ms)).node =
      (Members.fields (viewMembers ms) kind).within (.field kind.name) := by
  rw [kindOf?_eq] at h
  rw [view,View.ofMembers,Members.node,member?_viewMembers]
  cases hkind : member? "kind" ms with
  | none => simp [hkind] at h
  | some v =>
    have hword : (view v).word?.bind Kind.ofName? = some kind := by simpa [hkind] using h
    simp only [Option.map_some,hword]

/-- Two objects say the same of all fields of the first. -/
def Shape.Agree (shape : Shape) (ms ms' : List (String × Value)) : Prop :=
  ∀ field ∈ shape.fields ms,
    field.Agree ((member? field.name ms).map view) ((member? field.name ms').map view)

theorem Shape.Agree.readsSame {shape : Shape} {ms ms' : List (String × Value)}
    (h : shape.Agree ms ms') :
    ∀ field ∈ shape.fields ms, field.ReadsSame (viewMembers ms) (viewMembers ms') := by
  intro field hfield
  have hagree := h field hfield
  rw [← member?_viewMembers,← member?_viewMembers] at hagree
  exact hagree.readsSame

theorem Shape.Agree.same_kind {ms ms' : List (String × Value)} (h : Shape.node.Agree ms ms') :
    kindOf? ms' = kindOf? ms := by
  have hkind := h.readsSame ⟨"kind",.kind⟩ (.head _)
  simp only [Field.ReadsSame,member?_viewMembers,Option.map_map] at hkind
  rw [kindOf?_eq,kindOf?_eq]
  simp only [Function.comp_def] at hkind
  rw [hkind]

/-- Objects that agree have the same fields. -/
theorem Shape.Agree.same_fields {shape : Shape} {ms ms' : List (String × Value)}
    (h : shape.Agree ms ms') : shape.fields ms' = shape.fields ms := by
  cases shape with
  | node => rw [Shape.fields,Shape.fields,Shape.Agree.same_kind h]
  | _ => rfl

/-- Objects that agree stand for the same, as long as a node names a kind. -/
theorem Shape.Agree.one {shape : Shape} {ms ms' : List (String × Value)} (h : shape.Agree ms ms')
    (hkind : shape = .node → (kindOf? ms).isSome) :
    shape.one (view (.object ms)) = shape.one (view (.object ms')) := by
  have hsame := h.readsSame
  cases shape with
  | node =>
    obtain ⟨kind,hms⟩ := Option.isSome_iff_exists.1 (hkind rfl)
    have hms' : kindOf? ms' = some kind := (Shape.Agree.same_kind h).trans hms
    have hfields : ∀ field ∈ kind.fields, field.ReadsSame (viewMembers ms) (viewMembers ms') := by
      intro field hfield
      exact hsame field (by simp [Shape.fields,hms,hfield])
    rw [Shape.one,node_of_kindOf? hms,node_of_kindOf? hms',
      fields_of_readsSame (hsame _ (.head _)) hfields]
  | declarator =>
    simp_all [Shape.fields,Field.ReadsSame,Shape.one,view,View.ofMembers,Members.declarator]
  | parameter =>
    simp_all [Shape.fields,Kind.fields,Field.ReadsSame,Shape.one,view,View.ofMembers,
      Members.parameter]
  | choice =>
    simp_all [Shape.fields,Field.ReadsSame,Shape.many,Shape.one,view,View.ofMembers,Members.choice]

end Objects
end Program
end Scribe
