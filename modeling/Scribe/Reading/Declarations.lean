import Scribe.Reading.Rule

/-! How the children of declarations, functions and namespaces are read. -/
namespace Scribe
namespace Reading
open Program

/-- The spelling of a type; a type to be inferred is always spelled the same. -/
def typeText (child : Head) : String :=
  if child.kind = "placeholder_type_specifier" ∨ child.kind = "auto" then "auto"
  else Text.collapse child.text

/-- The first child that declares a name counts. -/
def stepDeclaredName (name : Option String) (child : Head) : Action (Option String) :=
  match name, name? child.kind with
  | none, some plan => .descend (plan.map some)
  | _, _ => .keep name

/-- The first child that declares a function counts. -/
def stepWrappedFunction (found : Option Signature) (child : Head) : Action (Option Signature) :=
  if found.isNone ∧ child.declaresFunction then .descend ((function child.kind).map some)
  else .keep found

structure SignatureSlots where
  name : Option String := none
  parameters : Option (List Parameter) := none

namespace SignatureSlots

def step (s : SignatureSlots) (child : Head) : Action SignatureSlots :=
  if child.kind ∈ ["type_qualifier", "noexcept"] then .keep s
  else if child.kind ∈ ["identifier", "field_identifier", "qualified_identifier"] ∧
      s.name.isNone then
    .expect (name? child.kind) fun name => { s with name := some name }
  else if child.kind = "parameter_list" ∧ s.name.isSome ∧ s.parameters.isNone then
    .descend (.direct .parameterList fun parameters => { s with parameters := some parameters })
  else .reject

def finish (s : SignatureSlots) : Ending Signature :=
  .ofOption .nameless (s.name.map fun name => ⟨name, s.parameters.getD []⟩)

end SignatureSlots

def stepParameterList (kept : List Parameter) (child : Head) : Action (List Parameter) :=
  if child.kind ∈ ["(", ")", ","] then .keep kept
  else if child.kind ∈ ["parameter_declaration", "optional_parameter_declaration"] then
    .descend (.direct .parameterDeclaration fun slots =>
      kept ++ (slots.parameter? kept.length).toList)
  else .reject

namespace ParameterSlots

def step (s : ParameterSlots) (child : Head) : Action ParameterSlots :=
  if child.kind = "type_qualifier" then
    .keep { s with isConst := s.isConst || child.text ∈ constQualifiers }
  else if child.kind ∈ typeSpecifiers ∧ s.typeName.isNone then
    .keep { s with typeName := some (typeText child) }
  else if (name? child.kind).isSome ∧ s.name.isNone ∧ !s.seenEquals then
    .expect (name? child.kind) fun name =>
      { s with name := some name, isRef := child.kind == "reference_declarator" }
  else if child.kind = "=" then .keep { s with seenEquals := true }
  else if s.seenEquals ∧ s.defaultValue.isNone then
    .expect (expression? child.kind) fun value => { s with defaultValue := some value }
  else .reject

end ParameterSlots

structure NamespaceSlots where
  name : Option String := none
  body : Option (List Node) := none

namespace NamespaceSlots

def step (s : NamespaceSlots) (child : Head) : Action NamespaceSlots :=
  if child.kind ∈ ["namespace", "inline"] then .keep s
  else if child.kind ∈ ["identifier", "namespace_identifier", "nested_namespace_specifier"] ∧
      s.name.isNone ∧ s.body.isNone then
    .keep { s with name := some (Text.flattenScopes child.text) }
  else if child.kind = "declaration_list" ∧ s.body.isNone then
    .descend (.direct .items fun body => { s with body := some body })
  else .reject

/-- A namespace without a name leaves its members where they are. -/
def finish (s : NamespaceSlots) : Ending (List Node) :=
  match s.name with
  | some name => .done [.namespaceBlock name (s.body.getD [])]
  | none => .done (s.body.getD [])

end NamespaceSlots

def stepItems (items : List Node) (child : Head) : Action (List Node) :=
  if child.kind ∈ ["\x7b", "\x7d"] then .keep items
  else .expect (item? child.kind) fun more => items ++ more

structure RegionSlots where
  seenCondition : Bool := false
  items : List Node := []

/-- The condition and the later branches of a region are passed over. -/
def RegionSlots.step (s : RegionSlots) (child : Head) : Action RegionSlots :=
  if child.kind ∈ ["\n", "#endif", "#if", "#ifdef", "#ifndef"] then .keep s
  else if child.kind ∈ laterBranches then .keep s
  else if !s.seenCondition then .keep { s with seenCondition := true }
  else .expect (item? child.kind) fun more => { s with items := s.items ++ more }

structure DeclarationSlots where
  typeName : Option String := none
  isConst : Bool := false
  declarators : List Declarator := []
  seenPrototype : Bool := false

namespace DeclarationSlots

def add (s : DeclarationSlots) (v : Initialized) : DeclarationSlots :=
  { s with declarators := s.declarators ++ [⟨v.name, s.typeName, v.init, s.isConst⟩] }

def step (s : DeclarationSlots) (child : Head) : Action DeclarationSlots :=
  if child.kind ∈ [",", ";"] ∨ child.kind ∈ ignoredSpecifiers then .keep s
  else if child.kind = "type_qualifier" then
    .keep { s with isConst := s.isConst || child.text ∈ constQualifiers }
  else if child.kind ∈ typeSpecifiers ∧ s.typeName.isNone ∧ s.declarators.isEmpty then
    .keep { s with typeName := some (typeText child) }
  else if child.declaresFunction then .keep { s with seenPrototype := true }
  else if child.kind = "init_declarator" then .descend (.nested .initDeclarator s.add)
  else .expect (name? child.kind) fun name => s.add ⟨name, none⟩

/-- Prototypes alone declare nothing. -/
def finish (s : DeclarationSlots) : Ending (List Node) :=
  if !s.declarators.isEmpty then .done [.declaration s.declarators]
  else if s.seenPrototype then .done []
  else .incomplete

end DeclarationSlots

structure InitSlots where
  name : Option String := none
  init : Option Node := none
  seenEquals : Bool := false

namespace InitSlots

def step (s : InitSlots) (child : Head) : Action InitSlots :=
  if child.kind = "=" then .keep { s with seenEquals := true }
  else if !s.seenEquals ∧ s.name.isNone then
    .expect (name? child.kind) fun name => { s with name := some name }
  else if s.seenEquals ∧ s.init.isNone then
    .expect (expression? child.kind) fun init => { s with init := some init }
  else .reject

def finish (s : InitSlots) : Ending Initialized :=
  .ofOption .incomplete (s.name.map fun name => ⟨name, s.init⟩)

end InitSlots

structure FunctionSlots where
  returnType : Option String := none
  signature : Option Signature := none
  body : Option (List Node) := none

namespace FunctionSlots

def step (s : FunctionSlots) (child : Head) : Action FunctionSlots :=
  if child.kind ∈ ignoredSpecifiers ∨ child.kind = "type_qualifier" then .keep s
  else if child.kind ∈ typeSpecifiers ∧ s.returnType.isNone ∧ s.signature.isNone then
    .keep { s with returnType := some (typeText child) }
  else if child.declaresFunction ∧ s.signature.isNone then
    .descend ((function child.kind).map fun signature => { s with signature := some signature })
  else if child.kind = "compound_statement" ∧ s.signature.isSome ∧ s.body.isNone then
    .descend (.nested .statements fun body => { s with body := some body })
  else .reject

def finish (s : FunctionSlots) : Ending Node :=
  match s.signature, s.body with
  | some signature, some body =>
    .done (.functionDefinition signature.name signature.parameters s.returnType body)
  | _, _ => .incomplete

end FunctionSlots
end Reading
end Scribe
