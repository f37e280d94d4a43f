import Scribe.Proofs.DeclaredNames
import Scribe.Proofs.ScopedNames
import Scribe.Proofs.Segments

/-! Qualified names. What is declared inside namespaces is declared under the name that a
qualified read of it is given. -/
namespace Scribe
namespace Printing
open Program Reading Text

section Places

theorem path_foldl_enter (names : List String) (place : Place) :
    (names.foldl Place.enter place).path = place.path ++ names := by
  induction names generalizing place with
  | nil => simp
  | cons name names ih => simp [ih,Place.enter]

theorem scope_foldl_enter {names : List String} (h : names ≠ []) (place : Place) :
    (names.foldl Place.enter place).scope = .namespaceMember := by
  induction names generalizing place with
  | nil => exact absurd rfl h
  | cons name names ih =>
    cases names with
    | nil => rfl
    | cons next rest => exact ih nofun (place.enter name)

theorem declare_foldl_enter (names : List String) (x : String) :
    (names.foldl Place.enter .top).declare x = join "_" (names ++ [x]) := by
  cases names with
  | nil => rfl
  | cons name rest =>
    rw [Place.declare,scope_foldl_enter (List.cons_ne_nil name rest),path_foldl_enter]
    rfl

theorem scope_foldl_enter_ne (names : List String) :
    (names.foldl Place.enter .top).scope ≠ .function := by
  cases names with
  | nil => nofun
  | cons name rest =>
    rw [scope_foldl_enter (List.cons_ne_nil name rest)]
    nofun

end Places

theorem segments_within {nodes ns : List Node} {names : List String} (h : Within nodes names ns) :
    ∀ place : Place, (∀ n ∈ ns, failureAt place n = none) →
      (∀ n ∈ nodes, failureAt (names.foldl Place.enter place) n = none) ∧
        ∃ before after, ns.flatMap (segmentsOf place) =
          before ++ nodes.flatMap (segmentsOf (names.foldl Place.enter place)) ++ after := by
  induction h with
  | @here xs ys =>
    intro place hok
    refine ⟨fun n hn => hok n (by simp [hn]),xs.flatMap (segmentsOf place),
      ys.flatMap (segmentsOf place),?_⟩
    simp only [List.flatMap_append,List.foldl_nil]
  | @inNamespace name names body xs ys _ ih =>
    intro place hok
    obtain ⟨hbody,hblock⟩ := segmentsOf_namespaceBlock (hok (.namespaceBlock name body) (by simp))
    obtain ⟨hnodes,before,after,heq⟩ := ih (place.enter name) hbody
    refine ⟨hnodes,xs.flatMap (segmentsOf place) ++ [] :: before,
      after ++ ys.flatMap (segmentsOf place),?_⟩
    rw [List.flatMap_append,List.flatMap_cons,hblock,heq,List.foldl_cons]
    simp

/-- What may stand behind the name of what is declared: its type, its value, its parameters, or
nothing. -/
def FollowsName (rest : String) : Prop :=
  rest = "" ∨ ∃ sign ∈ [": "," = ","("], ∃ tail, rest = sign ++ tail

/-- Lines that begin with a keyword and a name. -/
def StartsDeclaring (keyword name : String) (lines : List String) : Prop :=
  ∃ rest more, lines = (keyword ++ name ++ rest) :: more ∧ FollowsName rest

/-- Segments of nodes that declare `x`: the lines for `x` begin with a declaration of `name`. The
variables declared with it keep their lines in front and behind. -/
inductive Introduces (place : Place) (x name : String) : List Node → List Segment → Prop
  | declaration {earlier later : List Declarator} {v : Declarator} {keyword : String}
      {lines : List String} {opened : List Segment} : v.name = x →
      keyword ∈ ["let ","const "] → StartsDeclaring keyword name lines →
      Introduces place x name [.declaration (earlier ++ v :: later)]
        (((print place (.declaration earlier)).lines ++ lines ++
          (print place (.declaration later)).lines) :: opened)
  | function {parameters : List Parameter} {returnType : Option String} {body : List Node}
      {lines : List String} {opened : List Segment} :
      StartsDeclaring "function " name lines →
      Introduces place x name [.functionDefinition x parameters returnType body]
        ([] :: lines :: opened)

/-- Read as an expression, a tree is this node, wherever it stands. -/
def ReadAs (tree : ParseTree) (e : Node) : Prop :=
  ∀ context, ∃ plan value, expression? tree.kind = some plan ∧
    (read plan.rule context tree).result = .ok value ∧ plan.build value = e

theorem readAs_qualified {tree : ParseTree} (h : tree.kind = "qualified_identifier") :
    ReadAs tree (.reference (flattenScopes tree.text)) := by
  intro context
  refine ⟨.nested .leaf fun text => .reference (flattenScopes text),tree.text,?_,read_leaf tree,rfl⟩
  rw [h]
  rfl

theorem print_declaration (place : Place) (ds : List Declarator) :
    print place (.declaration ds) = .concat (ds.map fun d => print place (.declaration [d])) := by
  induction ds with
  | nil => rfl
  | cons d ds ih =>
    rw [List.map_cons,Printed.concat,← ih]
    rcases d with ⟨name,typeName,_ | init,isConst⟩ <;>
      simp only [print,printDeclarators,List.zipWith_cons_cons,List.zipWith_nil_left,
        Printed.concat,Printed.append_none]

theorem wrap_open (opening : String) (lines : List String) :
    wrap opening lines "" = (opening ++ lines.head?.getD "") :: lines.tail := by
  cases lines with
  | nil => rfl
  | cons first rest => exact closeWith_empty _

theorem annotate_eq (name : String) (type : Option String) :
    ∃ rest, TypeName.annotate name type = name ++ rest ∧ FollowsName rest ∧
      ∀ value, FollowsName (rest ++ " = " ++ value) := by
  rw [TypeName.annotate]
  cases type.bind TypeName.counterpart with
  | none => exact ⟨"",by simp,.inl rfl,fun value => .inr ⟨" = ",by simp,value,by simp⟩⟩
  | some t =>
    refine ⟨": " ++ t,String.append_assoc ..,.inr ⟨": ",by simp,t,rfl⟩,fun value => ?_⟩
    exact .inr ⟨": ",by simp,t ++ " = " ++ value,by simp [String.append_assoc]⟩

theorem lines_variable {place : Place} {v : Declarator}
    (hok : (print place (.declaration [v])).failure = none) :
    ∃ rest more, FollowsName rest ∧ (print place (.declaration [v])).lines =
      declare v ((place.declare v.name ++ rest) :: more) := by
  rcases v with ⟨name,typeName,init?,isConst⟩
  obtain ⟨typed,htyped,hfollows,hvalue⟩ := annotate_eq (place.declare name) typeName
  rcases init? with _ | init
  · have hprint : print place (.declaration [⟨name,typeName,none,isConst⟩]) =
        ((Recorded.ok [TypeName.annotate (place.declare name) typeName]).map
          (declare ⟨name,typeName,none,isConst⟩)).printed := by
      simp only [print,printDeclarators,List.zipWith_cons_cons,List.zipWith_nil_left,
        Printed.concat,Printed.append_none]
    rw [hprint] at hok ⊢
    obtain ⟨group,hgroup,hlines⟩ := Recorded.result_map_eq_ok.1 (lines_printed hok)
    obtain rfl : [TypeName.annotate (place.declare name) typeName] = group := by
      simpa using hgroup
    refine ⟨typed,[],hfollows,?_⟩
    rw [← hlines,htyped]
  · have hprint : print place (.declaration [⟨name,typeName,some init,isConst⟩]) =
        (((print place init).draft.map fun lines =>
          wrap (TypeName.annotate (place.declare name) typeName ++ " = ") lines "").map
            (declare ⟨name,typeName,some init,isConst⟩)).printed := by
      simp only [print,printDeclarators,List.zipWith_cons_cons,List.zipWith_nil_left,
        Printed.concat,Printed.append_none]
    rw [hprint] at hok ⊢
    obtain ⟨group,hgroup,hlines⟩ := Recorded.result_map_eq_ok.1 (lines_printed hok)
    obtain ⟨value,-,rfl⟩ := Recorded.result_map_eq_ok.1 hgroup
    refine ⟨_,value.tail,hvalue (value.head?.getD ""),?_⟩
    rw [← hlines,htyped,wrap_open]
    simp only [String.append_assoc]

theorem startsDeclaring_variable {place : Place} {v : Declarator}
    (hok : (print place (.declaration [v])).failure = none) :
    ∃ keyword ∈ ["let ","const "], StartsDeclaring keyword (place.declare v.name)
      (print place (.declaration [v])).lines := by
  have hkeyword : (if v.isConst && v.init.isSome then "const " else "let ") ∈
      ["let ","const "] := by
    split <;> simp
  obtain ⟨rest,more,hrest,hlines⟩ := lines_variable hok
  refine ⟨_,hkeyword,rest,more,?_,hrest⟩
  rw [hlines,declare,wrap_open]
  simp [String.append_assoc]

theorem startsDeclaring_function (name : String) (parameters : List String)
    (returnType : Option String) (body : List String) :
    StartsDeclaring "function " name (braced [signature name parameters returnType] body) := by
  obtain ⟨typed,htyped,-⟩ :=
    annotate_eq ("function " ++ name ++ "(" ++ join ", " parameters ++ ")") returnType
  refine ⟨"(" ++ (join ", " parameters ++ ")" ++ typed ++ " \x7b"),
    indent 1 body ++ ["\x7d"],?_,.inr ⟨"(",by simp,_,rfl⟩⟩
  rw [braced,signature,htyped]
  simp [wrap,closeWith,String.append_assoc]

theorem lines_declaration {place : Place} {ds : List Declarator}
    (h : ∀ d ∈ ds, (print place (.declaration [d])).failure = none) :
    (print place (.declaration ds)).lines =
      ds.flatMap fun d => (print place (.declaration [d])).lines := by
  rw [print_declaration,Printed.lines_concat (List.forall_mem_map.2 h),List.flatMap_map]

/-- Nodes that declare a name introduce it as the name that it has at their place. -/
theorem introduces_of_declaresName {place : Place} (hscope : place.scope ≠ .function)
    {x : String} {nodes : List Node} (h : DeclaresName x nodes)
    (hok : ∀ n ∈ nodes, failureAt place n = none) :
    Introduces place x (place.declare x) nodes (nodes.flatMap (segmentsOf place)) := by
  cases h with
  | @declaration earlier later v hname =>
    have hall : ∀ d ∈ earlier ++ v :: later, (print place (.declaration [d])).failure = none := by
      have hfail := hok _ List.mem_cons_self
      rw [failureAt,print_declaration,Printed.failure_concat,List.findSome?_map,
        List.findSome?_eq_none_iff] at hfail
      exact hfail
    obtain ⟨hearlier,hv,hlater⟩ : (∀ d ∈ earlier, (print place (.declaration [d])).failure = none) ∧
        (print place (.declaration [v])).failure = none ∧
        ∀ d ∈ later, (print place (.declaration [d])).failure = none := by
      simpa [or_imp,forall_and] using hall
    obtain ⟨keyword,hkeyword,hstarts⟩ := startsDeclaring_variable hv
    rw [hname] at hstarts
    have hlines : (print place (.declaration (earlier ++ v :: later))).lines =
        (print place (.declaration earlier)).lines ++ (print place (.declaration [v])).lines ++
          (print place (.declaration later)).lines := by
      rw [lines_declaration hall,lines_declaration hearlier,lines_declaration hlater,
        List.flatMap_append,List.flatMap_cons,List.append_assoc]
    rw [List.flatMap_singleton,segmentsOf,Printed.inSegment,hlines]
    exact .declaration hname hkeyword hstarts
  | @function parameters returnType body =>
    have hfail := hok _ List.mem_cons_self
    rw [failureAt,print_function_outside hscope,Printed.failure_inSegment] at hfail
    obtain ⟨texts,-,hdraft⟩ := Recorded.result_bind_eq_ok.1 (lines_printed hfail)
    obtain ⟨lines,-,hlines⟩ := Recorded.result_map_eq_ok.1 hdraft
    have hstarts := startsDeclaring_function (place.declare x) texts returnType lines
    rw [hlines] at hstarts
    rw [List.flatMap_singleton,segmentsOf,print_function_outside hscope]
    exact .function hstarts

/-- What is declared inside namespaces is declared under the name that is read for it, with the
names of the namespaces in front. -/
theorem qualified_introduces {root tree item qualified : ParseTree} {names : List String}
    {x : String} {program : List Node} {d : Document} (htree : tree ∈ root.children)
    (hnest : Nested item names tree) (hitem : DeclaresIdentifier x item)
    (hnames : ∀ t ∈ names, t.toList.getLast? ≠ some ':' ∧ flattenScopes t ≠ "")
    (hx : x ≠ "") (hplain : flattenScopes x = x)
    (hread : (readFile root).result = .ok program) (hd : document program = .ok d)
    (hkind : qualified.kind = "qualified_identifier")
    (htext : qualified.text = join "::" (names ++ [x])) :
    ∃ name, ReadAs qualified (.reference name) ∧
      ∃ place nodes before segments after, Stands item nodes ∧
        d.segments = before ++ segments ++ after ∧ Introduces place x name nodes segments := by
  obtain ⟨plan,hplan⟩ := hitem.item?
  obtain ⟨nodes,hnodes,hwithin⟩ := within_of_readFile hread htree hnest hplan
  obtain ⟨hok,hsegments⟩ := segments_of_document hd
  obtain ⟨hinside,before,after,heq⟩ := segments_within hwithin .top hok
  have hintroduces := introduces_of_declaresName (scope_foldl_enter_ne _)
    (hitem.declaresName hnodes) hinside
  have hname : flattenScopes qualified.text =
      ((names.map flattenScopes).foldl Place.enter .top).declare x := by
    rw [htext,declare_foldl_enter,flattenScopes_join (fun t ht => (hnames t ht).1)
      (fun t ht => (hnames t ht).2) (hplain.symm ▸ hx),hplain]
  rw [← hname] at hintroduces
  exact ⟨_,readAs_qualified hkind,_,nodes,before,_,after,hnodes,hsegments.trans heq,hintroduces⟩

/-- The declarator `*x`. -/
def pointerDeclarator : ParseTree :=
  .node "pointer_declarator" "" [.node "*" "*" [],.node "identifier" "x" []]

/-- The declaration `int w, *x`. -/
def pairItem : ParseTree :=
  .node "declaration" "" [.node "primitive_type" "int" [],.node "identifier" "w" [],
    .node "," "," [],pointerDeclarator]

/-- A namespace of the given children in front of a list of one item. -/
def namespaceTree (titles : List ParseTree) (item : ParseTree) : ParseTree :=
  .node "namespace_definition" "" (titles ++ [.node "declaration_list" "" [item]])

/-- The item in a namespace `c`. -/
def innerTree : ParseTree := namespaceTree [.node "namespace_identifier" "c" []] pairItem

/-- The same in a nameless namespace, in a region. -/
def regionTree : ParseTree :=
  .node "preproc_ifdef" "" [.node "#ifdef" "#ifdef" [],.node "identifier" "DEBUG" [],
    namespaceTree [] innerTree]

/-- The region in a namespace `a :: b`. -/
def scopedTree : ParseTree :=
  namespaceTree [.node "namespace" "namespace" [],.node "nested_namespace_specifier" "a :: b" []]
    regionTree

def scopedFile : ParseTree := .node "translation_unit" "" [scopedTree]

def scopedProgram : List Node :=
  [.namespaceBlock "a_b" [.namespaceBlock "c"
    [.declaration [⟨"w",some "int",none,false⟩,⟨"x",some "int",none,false⟩]]]]

def scopedDocument : Document := ⟨[[],[],["let a_b_c_w: number","let a_b_c_x: number"]]⟩

def scopedRead : ParseTree := .node "qualified_identifier" "a :: b::c::x" []

theorem qualified_introduces_scopedFile :
    (readFile scopedFile).result = .ok scopedProgram ∧
    document scopedProgram = .ok scopedDocument ∧
    ∃ name, ReadAs scopedRead (.reference name) ∧
      ∃ place nodes before segments after, Stands pairItem nodes ∧
        scopedDocument.segments = before ++ segments ++ after ∧
        Introduces place "x" name nodes segments := by
  have hread : (readFile scopedFile).result = .ok scopedProgram := rfl
  have hd : document scopedProgram = .ok scopedDocument := rfl
  have hitem : DeclaresIdentifier "x" pairItem := by
    have hsplit : pointerDeclarator.children =
        [.node "*" "*" []] ++ .node "identifier" "x" [] :: [] := rfl
    refine .bare rfl (.tail _ (.tail _ (.tail _ (.head _)))) (by decide) ?_
    exact .wrapped (by decide) hsplit (List.forall_mem_singleton.2 rfl) (.identifier rfl rfl)
  have hnest : Nested pairItem ["a :: b","c"] scopedTree := by
    have hc : .node "namespace_identifier" "c" [] ∈ innerTree.children := .head _
    have hinner : Nested pairItem ["c"] innerTree :=
      .named rfl hc (by decide) (.tail _ (.head _)) rfl (.head _) .here
    have hnameless : Nested pairItem ["c"] (namespaceTree [] innerTree) :=
      .nameless rfl (List.forall_mem_singleton.2 (by decide)) (.head _) rfl (.head _) hinner
    have hsplit : regionTree.children =
        [.node "#ifdef" "#ifdef" [],.node "identifier" "DEBUG" []] ++
          namespaceTree [] innerTree :: [] := rfl
    have hregion : Nested pairItem ["c"] regionTree :=
      .region (by decide) hsplit (.tail _ (.head _)) (by decide) (by decide) (by decide) hnameless
    have hab : .node "nested_namespace_specifier" "a :: b" [] ∈ scopedTree.children :=
      .tail _ (.head _)
    exact .named rfl hab (by decide) (.tail _ (.tail _ (.head _))) rfl (.head _) hregion
  have hnames : ∀ t ∈ ["a :: b","c"], t.toList.getLast? ≠ some ':' ∧ flattenScopes t ≠ "" := by
    decide
  exact ⟨hread,hd,qualified_introduces (.head _) hnest hitem hnames (by decide) (by decide) hread hd
    rfl (by decide)⟩

end Printing
end Scribe
