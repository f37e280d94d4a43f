import Mathlib.Data.List.Nodup
import Scribe.Proofs.DeclaratorNames

/-! Names of parameters. An entry of a parameter list that gives no name is named after its position
among the parameters that are kept. Such names differ from one another, but nothing keeps them apart
from the names that are given. -/
namespace Scribe
namespace Reading
open Program

def isTypeSpecifier (t : ParseTree) : Bool := t.kind ∈ typeSpecifiers

/-- The type among the children of a parameter: the first that is spelled as one. -/
def specifiedType (children : List ParseTree) : Option String :=
  (children.find? isTypeSpecifier).map (typeText ∘ head)

/-- The child that names a parameter: the first in front of the equals sign that may declare a name,
the type apart. -/
def namingChild (typed : Bool) (children : List ParseTree) : Option ParseTree :=
  let declared := children.takeWhile (·.kind ≠ "=")
  (if typed then declared else declared.eraseP isTypeSpecifier).find? isNaming

/-- The name that an entry of a parameter list gives, if any. -/
def givenName? (entry : ParseTree) : Option String :=
  (namingChild false (heard entry.children)).bind fun c => (declaratorName entry.kind c).toOption

/-- Whether an entry says that there are no parameters. -/
def isVoidEntry (entry : ParseTree) : Bool :=
  givenName? entry = none && specifiedType (heard entry.children) = some "void"

def entryKinds : List String := ["parameter_declaration", "optional_parameter_declaration"]

def entriesOf (children : List ParseTree) : List ParseTree :=
  children.filter (·.kind ∈ entryKinds)

/-- The entries that become parameters. -/
def keptEntries (children : List ParseTree) : List ParseTree :=
  (entriesOf children).filter (!isVoidEntry ·)

def givenNames (children : List ParseTree) : List String :=
  (entriesOf children).filterMap givenName?

def positionName (position : Nat) : String := "arg" ++ toString position

theorem positionName_injective : Function.Injective positionName := by
  intro i j h
  have htext : toString i = toString j := (String.append_right_inj "arg").1 h
  rw [Nat.toString_eq_ofList_toDigits,Nat.toString_eq_ofList_toDigits] at htext
  have hdigits : Nat.toDigits 10 i = Nat.toDigits 10 j := String.ofList_injective htext
  calc i = Nat.ofDigitChars 10 (Nat.toDigits 10 i) 0 := Nat.ofDigitChars_ten_toDigits.symm
    _ = Nat.ofDigitChars 10 (Nat.toDigits 10 j) 0 := by rw [hdigits]
    _ = j := Nat.ofDigitChars_ten_toDigits

section Filled
variable {α : Type} {given? : α → Option String} {position : Nat → String}

theorem mem_mapIdx_getD {entries : List α} {name : String} :
    name ∈ entries.mapIdx (fun i entry => (given? entry).getD (position i)) ↔
      name ∈ entries.filterMap given? ∨
        ∃ i entry, entries[i]? = some entry ∧ given? entry = none ∧ position i = name := by
  rw [List.mem_iff_getElem?,List.mem_filterMap]
  simp only [List.getElem?_mapIdx,Option.map_eq_some_iff]
  constructor
  · rintro ⟨i,entry,hentry,hname⟩
    cases hgiven : given? entry with
    | some given =>
      have hmem : entry ∈ entries := List.mem_of_getElem? hentry
      exact .inl ⟨entry,hmem,by simpa [hgiven] using hname⟩
    | none => exact .inr ⟨i,entry,hentry,hgiven,by simpa [hgiven] using hname⟩
  · rintro (⟨entry,hmem,hgiven⟩ | ⟨i,entry,hentry,hgiven,hname⟩)
    · obtain ⟨i,hentry⟩ := List.mem_iff_getElem?.1 hmem
      exact ⟨i,entry,hentry,by simp [hgiven]⟩
    · exact ⟨i,entry,hentry,by simpa [hgiven] using hname⟩

theorem forall_getElem?_cons {first : α} {rest : List α} {P : Nat → α → Prop} :
    (∀ i entry, (first :: rest)[i]? = some entry → P i entry) ↔
      P 0 first ∧ ∀ i entry, rest[i]? = some entry → P (i + 1) entry := by
  constructor
  · exact fun h => ⟨h 0 first rfl,fun i entry hentry => h (i + 1) entry hentry⟩
  · rintro ⟨hfirst,hrest⟩ (_ | i) entry hentry
    · exact Option.some.inj hentry ▸ hfirst
    · exact hrest i entry hentry

/-- Names that are given or else stand for a position are distinct if and only if the given ones are
and none of them is the name of a position without one. -/
theorem nodup_mapIdx_getD {entries : List α} (hposition : Function.Injective position) :
    (entries.mapIdx fun i entry => (given? entry).getD (position i)).Nodup ↔
      (entries.filterMap given?).Nodup ∧ ∀ i entry, entries[i]? = some entry →
        given? entry = none → position i ∉ entries.filterMap given? := by
  induction entries generalizing position with
  | nil => simp
  | cons first rest ih =>
    have hshift : Function.Injective fun i => position (i + 1) := fun i j h => by
      simpa using hposition h
    rw [List.mapIdx_cons,List.nodup_cons,ih hshift,mem_mapIdx_getD,forall_getElem?_cons]
    cases hgiven : given? first with
    | some given =>
      rw [List.filterMap_cons_some hgiven,List.nodup_cons]
      simp only [Option.getD_some,reduceCtorEq,false_imp_iff,true_and,List.mem_cons,not_or,
        not_exists,not_and]
      constructor
      · rintro ⟨⟨hfresh,hdistinct⟩,hnodup,hrest⟩
        exact ⟨⟨hfresh,hnodup⟩,fun i entry hentry hnone =>
          ⟨hdistinct i entry hentry hnone,hrest i entry hentry hnone⟩⟩
      · rintro ⟨⟨hfresh,hnodup⟩,hrest⟩
        exact ⟨⟨hfresh,fun i entry hentry hnone => (hrest i entry hentry hnone).1⟩,hnodup,
          fun i entry hentry hnone => (hrest i entry hentry hnone).2⟩
    | none =>
      have hapart : ∀ i, position (i + 1) ≠ position 0 := fun i h => by
        simpa using hposition h
      rw [List.filterMap_cons_none hgiven]
      simp only [Option.getD_none,true_imp_iff,not_or,not_exists,not_and]
      constructor
      · rintro ⟨⟨hfresh,-⟩,hnodup,hrest⟩
        exact ⟨hnodup,hfresh,hrest⟩
      · rintro ⟨hnodup,hfresh,hrest⟩
        exact ⟨⟨hfresh,fun i _ _ _ => hapart i⟩,hnodup,hrest⟩

end Filled

section Entry
variable {context : String} {child : ParseTree} {s next final : ParameterSlots}

theorem specifiedType_cons (rest : List ParseTree) : specifiedType (child :: rest) =
    if isTypeSpecifier child then some (typeText (head child)) else specifiedType rest := by
  by_cases htype : isTypeSpecifier child <;> simp [specifiedType,htype]

theorem namingChild_cons (typed : Bool) (rest : List ParseTree) :
    namingChild typed (child :: rest) =
      if child.kind = "=" then none
      else if isTypeSpecifier child ∧ !typed then namingChild true rest
      else if isNaming child then some child
      else namingChild typed rest := by
  by_cases hequals : child.kind = "="
  · cases typed <;> simp [namingChild,hequals]
  by_cases hnaming : isNaming child <;> by_cases htype : isTypeSpecifier child <;> cases typed <;>
    simp [namingChild,hequals,hnaming,htype]

theorem Step.parameterDeclaration (h : Step .parameterDeclaration context s child next) :
    (isTypeSpecifier child ∧ s.typeName = none ∧ child.kind ≠ "=" ∧
      next = { s with typeName := some (typeText (head child)) }) ∨
    (¬(isTypeSpecifier child ∧ s.typeName = none) ∧
      ((child.kind = "=" ∧ next = { s with seenEquals := true }) ∨
      (child.kind ≠ "=" ∧ next.typeName = s.typeName ∧ next.seenEquals = s.seenEquals ∧
        ((isNaming child ∧ s.seenEquals = false ∧ s.name = none ∧
          ∃ name, declaratorName context child = .ok name ∧ next.name = some name) ∨
        ((isNaming child → s.seenEquals) ∧ next.name = s.name))))) := by
  by_cases hqualifier : child.kind = "type_qualifier"
  · have hnext := h.of_keep (if_pos hqualifier)
    have htype : ¬isTypeSpecifier child := by
      rw [isTypeSpecifier,hqualifier]
      decide
    have hnaming : ¬isNaming child := by
      rw [isNaming,hqualifier]
      decide
    refine .inr ⟨fun hboth => htype hboth.1,.inr ⟨by simp [hqualifier],?_⟩⟩
    exact hnext ▸ ⟨rfl,rfl,.inr ⟨fun hc => absurd hc hnaming,rfl⟩⟩
  by_cases htype : child.kind ∈ typeSpecifiers ∧ s.typeName.isNone
  · have hnext := h.of_keep ((if_neg hqualifier).trans (if_pos htype))
    have hequals : child.kind ≠ "=" := by
      intro hequals
      exact absurd (hequals ▸ htype.1) (by decide)
    exact .inl ⟨by simpa [isTypeSpecifier] using htype.1,by simpa using htype.2,hequals,hnext⟩
  have hother : ¬(isTypeSpecifier child ∧ s.typeName = none) := by
    simpa [isTypeSpecifier] using htype
  refine .inr ⟨hother,?_⟩
  by_cases hname : (name? child.kind).isSome ∧ s.name.isNone ∧ !s.seenEquals
  · have hequals : child.kind ≠ "=" := by
      intro hequals
      exact absurd (hequals ▸ hname.1) (by decide)
    obtain ⟨name,hread,hnext⟩ := h.of_expect_name
      ((if_neg hqualifier).trans ((if_neg htype).trans (if_pos hname)))
    refine .inr ⟨hequals,hnext ▸ ⟨rfl,rfl,.inl ⟨hname.1,?_,?_,name,hread,rfl⟩⟩⟩
    · simpa using hname.2.2
    · simpa using hname.2.1
  by_cases hequals : child.kind = "="
  · have hnext := h.of_keep ((if_neg hqualifier).trans ((if_neg htype).trans ((if_neg hname).trans
      (if_pos hequals))))
    exact .inl ⟨hequals,hnext⟩
  refine .inr ⟨hequals,?_⟩
  by_cases hvalue : s.seenEquals ∧ s.defaultValue.isNone
  · obtain ⟨plan,value,-,-,hnext⟩ := h.of_expect ((if_neg hqualifier).trans ((if_neg htype).trans
      ((if_neg hname).trans ((if_neg hequals).trans (if_pos hvalue)))))
    exact hnext ▸ ⟨rfl,rfl,.inr ⟨fun _ => hvalue.1,rfl⟩⟩
  · exact absurd ((if_neg hqualifier).trans ((if_neg htype).trans ((if_neg hname).trans
      ((if_neg hequals).trans (if_neg hvalue))))) h.not_reject

theorem Run.parameterDeclaration {children : List ParseTree}
    (h : Run .parameterDeclaration context s children final) :
    final.typeName = s.typeName.or (specifiedType children) ∧
    (s.seenEquals → final.name = s.name) ∧
    (s.seenEquals = false →
      (namingChild s.typeName.isSome children = none ∧ final.name = s.name) ∨
      ∃ c name, namingChild s.typeName.isSome children = some c ∧ s.name = none ∧
        declaratorName context c = .ok name ∧ final.name = some name) := by
  induction children generalizing s with
  | nil =>
    obtain rfl := run_nil.1 h
    exact ⟨by simp [specifiedType],fun _ => rfl,fun _ => .inl ⟨by simp [namingChild],rfl⟩⟩
  | cons child rest ih =>
    obtain ⟨next,hstep,hrest⟩ := run_cons.1 h
    obtain ⟨htype,hafter,hbefore⟩ := ih hrest
    rw [specifiedType_cons,namingChild_cons]
    rcases hstep.parameterDeclaration with ⟨hspecifier,hfirst,hequals,rfl⟩ |
      ⟨hother,⟨hequals,rfl⟩ | ⟨hequals,hkeptType,hkeptEquals,hname⟩⟩
    · -- The type is known from here on, so no later child is taken for it.
      refine ⟨by simpa [hfirst,hspecifier] using htype,hafter,?_⟩
      simpa [hfirst,hspecifier,hequals] using hbefore
    · -- Behind the equals sign nothing names the parameter.
      have hspecifier : ¬isTypeSpecifier child := by
        rw [isTypeSpecifier,hequals]
        decide
      refine ⟨by simpa [hspecifier] using htype,fun _ => hafter rfl,fun _ => .inl ⟨?_,hafter rfl⟩⟩
      simp [hequals]
    · have hspecified : s.typeName.or (specifiedType (child :: rest)) =
          s.typeName.or (specifiedType rest) := by
        by_cases hspecifier : isTypeSpecifier child
        · obtain ⟨type,hsome⟩ := Option.ne_none_iff_exists'.1 fun hnone => hother ⟨hspecifier,hnone⟩
          simp [hsome]
        · simp [specifiedType_cons,hspecifier]
      have hpassed : ¬(isTypeSpecifier child ∧ !s.typeName.isSome) := by simpa using hother
      rw [← specifiedType_cons,if_neg hequals,if_neg hpassed]
      rw [hkeptType] at htype hbefore
      rw [hkeptEquals] at hafter hbefore
      refine ⟨htype.trans hspecified.symm,?_⟩
      rcases hname with ⟨hnaming,hseen,hnone,name,hread,hsome⟩ | ⟨hnaming,hsame⟩
      · rw [if_pos hnaming]
        refine ⟨fun hequals => absurd hequals (by simp [hseen]),fun _ => .inr ?_⟩
        -- A second name would have been refused, so the name stays.
        rcases hbefore hseen with ⟨-,hkept⟩ | ⟨-,-,-,hunnamed,-⟩
        · exact ⟨child,name,rfl,hnone,hread,hkept.trans hsome⟩
        · simp [hsome] at hunnamed
      · rw [hsame] at hafter hbefore
        refine ⟨hafter,fun hseen => ?_⟩
        have hunnaming : ¬isNaming child := fun hchild => by simp [hnaming hchild] at hseen
        rw [if_neg hunnaming]
        exact hbefore hseen

theorem read_parameterDeclaration {entry : ParseTree} {slots : ParameterSlots}
    (h : (read .parameterDeclaration context entry).result = .ok slots) :
    slots.typeName = specifiedType (heard entry.children) ∧ slots.name = givenName? entry := by
  obtain ⟨final,hrun,hfinish⟩ := read_eq_ok.1 h
  obtain rfl : slots = final := Ending.eq_of_done hfinish
  obtain ⟨htype,-,hname⟩ := Run.parameterDeclaration hrun
  refine ⟨htype,?_⟩
  rcases hname rfl with ⟨hnone,hunnamed⟩ | ⟨c,name,hchild,-,hread,hnamed⟩
  · have hgiven : namingChild false (heard entry.children) = none := hnone
    rw [givenName?,hgiven]
    exact hunnamed
  · have hgiven : namingChild false (heard entry.children) = some c := hchild
    exact hnamed.trans (by simp [givenName?,hgiven,hread,Except.toOption])

theorem parameter?_of_read {entry : ParseTree} {slots : ParameterSlots}
    (h : (read .parameterDeclaration context entry).result = .ok slots) (position : Nat) :
    (isVoidEntry entry ∧ slots.parameter? position = none) ∨
      (¬isVoidEntry entry ∧ ∃ p, slots.parameter? position = some p ∧
        p.name = (givenName? entry).getD (positionName position)) := by
  obtain ⟨htype,hname⟩ := read_parameterDeclaration h
  have hvoid : isVoidEntry entry ↔ slots.name = none ∧ slots.typeName = some "void" := by
    simp [isVoidEntry,htype,hname]
  rw [hvoid,← hname]
  cases hgiven : slots.name with
  | some name => exact .inr ⟨by simp,_,by rw [ParameterSlots.parameter?,hgiven],rfl⟩
  | none =>
    by_cases htype : slots.typeName = some "void"
    · exact .inl ⟨⟨rfl,htype⟩,by rw [ParameterSlots.parameter?,hgiven]; exact if_pos htype⟩
    · exact .inr ⟨fun hboth => htype hboth.2,_,
        by rw [ParameterSlots.parameter?,hgiven]; exact if_neg htype,rfl⟩

end Entry

section List
variable {context : String} {child : ParseTree} {s next final : List Parameter}

theorem keptEntries_cons (rest : List ParseTree) :
    keptEntries (child :: rest) = keptEntries [child] ++ keptEntries rest := by
  rw [← List.singleton_append,keptEntries,entriesOf,List.filter_append,List.filter_append]
  rfl

theorem Step.parameterList (h : Step .parameterList context s child next) :
    (keptEntries [child] = [] ∧ next = s) ∨
      (keptEntries [child] = [child] ∧ ∃ p, next = s ++ [p] ∧
        p.name = (givenName? child).getD (positionName s.length)) := by
  by_cases htoken : child.kind ∈ ["(",")",","]
  · have hother : ∀ kind ∈ ["(",")",","], kind ∉ entryKinds := by decide
    have hentry : child.kind ∉ entryKinds := hother _ htoken
    exact .inl ⟨by simp [keptEntries,entriesOf,hentry],h.of_keep (if_pos htoken)⟩
  by_cases hentry : child.kind ∈ entryKinds
  · obtain ⟨(slots : ParameterSlots),hread,hbuild⟩ :=
      h.of_descend ((if_neg htoken).trans (if_pos hentry))
    have hnext : next = s ++ (slots.parameter? s.length).toList := hbuild
    rcases parameter?_of_read hread s.length with ⟨hvoid,hnone⟩ | ⟨hvoid,p,hsome,hname⟩
    · rw [hnone,Option.toList_none,List.append_nil] at hnext
      exact .inl ⟨by simp [keptEntries,entriesOf,hentry,hvoid],hnext⟩
    · rw [hsome,Option.toList_some] at hnext
      exact .inr ⟨by simp [keptEntries,entriesOf,hentry,hvoid],p,hnext,hname⟩
  · exact absurd ((if_neg htoken).trans (if_neg hentry)) h.not_reject

/-- Each entry that is kept is named by itself or by the number of parameters in front of it. -/
theorem Run.parameterList {children : List ParseTree}
    (h : Run .parameterList context s children final) :
    final.map (·.name) = s.map (·.name) ++ (keptEntries children).mapIdx fun i entry =>
      (givenName? entry).getD (positionName (s.length + i)) := by
  induction children generalizing s with
  | nil =>
    obtain rfl := run_nil.1 h
    simp [keptEntries,entriesOf]
  | cons child rest ih =>
    obtain ⟨next,hstep,hrest⟩ := run_cons.1 h
    rw [ih hrest,keptEntries_cons]
    rcases hstep.parameterList with ⟨hkept,rfl⟩ | ⟨hkept,p,rfl,hname⟩
    · rw [hkept,List.nil_append]
    · simp only [hkept,hname,List.map_append,List.map_cons,List.map_nil,List.append_assoc,
        List.singleton_append,List.mapIdx_cons,List.length_append,List.length_singleton,
        Nat.add_zero,Nat.add_assoc,Nat.add_comm 1]

end List

section Children
variable (children : List ParseTree)

theorem keptEntries_heard : keptEntries (heard children) = keptEntries children := by
  have hentry : ∀ kind ∈ entryKinds, ¬isNoise kind := by decide
  have hsame : entriesOf (heard children) = entriesOf children := by
    rw [entriesOf,heard,List.filter_filter]
    refine List.filter_congr fun c _ => ?_
    by_cases hc : c.kind ∈ entryKinds
    · simp [hc,hentry _ hc]
    · simp [hc]
  rw [keptEntries,hsame,keptEntries]

theorem filterMap_keptEntries : (keptEntries children).filterMap givenName? = givenNames children := by
  rw [keptEntries,List.filterMap_filter,givenNames]
  refine List.filterMap_congr fun entry _ => ?_
  cases hgiven : givenName? entry <;> simp [isVoidEntry,hgiven]

end Children

/-- The parameters of a list have the names that its entries give or, where an entry gives none, the
name of the position. They are distinct if and only if the given names are and none of these is the
name of the position of an entry without one. -/
theorem parameterList_names {context : String} {tree : ParseTree} {parameters : List Parameter}
    (h : (read .parameterList context tree).result = .ok parameters) :
    parameters.map (·.name) = (keptEntries tree.children).mapIdx (fun i entry =>
      (givenName? entry).getD (positionName i)) ∧
    ((parameters.map (·.name)).Nodup ↔ (givenNames tree.children).Nodup ∧
      ∀ i entry, (keptEntries tree.children)[i]? = some entry → givenName? entry = none →
        positionName i ∉ givenNames tree.children) := by
  obtain ⟨final,hrun,hfinish⟩ := read_eq_ok.1 h
  obtain rfl : parameters = final := Ending.eq_of_done hfinish
  have hnames : parameters.map (·.name) = (keptEntries tree.children).mapIdx (fun i entry =>
      (givenName? entry).getD (positionName i)) := by
    have hall := Run.parameterList hrun
    rw [keptEntries_heard] at hall
    simpa [Rule.start] using hall
  refine ⟨hnames,?_⟩
  rw [hnames,nodup_mapIdx_getD positionName_injective,filterMap_keptEntries]

/-- `(const n::T &arg0, void, int)`. -/
def mixedList : ParseTree :=
  .node "parameter_list" "" [.node "(" "(" [],
    .node "parameter_declaration" "" [.node "type_qualifier" "const" [],
      .node "qualified_identifier" "n::T" [],
      .node "reference_declarator" "&arg0" [.node "&" "&" [],.node "identifier" "arg0" []]],
    .node "," "," [],
    .node "parameter_declaration" "" [.node "primitive_type" "void" []],
    .node "," "," [],
    .node "parameter_declaration" "" [.node "primitive_type" "int" []],
    .node ")" ")" []]

def mixedParameters : List Parameter :=
  [⟨"arg0",some "n::T",none,true,true⟩,⟨"arg1",some "int",none,false,false⟩]

theorem parameterList_names_mixedList :
    (read .parameterList "function_declarator" mixedList).result = .ok mixedParameters ∧
      givenNames mixedList.children = ["arg0"] ∧ (mixedParameters.map (·.name)).Nodup := by
  have hread : (read .parameterList "function_declarator" mixedList).result =
      .ok mixedParameters := rfl
  have hgiven : givenNames mixedList.children = ["arg0"] := rfl
  obtain ⟨-,hdistinct⟩ := parameterList_names hread
  refine ⟨hread,hgiven,hdistinct.2 ⟨by simp [hgiven],fun i entry hentry hnone hmem => ?_⟩⟩
  rw [hgiven,List.mem_singleton] at hmem
  obtain rfl : i = 0 := positionName_injective hmem
  obtain rfl := Option.some.inj hentry
  exact nomatch hnone

/-- `(int arg1, int)`. -/
def clashingList : ParseTree :=
  .node "parameter_list" "" [.node "(" "(" [],
    .node "parameter_declaration" "" [.node "primitive_type" "int" [],.node "identifier" "arg1" []],
    .node "," "," [],
    .node "parameter_declaration" "" [.node "primitive_type" "int" []],
    .node ")" ")" []]

def clashingParameters : List Parameter :=
  [⟨"arg1",some "int",none,false,false⟩,⟨"arg1",some "int",none,false,false⟩]

/-- `void f(int arg1, int) {}`. -/
def clashingFile : ParseTree :=
  .node "translation_unit" "" [.node "function_definition" "" [.node "primitive_type" "void" [],
    .node "function_declarator" "" [.node "identifier" "f" [],clashingList],
    .node "compound_statement" "" [.node "\x7b" "\x7b" [],.node "\x7d" "\x7d" []]]]

/-- A nameless parameter may get the name that another one has. -/
theorem clashingList_names :
    (readFile clashingFile).result =
        .ok [.functionDefinition "f" clashingParameters (some "void") []] ∧
      (read .parameterList "function_declarator" clashingList).result = .ok clashingParameters ∧
      (givenNames clashingList.children).Nodup ∧ ¬(clashingParameters.map (·.name)).Nodup :=
  ⟨rfl,rfl,by decide,by decide⟩

end Reading
end Scribe
