import Scribe.Proofs.ExpressionPieces
import Scribe.Proofs.ExpressionTokens

/-! Operators in printed expressions. The text of an expression reads as the operators of the
expression exactly if no operator stands directly in front of another one that it goes on in. -/
namespace Scribe

/-- The sign that an operator is printed with. -/
def Token.sign? : Token → Option String
  | operator sign => some (Printing.operatorSign sign)
  | _ => none

namespace Program
open Lexing Printing Reading

/-- The operators of an expression in the order of printing, with the two signs of each choice. -/
def Node.signs (e : Node) : List String := signsOf e.pieces

/-- The operator that an expression begins with. -/
def Node.lead (e : Node) : Option String :=
  match e.pieces.head? with
  | some (.tight sign) => some sign
  | _ => none

/-- An operator that is printed directly in front of its operand does not go on in the operator that
the operand begins with. -/
def Node.Apart : Node → Prop
  | .binaryExpression operator left none => ∀ sign ∈ left.lead, ¬Merges (operatorSign operator) sign
  | .unaryExpression operator value => ∀ sign ∈ value.lead, ¬Merges (operatorSign operator) sign
  | .updateExpression operator value false => ∀ sign ∈ value.lead, ¬Merges operator sign
  | _ => True

/-- No operator lacks its right operand. -/
def Node.Paired : Node → Prop
  | .binaryExpression _ _ none => False
  | _ => True

/-- A piece that an expression may end with: of the signs only those of an update. -/
def EndsWith (ps : List Piece) : Prop :=
  ∃ p ∈ ps.getLast?, ∀ sign, p = .tight sign → sign ∈ updateOperators

theorem EndsWith.append {qs : List Piece} (h : EndsWith qs) (ps : List Piece) :
    EndsWith (ps ++ qs) := by
  obtain ⟨p,hp,hsign⟩ := h
  refine ⟨p,?_,hsign⟩
  rw [List.getLast?_append,Option.mem_def.1 hp]
  rfl

theorem endsWith_mark (ps : List Piece) (c : Char) : EndsWith (ps ++ [.mark c]) :=
  ⟨.mark c,by simp,by simp⟩

theorem EndsWith.steps {ps : List Piece} (h : EndsWith ps) {steps : List Node}
    (hsteps : ∀ n ∈ steps, EndsWith n.pieces) : EndsWith (ps ++ piecesSteps steps) := by
  induction steps generalizing ps with
  | nil => simpa [piecesSteps] using h
  | cons n rest ih =>
    obtain ⟨hn,hrest⟩ := List.forall_mem_cons.1 hsteps
    cases n with
    | reference name =>
      have hname : EndsWith (ps ++ [.mark '.',.operand name]) := ⟨.operand name,by simp,by simp⟩
      simpa [piecesSteps] using ih hname hrest
    | _ =>
      rw [piecesSteps,← List.append_assoc]
      · exact ih (hn.append ps) hrest
      · simp

theorem endsWith_of_fits {role : Role} {n : Node} (hrole : role.isValue) (hfits : Fits role n) :
    EndsWith n.pieces := by
  refine induct_value hrole hfits fun role n hrole hfits h => ?_
  obtain ⟨hadmits,hcomplete,-⟩ := fits_iff.1 hfits
  have hkind := kind_of_isValue hrole hadmits
  cases n with
  | binaryExpression operator left right =>
    cases right with
    | none =>
      rw [Node.pieces]
      exact (h left (.head _)).append [_]
    | some right =>
      rw [Node.pieces,← List.singleton_append,← List.append_assoc]
      exact (h right (.tail _ (.head _))).append _
  | unaryExpression operator value =>
    rw [Node.pieces]
    exact (h value (.head _)).append [_]
  | updateExpression operator value isPostfix =>
    cases isPostfix with
    | true =>
      rw [Node.pieces]
      refine ⟨.tight operator,by simp,?_⟩
      rintro sign hsign
      exact (Piece.tight.inj hsign) ▸ hcomplete
    | false =>
      rw [Node.pieces]
      exact (h value (.head _)).append [_]
  | conditionalExpression test success failure =>
    have hlast := h failure (by simp [Node.children,Node.slots])
    rw [Node.pieces]
    exact (((hlast.append [_]).append _).append [_]).append _
  | assignmentExpression left operator right =>
    rw [Node.pieces,← List.singleton_append,← List.append_assoc]
    exact (h right (.tail _ (.head _))).append _
  | callExpression callee arguments =>
    rw [Node.pieces]
    exact ((endsWith_mark _ _).append [_]).append _
  | parenthesizedExpression value | index value =>
    rw [Node.pieces]
    exact (endsWith_mark _ _).append [_]
  | path steps =>
    rw [Node.children_path] at h
    cases steps with
    | nil => exact absurd rfl hcomplete
    | cons first rest =>
      obtain ⟨hfirst,hrest⟩ := List.forall_mem_cons.1 h
      rw [Node.pieces,piecesPath]
      exact hfirst.steps hrest
  | reference text | numberLiteral text | booleanLiteral text | nullLiteral
  | stringLiteral text | userDefinedLiteral text =>
    rw [Node.pieces]
    exact ⟨_,rfl,by simp⟩
  | _ => simp [Node.kind,Kind.isExpression] at hkind

section Chains
variable {ps qs : List Piece} {q : Piece}

theorem apart_of_left (hq : q.isTight = false) (p : Piece) : Piece.Apart q p := by
  cases q with
  | tight sign => cases hq
  | _ => trivial

theorem apart_of_right (hq : q.isTight = false) (p : Piece) : Piece.Apart p q := by
  cases q with
  | tight sign => cases hq
  | _ => cases p <;> trivial

theorem isChain_cons_iff (hq : q.isTight = false) :
    (q :: qs).IsChain Piece.Apart ↔ qs.IsChain Piece.Apart := by
  rw [List.isChain_cons]
  exact and_iff_right fun p _ => apart_of_left hq p

theorem isChain_append_cons_iff (hq : q.isTight = false) :
    (ps ++ q :: qs).IsChain Piece.Apart ↔ ps.IsChain Piece.Apart ∧ qs.IsChain Piece.Apart := by
  have hjoin : ∀ p ∈ ps.getLast?, ∀ r ∈ (q :: qs).head?, Piece.Apart p r := by
    intro p _ r hr
    obtain rfl : q = r := by simpa using hr
    exact apart_of_right hq p
  rw [List.isChain_append,isChain_cons_iff hq]
  exact ⟨fun h => ⟨h.1,h.2.1⟩,fun h => ⟨h.1,h.2,hjoin⟩⟩

theorem isChain_tight_cons {e : Node} {sign : String} :
    (.tight sign :: e.pieces).IsChain Piece.Apart ↔
      (∀ other ∈ e.lead, ¬Merges sign other) ∧ e.pieces.IsChain Piece.Apart := by
  rw [List.isChain_cons,Node.lead]
  refine and_congr_left fun _ => ?_
  cases e.pieces.head? with
  | none => simp
  | some p => cases p <;> simp [Piece.Apart]

theorem isChain_append_tight {sign : String} (hps : EndsWith ps) (hsign : sign ∈ updateOperators) :
    (ps ++ [Piece.tight sign]).IsChain Piece.Apart ↔ ps.IsChain Piece.Apart := by
  have hjoin : ∀ p ∈ ps.getLast?, ∀ r ∈ [Piece.tight sign].head?, Piece.Apart p r := by
    intro p hp r hr
    obtain rfl : Piece.tight sign = r := by simpa using hr
    obtain ⟨p',hp',hupdate⟩ := hps
    obtain rfl : p = p' := Option.mem_unique hp hp'
    cases p with
    | tight other =>
      -- As in `x++ --`, the only case of a sign behind an operand.
      have hall : ∀ other ∈ updateOperators, ∀ sign ∈ updateOperators, ¬Merges other sign := by
        decide
      exact hall other (hupdate other rfl) sign hsign
    | _ => trivial
  rw [List.isChain_append]
  exact ⟨fun h => h.1,fun h => ⟨h,by simp,hjoin⟩⟩

theorem isChain_commas {groups : List (List Piece)} :
    (commas groups).IsChain Piece.Apart ↔ ∀ group ∈ groups, group.IsChain Piece.Apart := by
  fun_induction commas groups with
  | case1 => simp
  | case2 group => simp
  | case3 group next rest ih => rw [isChain_append_cons_iff rfl,ih,List.forall_mem_cons (a := group)]

theorem isChain_steps {steps : List Node} (hsteps : AllFit .step steps) :
    (ps ++ piecesSteps steps).IsChain Piece.Apart ↔
      ps.IsChain Piece.Apart ∧ ∀ n ∈ steps, n.pieces.IsChain Piece.Apart := by
  induction steps generalizing ps with
  | nil => simp [piecesSteps]
  | cons n rest ih =>
    obtain ⟨hn,hrest⟩ := allFit_cons.1 hsteps
    rw [List.forall_mem_cons]
    cases n with
    | reference name =>
      have hlater : ([Piece.operand name] ++ piecesSteps rest).IsChain Piece.Apart ↔
          [Piece.operand name].IsChain Piece.Apart ∧ ∀ n ∈ rest, n.pieces.IsChain Piece.Apart :=
        ih hrest
      rw [piecesSteps,isChain_append_cons_iff rfl,Node.pieces]
      exact and_congr_right fun _ => hlater
    | index value =>
      rw [piecesSteps,Node.pieces,List.cons_append,isChain_append_cons_iff rfl,ih hrest,
        isChain_cons_iff rfl]
      simp
    | _ => simp [Fits,Role.admits,Node.kind] at hn

end Chains

theorem isChain_pieces {n : Node} {role : Role} (hrole : role.isValue) (hfits : Fits role n) :
    n.pieces.IsChain Piece.Apart ↔
      n.Apart ∧ ∀ c ∈ n.children, c.pieces.IsChain Piece.Apart := by
  obtain ⟨hadmits,hcomplete,hslots⟩ := fits_iff.1 hfits
  have hkind := kind_of_isValue hrole hadmits
  cases n with
  | binaryExpression operator left right =>
    cases right with
    | none =>
      rw [Node.pieces,isChain_tight_cons]
      simp [Node.Apart,Node.children,Node.slots]
    | some right =>
      rw [Node.pieces,isChain_append_cons_iff rfl]
      simp [Node.Apart,Node.children,Node.slots]
  | unaryExpression operator value =>
    rw [Node.pieces,isChain_tight_cons]
    simp [Node.Apart,Node.children,Node.slots]
  | updateExpression operator value isPostfix =>
    cases isPostfix with
    | true =>
      have hexpression : Role.expression.isValue := rfl
      have hvalue : EndsWith value.pieces := endsWith_of_fits hexpression (hslots _ (.head _))
      rw [Node.pieces,isChain_append_tight hvalue hcomplete]
      simp [Node.Apart,Node.children,Node.slots]
    | false =>
      rw [Node.pieces,isChain_tight_cons]
      simp [Node.Apart,Node.children,Node.slots]
  | conditionalExpression test success failure =>
    rw [Node.pieces,isChain_append_cons_iff rfl,isChain_append_cons_iff rfl]
    simp [Node.Apart,Node.children,Node.slots]
  | assignmentExpression left operator right =>
    rw [Node.pieces,isChain_append_cons_iff rfl]
    simp [Node.Apart,Node.children,Node.slots]
  | callExpression callee arguments =>
    rw [Node.pieces,isChain_append_cons_iff rfl,isChain_append_cons_iff rfl,isChain_commas,
      piecesEach_eq_map,List.forall_mem_map]
    simp [Node.Apart,Node.children,Node.slots]
  | parenthesizedExpression value | index value =>
    rw [Node.pieces,isChain_cons_iff rfl,isChain_append_cons_iff rfl]
    simp [Node.Apart,Node.children,Node.slots]
  | path steps =>
    cases steps with
    | nil => exact absurd rfl hcomplete
    | cons first rest =>
      have hrest : AllFit .step rest := by
        have hlater := (List.forall_mem_cons.1 hslots).2
        exact forall_slots_map.1 hlater
      rw [Node.pieces,piecesPath,isChain_steps hrest,Node.children_path]
      simp [Node.Apart]
  | reference text | numberLiteral text | booleanLiteral text | nullLiteral | stringLiteral text
  | userDefinedLiteral text =>
    rw [Node.pieces]
    simp [Node.Apart,Node.children,Node.slots]
  | _ => simp [Node.kind,Kind.isExpression] at hkind

theorem isChain_iff_everywhere {role : Role} {n : Node} (hrole : role.isValue)
    (hfits : Fits role n) : n.pieces.IsChain Piece.Apart ↔ Everywhere Node.Apart [n] := by
  refine induct_value hrole hfits fun role n hrole hfits ih => ?_
  rw [isChain_pieces hrole hfits,everywhere_singleton,everywhere_iff]
  exact and_congr_right fun _ => forall₂_congr ih

/-- The signs, marks and operands of an expression itself. -/
def Node.ownPieces : Node → List Piece
  | .binaryExpression operator _ none => [.tight (operatorSign operator)]
  | .binaryExpression operator _ (some _) => [.spaced (operatorSign operator)]
  | .unaryExpression operator _ => [.tight (operatorSign operator)]
  | .updateExpression operator _ _ => [.tight operator]
  | .conditionalExpression _ _ _ => [.loose "?", .loose ":"]
  | .assignmentExpression _ operator _ => [.spaced operator]
  | .callExpression _ _ => [.mark '(', .mark ',', .mark ')']
  | .parenthesizedExpression _ => [.mark '(', .mark ')']
  | .path _ => [.mark '.']
  | .index _ => [.mark '[', .mark ']']
  | n => n.pieces

section Parts
variable {p : Piece}

theorem mem_pieces {n : Node} (h : p ∈ n.pieces) :
    p ∈ n.ownPieces ∨ ∃ c ∈ n.children, p ∈ c.pieces := by
  cases n with
  | binaryExpression operator left right =>
    cases right <;> simp [Node.pieces,Node.ownPieces,Node.children,Node.slots] at h ⊢ <;> tauto
  | updateExpression operator value isPostfix =>
    cases isPostfix <;> simp [Node.pieces,Node.ownPieces,Node.children,Node.slots] at h ⊢ <;> tauto
  | conditionalExpression test success failure | assignmentExpression left operator right
  | unaryExpression operator value | parenthesizedExpression value | index value =>
    simp [Node.pieces,Node.ownPieces,Node.children,Node.slots] at h ⊢
    tauto
  | callExpression callee arguments =>
    have hcommas : p ∈ commas (piecesEach arguments) → _ := mem_commas
    simp [Node.pieces,Node.ownPieces,Node.children,Node.slots,piecesEach_eq_map] at h hcommas ⊢
    tauto
  | path steps =>
    rw [Node.children_path]
    rw [Node.pieces] at h
    cases steps with
    | nil => simp [piecesPath] at h
    | cons first rest =>
      rw [piecesPath] at h
      rcases List.mem_append.1 h with hfirst | hrest
      · exact .inr ⟨first,.head _,hfirst⟩
      · rcases mem_piecesSteps hrest with rfl | ⟨n,hn,hp⟩
        · exact .inl (.head _)
        · exact .inr ⟨n,.tail _ hn,hp⟩
  | _ => exact .inl h

theorem proper_of_mem_ownPieces {n : Node} (hkind : n.kind.isExpression ∨ n.kind = .index)
    (hcomplete : n.Complete) (h : p ∈ n.ownPieces)
    (hoperand : ∀ text, p = .operand text → (operandEnd? text).isSome)
    (hsign : p.sign? ≠ some "<=>") : p.Proper := by
  have hbinary : ∀ operator ∈ binaryOperators, operatorSign operator ≠ "<=>" →
      (Piece.tight (operatorSign operator)).Proper ∧
        (Piece.spaced (operatorSign operator)).Proper := by decide
  have hunary : ∀ operator ∈ unaryOperators, (Piece.tight (operatorSign operator)).Proper := by
    decide
  have hupdate : ∀ operator ∈ updateOperators, (Piece.tight operator).Proper := by decide
  have hassignment : ∀ operator ∈ assignmentOperators, (Piece.spaced operator).Proper := by decide
  cases n with
  | binaryExpression operator left right =>
    cases right with
    | none =>
      obtain rfl := List.mem_singleton.1 h
      exact (hbinary operator hcomplete (by simpa [Piece.sign?] using hsign)).1
    | some right =>
      obtain rfl := List.mem_singleton.1 h
      exact (hbinary operator hcomplete (by simpa [Piece.sign?] using hsign)).2
  | unaryExpression operator value =>
    obtain rfl := List.mem_singleton.1 h
    exact hunary operator hcomplete
  | updateExpression operator value isPostfix =>
    obtain rfl := List.mem_singleton.1 h
    exact hupdate operator hcomplete
  | assignmentExpression left operator right =>
    obtain rfl := List.mem_singleton.1 h
    exact hassignment operator hcomplete
  | conditionalExpression test success failure =>
    exact (show ∀ p ∈ [Piece.loose "?",.loose ":"], p.Proper by decide) p h
  | callExpression callee arguments =>
    exact (show ∀ p ∈ [Piece.mark '(',.mark ',',.mark ')'], p.Proper by decide) p h
  | parenthesizedExpression value =>
    exact (show ∀ p ∈ [Piece.mark '(',.mark ')'], p.Proper by decide) p h
  | path steps => exact (show ∀ p ∈ [Piece.mark '.'], p.Proper by decide) p h
  | index value => exact (show ∀ p ∈ [Piece.mark '[',.mark ']'], p.Proper by decide) p h
  | reference text | numberLiteral text | booleanLiteral text | nullLiteral | stringLiteral text
  | userDefinedLiteral text =>
    rw [Node.ownPieces,Node.pieces] at h
    · obtain rfl := List.mem_singleton.1 h
      exact hoperand _ rfl
    all_goals simp
  | _ => simp [Node.kind,Kind.isExpression] at hkind

theorem proper_of_fits {role : Role} {n : Node} (hrole : role.isValue) (hfits : Fits role n)
    (hp : p ∈ n.pieces) (hoperand : ∀ text, p = .operand text → (operandEnd? text).isSome)
    (hsign : p.sign? ≠ some "<=>") : p.Proper := by
  revert hp
  refine induct_value hrole hfits fun role n hrole hfits ih hp => ?_
  obtain ⟨hadmits,hcomplete,-⟩ := fits_iff.1 hfits
  rcases mem_pieces hp with hown | ⟨c,hc,hpc⟩
  · exact proper_of_mem_ownPieces (kind_of_isValue hrole hadmits) hcomplete hown hoperand hsign
  · exact ih c hc hpc

end Parts

/-- An expression whose operands are read as such, none of them going on in the next piece, and whose
operators are those of the output language. -/
structure Node.Legible (e : Node) : Prop where
  operands : ∀ text, .operand text ∈ e.pieces → (operandEnd? text).isSome
  divided : e.pieces.IsChain Piece.Divided
  comparisons : "<=>" ∉ e.signs

theorem Node.Legible.proper {e : Node} (h : e.Legible) {role : Role} (hrole : role.isValue)
    (hfits : Fits role e) {m : Node} (hm : m ∈ walk [e]) : ∀ p ∈ m.pieces, p.Proper := by
  intro p hp
  have hmem := (everywhere_value hrole hfits m hm).2 p hp
  refine proper_of_fits hrole hfits hmem ?_ ?_
  · rintro text rfl
    exact h.operands text hmem
  · intro hsign
    exact h.comparisons (List.mem_filterMap.2 ⟨p,hmem,hsign⟩)

section Order

def ownSigns (ps : List Piece) : List String := (signsOf ps).filter (· ∉ ["?",":"])

theorem ownSigns_append (ps qs : List Piece) : ownSigns (ps ++ qs) = ownSigns ps ++ ownSigns qs := by
  simp [ownSigns,signsOf]

theorem ownSigns_cons (p : Piece) (ps : List Piece) :
    ownSigns (p :: ps) = p.sign?.toList.filter (· ∉ ["?",":"]) ++ ownSigns ps := by
  rw [ownSigns,signsOf_cons,List.filter_append,ownSigns]

theorem ownSigns_commas (groups : List (List Piece)) :
    ownSigns (commas groups) = groups.flatMap ownSigns := by
  fun_induction commas groups with
  | case1 => rfl
  | case2 group => simp
  | case3 group next rest ih =>
    rw [ownSigns_append,ownSigns_cons,ih,List.flatMap_cons]
    rfl

theorem ownSigns_piecesSteps (steps : List Node) :
    ownSigns (piecesSteps steps) = steps.flatMap fun n => ownSigns n.pieces := by
  induction steps with
  | nil => rfl
  | cons n rest ih =>
    cases n with
    | reference name =>
      rw [piecesSteps,ownSigns_cons,ownSigns_cons,ih,List.flatMap_cons]
      simp [Node.pieces]
      rfl
    | _ =>
      rw [piecesSteps,ownSigns_append,ih,List.flatMap_cons]
      simp

theorem tokensAll_eq_flatMap (ns : List Node) : tokensAll ns = ns.flatMap Node.tokens := by
  induction ns with
  | nil => rfl
  | cons n ns ih => rw [tokensAll_cons,ih,List.flatMap_cons]

theorem ownSigns_of_children {n : Node} (hkind : n.kind.isExpression ∨ n.kind = .index)
    (hcomplete : n.Complete) (hpaired : n.Paired)
    (h : ∀ c ∈ n.children, ownSigns c.pieces = c.tokens.filterMap Token.sign?) :
    ownSigns n.pieces = n.tokens.filterMap Token.sign? := by
  have hown : ∀ operator ∈ binaryOperators ++ unaryOperators,
      [operatorSign operator].filter (· ∉ ["?",":"]) = [operatorSign operator] := by decide
  have hbare : ∀ operator ∈ updateOperators ++ assignmentOperators,
      [operator].filter (· ∉ ["?",":"]) = [operatorSign operator] := by decide
  have hall : ∀ ns : List Node, (∀ c ∈ ns, c ∈ n.children) →
      ns.flatMap (fun c => ownSigns c.pieces) = (tokensAll ns).filterMap Token.sign? := by
    intro ns hns
    rw [tokensAll_eq_flatMap,List.filterMap_flatMap]
    exact List.flatMap_congr fun c hc => h c (hns c hc)
  cases n with
  | binaryExpression operator left right =>
    cases right with
    | none => exact hpaired.elim
    | some right =>
      obtain ⟨hleft,hright⟩ : _ ∧ _ := by simpa [Node.children,Node.slots] using h
      rw [Node.pieces,ownSigns_append,ownSigns_cons,hleft,hright,Piece.sign?,Option.toList_some,
        hown operator (List.mem_append_left _ hcomplete)]
      simp [Node.tokens,Token.sign?]
  | unaryExpression operator value =>
    have hvalue := h value (by simp [Node.children,Node.slots])
    rw [Node.pieces,ownSigns_cons,hvalue,Piece.sign?,Option.toList_some,
      hown operator (List.mem_append_right _ hcomplete)]
    simp [Node.tokens,Token.sign?]
  | updateExpression operator value isPostfix =>
    have hvalue := h value (by simp [Node.children,Node.slots])
    have hsign : ownSigns [.tight operator] = [operatorSign operator] :=
      hbare operator (List.mem_append_left _ hcomplete)
    cases isPostfix with
    | true =>
      rw [Node.pieces,ownSigns_append,hvalue,hsign]
      simp [Node.tokens,Token.sign?]
    | false =>
      rw [Node.pieces,← List.singleton_append,ownSigns_append,hvalue,hsign]
      simp [Node.tokens,Token.sign?]
  | assignmentExpression left operator right =>
    obtain ⟨hleft,hright⟩ : _ ∧ _ := by simpa [Node.children,Node.slots] using h
    rw [Node.pieces,ownSigns_append,ownSigns_cons,hleft,hright,Piece.sign?,Option.toList_some,
      hbare operator (List.mem_append_right _ hcomplete)]
    simp [Node.tokens,Token.sign?]
  | conditionalExpression test success failure =>
    obtain ⟨htest,hsuccess,hfailure⟩ : _ ∧ _ ∧ _ := by simpa [Node.children,Node.slots] using h
    rw [Node.pieces,ownSigns_append,ownSigns_cons,ownSigns_append,ownSigns_cons,htest,hsuccess,
      hfailure]
    simp [Node.tokens,Piece.sign?]
  | callExpression callee arguments =>
    have hcallee := h callee (by simp [Node.children,Node.slots])
    have harguments := hall arguments (by simp +contextual [Node.children,Node.slots])
    rw [Node.pieces,ownSigns_append,ownSigns_cons,ownSigns_append,ownSigns_commas,hcallee,
      piecesEach_eq_map,List.flatMap_map,harguments]
    simp [Node.tokens,Piece.sign?,ownSigns,signsOf]
  | parenthesizedExpression value | index value =>
    have hvalue := h value (by simp [Node.children,Node.slots])
    rw [Node.pieces,ownSigns_cons,ownSigns_append,hvalue]
    simp [Node.tokens,Piece.sign?,ownSigns,signsOf]
  | path steps =>
    have hsteps := hall steps fun c hc => by rwa [Node.children_path]
    rw [Node.pieces,Node.tokens,← hsteps]
    cases steps with
    | nil => rfl
    | cons first rest => rw [piecesPath,ownSigns_append,ownSigns_piecesSteps,List.flatMap_cons]
  | reference text | numberLiteral text | booleanLiteral text | nullLiteral | stringLiteral text
  | userDefinedLiteral text => rfl
  | _ => simp [Node.kind,Kind.isExpression] at hkind

/-- The operators of an expression are those that it says, each with its sign and in order. -/
theorem ownSigns_of_fits {role : Role} {n : Node} (hrole : role.isValue) (hfits : Fits role n) :
    Everywhere Node.Paired [n] → ownSigns n.pieces = n.tokens.filterMap Token.sign? := by
  refine induct_value hrole hfits fun role n hrole hfits ih hpaired => ?_
  obtain ⟨hadmits,hcomplete,-⟩ := fits_iff.1 hfits
  obtain ⟨hself,hinside⟩ := everywhere_singleton.1 hpaired
  refine ownSigns_of_children (kind_of_isValue hrole hadmits) hcomplete hself fun c hc => ?_
  exact ih c hc (everywhere_iff.1 hinside c hc)

end Order

end Program

namespace Printing
open Program Text Lexing

theorem head_iff_lead {e : Node} {cs : List Char} (h : Core e.pieces cs)
    (hproper : ∀ p ∈ e.pieces, p.Proper) {c : Char} (hc : c ∈ ['+','-']) :
    c ∈ cs.head? ↔ ∃ sign ∈ e.lead, c ∈ sign.toList.head? := by
  have hsign : [c] ∈ signs ∧ c ∉ ['?',':'] := by
    obtain rfl | rfl : c = '+' ∨ c = '-' := by simpa using hc
    · decide
    · decide
  constructor
  · intro hhead
    obtain ⟨p,hp,hpproper,hbegins⟩ := h.spell.begins hproper c hhead
    obtain ⟨sign,rfl⟩ := hbegins.tight hpproper hsign.1 hsign.2
    exact ⟨sign,by simp [Node.lead,Option.mem_def.1 hp],hbegins⟩
  · rintro ⟨sign,hlead,hhead⟩
    obtain ⟨first,hfirst,-⟩ := h.solid.1
    obtain ⟨p,hp,-,hbegins⟩ := h.spell.begins hproper first hfirst
    obtain rfl : p = .tight sign := by
      rw [Node.lead,Option.mem_def.1 hp] at hlead
      cases p <;> simp_all
    exact Option.mem_unique hbegins hhead ▸ hfirst

/-- The text of a legible expression reads as the operators of the expression exactly if no operator
goes on in the one behind it. Apart from choices they are the operators that the expression says, each
with its sign. The operand of a plus or a minus begins with the same character exactly if its first
operator does. -/
theorem operatorsIn_printed {tree : ParseTree} {plan : Reading.Plan Node}
    (hplan : Reading.expression? tree.kind = some plan) {context : String}
    {value : plan.rule.Result} (h : (Reading.read plan.rule context tree).result = .ok value)
    (hlegible : (plan.build value).Legible) (place : Place) :
    (print place (plan.build value)).failure = none ∧
    (operatorsIn (join "\n" (print place (plan.build value)).lines) = (plan.build value).signs ↔
      Everywhere Node.Apart [plan.build value]) ∧
    (Everywhere Node.Paired [plan.build value] →
      (plan.build value).signs.filter (· ∉ ["?",":"]) =
        (plan.build value).tokens.filterMap Token.sign?) ∧
    ∀ c ∈ ['+','-'], ∀ operand,
      .unaryExpression (String.singleton c) operand ∈ walk [plan.build value] →
      (startsWithChar c (join "\n" (print place operand).lines) ↔
        ∃ sign ∈ operand.lead, startsWithChar c sign) := by
  have hrole : Role.expression.isValue := rfl
  have hfits : Fits .expression (plan.build value) :=
    Reading.expressionRules_make _ (Reading.mem_of_lookup hplan) value
      (Reading.sortedInvariant.read_result plan.rule context tree value h)
  -- From here on only the sorts of the expression matter, not how it was read.
  generalize plan.build value = e at hlegible hfits
  obtain ⟨hok,hlines⟩ := lines_of_fits hrole hfits place
  have hself : e ∈ walk [e] := by simp [walk_cons]
  have hproper := hlegible.proper hrole hfits hself
  have hlays : Lays place e := lays_of_fits hrole hfits
  refine ⟨hok,?_,ownSigns_of_fits hrole hfits,?_⟩
  · rw [hlines,operatorsIn,Node.signs,
      signsFrom_spell (hlays hproper).core_join.spell ⟨hproper,hlegible.divided⟩]
    exact isChain_iff_everywhere hrole hfits
  · intro c hc operand hmem
    have hinner : ∀ p ∈ operand.pieces, p.Proper := fun p hp =>
      hlegible.proper hrole hfits hmem p (by simp [Node.pieces,hp])
    obtain ⟨⟨outer,houter,hunary⟩,-⟩ := everywhere_value hrole hfits _ hmem
    obtain ⟨⟨inner,hvalue,hoperand⟩,-⟩ :=
      everywhere_value houter hunary operand (by simp [walk_cons,Node.children,Node.slots])
    have hlays : Lays place operand := lays_of_fits hvalue hoperand
    rw [(lines_of_fits hvalue hoperand place).2]
    simpa [startsWithChar] using head_iff_lead (hlays hinner).core_join hinner hc

/-- `a - -+1e-5`. -/
def signedTree : ParseTree :=
  .node "binary_expression" "" [.node "identifier" "a" [],.node "-" "-" [],
    .node "unary_expression" "" [.node "-" "-" [],
      .node "unary_expression" "" [.node "+" "+" [],.node "number_literal" "1e-5" []]]]

def signedExpression : Node :=
  .binaryExpression "-" (.reference "a")
    (some (.unaryExpression "-" (.unaryExpression "+" (.numberLiteral "1e-5"))))

theorem operatorsIn_signedExpression :
    (Reading.read .binaryExpression "expression_statement" signedTree).result =
        .ok signedExpression ∧
      signedExpression.Legible ∧ Everywhere Node.Apart [signedExpression] ∧
      operatorsIn (join "\n" (print .top signedExpression).lines) = ["-","-","+"] ∧
      (startsWithChar '-' (join "\n" (print .top (.unaryExpression "+" (.numberLiteral "1e-5"))).lines)
        ↔ startsWithChar '-' "+") := by
  have hplan : Reading.expression? signedTree.kind = some (.nested .binaryExpression id) := rfl
  have hread : (Reading.read .binaryExpression "expression_statement" signedTree).result =
      .ok signedExpression := rfl
  have hplus : operatorSign "+" = "+" := rfl
  have hpieces : signedExpression.pieces =
      [.operand "a",.spaced "-",.tight "-",.tight "+",.operand "1e-5"] := by decide
  have hown : signedExpression.signs = ["-","-","+"] := congrArg signsOf hpieces
  have hlegible : signedExpression.Legible := by
    refine ⟨?_,?_,?_⟩
    · rw [hpieces]
      intro text htext
      obtain rfl | rfl : text = "a" ∨ text = "1e-5" := by simpa using htext
      · decide
      · decide
    · rw [hpieces]
      decide
    · rw [hown]
      decide
  have hmerges : ¬Merges (operatorSign "-") "+" := by decide
  have hapart : Everywhere Node.Apart [signedExpression] := by
    simp [signedExpression,Everywhere,walk_cons,Node.children,Node.slots,Node.Apart,Node.lead,
      Node.pieces,hplus,hmerges]
  obtain ⟨-,hsigns,-,hoperands⟩ := operatorsIn_printed hplan hread hlegible .top
  refine ⟨hread,hlegible,hapart,(hsigns.2 hapart).trans hown,?_⟩
  have hmem : .unaryExpression "-" (.unaryExpression "+" (.numberLiteral "1e-5")) ∈
      walk [signedExpression] := by simp [signedExpression,walk_cons,Node.children,Node.slots]
  simpa [Node.lead,Node.pieces,hplus] using hoperands '-' (by decide) _ hmem

/-- `- -1`. -/
def gluedTree : ParseTree :=
  .node "unary_expression" "" [.node "-" "-" [],
    .node "unary_expression" "" [.node "-" "-" [],.node "number_literal" "1" []]]

def gluedExpression : Node := .unaryExpression "-" (.unaryExpression "-" (.numberLiteral "1"))

/-- Two minus signs in a row are printed as a decrement. -/
theorem operatorsIn_gluedExpression :
    (Reading.read .unaryExpression "expression_statement" gluedTree).result = .ok gluedExpression ∧
      (print .top gluedExpression).lines = ["--1"] ∧
      operatorsIn "--1" = ["--"] ∧
      gluedExpression.tokens.filterMap Token.sign? = ["-","-"] := by
  refine ⟨rfl,?_,by decide,by decide⟩
  decide

end Printing
end Scribe
