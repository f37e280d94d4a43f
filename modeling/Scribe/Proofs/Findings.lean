import Mathlib.Data.Set.Card
import Scribe.Audit
import Scribe.Proofs.ReadingFailure
import Scribe.Proofs.SortedPrinting

/-! What audits find. The kinds of the named nodes of a tree are counted once each, and those
without a rule are divided between two increasing lists. A construct that reading fails on in a
block stands in the list of those that blocks have to do with. -/
namespace Scribe

namespace ParseTree

/-- A tree with a node of some kind that is not spelled by its kind. -/
def HasNamed (root : ParseTree) (kind : String) : Prop :=
  ∃ t ∈ root.walk, t.kind = kind ∧ t.text ≠ kind

end ParseTree

namespace Reading
open ParseTree

theorem child_of_unsupported {root : ParseTree} {kind context : String}
    (h : (readFile root).result = .error (.unsupported ⟨kind,context⟩)) :
    context = Unsupported.file ∨
      ∃ parent ∈ root.walk, parent.kind = context ∧ ∃ child ∈ parent.children, child.kind = kind := by
  by_cases hroot : root.kind = "translation_unit"
  · cases located_of_readFile hroot h with
    | child hparent hchild _ => exact .inr ⟨_,hparent,rfl,_,hchild,rfl⟩
  · left
    rw [readFile_of_not_unit hroot] at h
    simp only [Outcome.unsupported,Recorded.result_fail,Except.error.injEq,Failure.unsupported.injEq,
      Unsupported.mk.injEq] at h
    exact h.2.symm

theorem unsupported_or_noParts {root : ParseTree} {cause : Failure}
    (h : (readFile root).result = .error cause) :
    (∃ u, cause = .unsupported u) ∨ cause = .noParts := by
  by_cases hroot : root.kind = "translation_unit"
  · cases located_of_readFile hroot h with
    | child _ _ _ => exact .inl ⟨_,rfl⟩
    | noParts _ _ _ => exact .inr rfl
  · rw [readFile_of_not_unit hroot] at h
    exact .inl ⟨_,(Except.error.inj h).symm⟩

end Reading

namespace Audit
open Conversion Reading ParseTree

section Kinds
variable {root : ParseTree} {kind : String}

theorem mem_namedKinds : kind ∈ namedKinds root ↔ root.HasNamed kind := by
  simp only [namedKinds,Text.mem_wordSet,List.mem_map,List.mem_filter,isNamed,bne_iff_ne,HasNamed]
  constructor
  · rintro ⟨t,⟨ht,hne⟩,rfl⟩
    exact ⟨t,ht,rfl,hne.symm⟩
  · rintro ⟨t,ht,rfl,hne⟩
    exact ⟨t,⟨ht,hne.symm⟩,rfl⟩

theorem mem_kindsInBlocks : kind ∈ kindsInBlocks root ↔
    ∃ block ∈ root.walk, block.kind ∈ blockKinds ∧ ∃ child ∈ block.children, child.kind = kind := by
  simp only [kindsInBlocks,List.mem_flatMap,List.mem_filter,List.mem_map,decide_eq_true_eq,and_assoc]

variable {firstFailure : Option Unsupported}

theorem mem_substantive : kind ∈ (findings root firstFailure).substantive ↔
    (root.HasNamed kind ∧ kind ∉ handledKinds) ∧ kind ∈ kindsInBlocks root := by
  simp only [findings,List.mem_filter,mem_namedKinds,decide_eq_true_eq]

theorem mem_structural : kind ∈ (findings root firstFailure).structural ↔
    (root.HasNamed kind ∧ kind ∉ handledKinds) ∧ kind ∉ kindsInBlocks root := by
  simp only [findings,List.mem_filter,mem_namedKinds,decide_eq_true_eq]

theorem length_eq_ncard {kinds : List String} (hnodup : kinds.Nodup) {P : String → Prop}
    (h : ∀ kind, kind ∈ kinds ↔ P kind) : kinds.length = {kind | P kind}.ncard := by
  have hset : {kind | P kind} = ↑kinds.toFinset := by
    ext kind
    simp [h]
  rw [hset,Set.ncard_coe_finset,List.toFinset_card_of_nodup hnodup]

end Kinds

/-- Findings that account for the kinds of the named nodes of a tree. -/
structure Accounts (root : ParseTree) (f : Findings) : Prop where
  structural_increasing : f.structural.Pairwise (· < ·)
  substantive_increasing : f.substantive.Pairwise (· < ·)
  disjoint : f.structural.Disjoint f.substantive
  unhandled : ∀ kind, kind ∈ f.structural ∨ kind ∈ f.substantive ↔
    root.HasNamed kind ∧ kind ∉ handledKinds
  substantive_iff : ∀ kind, kind ∈ f.substantive ↔ (root.HasNamed kind ∧ kind ∉ handledKinds) ∧
    ∃ block ∈ root.walk, block.kind ∈ blockKinds ∧ ∃ child ∈ block.children, child.kind = kind
  total : f.totalKinds = f.handledCount + f.structural.length + f.substantive.length
  totalKinds_eq : f.totalKinds = {kind | root.HasNamed kind}.ncard
  handledCount_eq : f.handledCount = {kind | root.HasNamed kind ∧ kind ∈ handledKinds}.ncard

theorem accounts_findings (root : ParseTree) (firstFailure : Option Unsupported) :
    Accounts root (findings root firstFailure) := by
  have hincreasing : (namedKinds root).Pairwise (· < ·) := Text.pairwise_wordSet _
  have hnodup : (namedKinds root).Nodup := hincreasing.nodup
  refine
    { structural_increasing := (hincreasing.filter _).filter _
      substantive_increasing := (hincreasing.filter _).filter _
      disjoint := fun kind hs hb => (mem_structural.1 hs).2 (mem_substantive.1 hb).2
      unhandled := fun kind => ?_
      substantive_iff := fun kind => by rw [mem_substantive,mem_kindsInBlocks]
      total := ?_
      totalKinds_eq := length_eq_ncard hnodup fun kind => mem_namedKinds
      handledCount_eq := length_eq_ncard (hnodup.filter _) fun kind => ?_ }
  · rw [mem_structural,mem_substantive,← and_or_left]
    simp [em']
  · -- Those with a rule are set apart first, then those in blocks from the others.
    have hkinds := (namedKinds root).length_eq_length_filter_add fun kind =>
      decide (kind ∈ handledKinds)
    have hunhandled := ((namedKinds root).filter (· ∉ handledKinds)).length_eq_length_filter_add
      fun kind => decide (kind ∈ kindsInBlocks root)
    simp only [← decide_not] at hkinds hunhandled
    simp only [findings]
    omega
  · simp [mem_namedKinds]

section Audits
variable {root : ParseTree}

theorem convertTree_of_failure {cause : Reading.Failure} (h : (readFile root).result = .error cause) :
    (convertTree root).result = .error (.reading cause) := by
  rw [result_convertTree,result_readTree,h]
  rfl

theorem auditTree_of_unsupported {cause : Conversion.Failure} {u : Unsupported}
    (h : (convertTree root).result = .error cause) (hu : cause.unsupported? = some u) :
    auditTree root = .ok (findings root (some u)) := by
  simp only [auditTree,h,hu]

theorem auditTree_of_program {program : List Program.Node}
    (h : (readFile root).result = .ok program) :
    ∃ firstFailure, auditTree root = .ok (findings root firstFailure) := by
  have hsorted : Program.Everywhere Program.Node.Sorted program :=
    Program.everywhere_iff.2 fun n hn => (readFile_allFit h n hn).2
  have hconvert : (convertTree root).result = (printNodes program).result := by
    rw [result_convertTree,result_readTree,h]
    rfl
  rw [result_printNodes] at hconvert
  rcases Printing.document_of_sorted hsorted with ⟨⟨d,hd⟩,-⟩ | ⟨herror,-⟩
  · rw [hd] at hconvert
    exact ⟨none,by simp only [auditTree,hconvert,Except.map,Except.mapError]⟩
  · rw [herror] at hconvert
    exact ⟨_,auditTree_of_unsupported hconvert rfl⟩

/-- A tree has no findings only if a concatenation in it has no parts. -/
theorem auditTree_cases (root : ParseTree) :
    (∃ firstFailure, auditTree root = .ok (findings root firstFailure)) ∨
      (readFile root).result = .error .noParts ∧ auditTree root = .error (.reading .noParts) := by
  cases hread : (readFile root).result with
  | ok program => exact .inl (auditTree_of_program hread)
  | error cause =>
    have hconvert := convertTree_of_failure hread
    rcases unsupported_or_noParts hread with ⟨u,rfl⟩ | rfl
    · exact .inl ⟨_,auditTree_of_unsupported hconvert rfl⟩
    · exact .inr ⟨rfl,by simp only [auditTree,hconvert,Conversion.Failure.unsupported?]⟩

theorem audit_of_decode {parser : Parser} {source : String}
    (h : (parser language source).decode? = some root) : audit parser source = auditTree root := by
  obtain ⟨raw,hraw,hdecode⟩ := Parsed.eq_tree_of_decode h
  rw [audit,result_parseTree_of_tree hraw,hdecode]
  rfl

end Audits

/-- Findings account for the kinds of all named nodes. Every tree has some, unless reading it
fails for a concatenation without parts. -/
theorem audit_accounts (root : ParseTree) :
    (∀ firstFailure, Accounts root (findings root firstFailure)) ∧
    ((∃ firstFailure, auditTree root = .ok (findings root firstFailure)) ∨
      (readFile root).result = .error .noParts ∧ auditTree root = .error (.reading .noParts)) ∧
    ∀ (parser : Parser) (source : String), (parser language source).decode? = some root →
      audit parser source = auditTree root :=
  ⟨accounts_findings root,auditTree_cases root,fun _ _ => audit_of_decode⟩

/-- A comment that has a named `goto` in it, and a bare one in a block. -/
def gotoFile : ParseTree :=
  .node "translation_unit" "" [.node "comment" "// c" [.node "goto" "x" []],
    .node "compound_statement" "" [.node "break_statement" "" [],.node "goto" "goto" []]]

/-- The same as a parser gives it. -/
def gotoTree : RawTree :=
  .node "translation_unit" none [
    .node "comment" (some "// c".toUTF8) [.node "goto" (some "x".toUTF8) []],
    .node "compound_statement" none [.node "break_statement" none [],
      .node "goto" (some "goto".toUTF8) []]]

theorem audit_accounts_gotoTree :
    ∃ f, audit (fun _ _ => gotoTree) "" = .ok f ∧ Accounts gotoFile f := by
  have hdecode : gotoTree.decode? = some gotoFile := rfl
  obtain ⟨haccounts,⟨firstFailure,hroot⟩ | ⟨hread,-⟩,haudit⟩ := audit_accounts gotoFile
  · exact ⟨_,(haudit (fun _ _ => gotoTree) "" hdecode).trans hroot,haccounts firstFailure⟩
  · cases hread

/-- A construct that is not supported in a block is listed, if its kind has no rule and is named
somewhere. -/
theorem substantive_of_blockFailure {root : ParseTree} {kind context : String}
    (hfail : (readFile root).result = .error (.unsupported ⟨kind,context⟩))
    (hblock : context ∈ blockKinds) (hkind : kind ∉ handledKinds)
    (hnamed : ∃ t ∈ root.walk, t.kind = kind ∧ t.text ≠ kind) :
    ∃ f, auditTree root = .ok f ∧ kind ∈ f.substantive ∧
      ∀ (parser : Parser) (source : String), (parser language source).decode? = some root →
        audit parser source = .ok f := by
  have haudit := auditTree_of_unsupported (convertTree_of_failure hfail) rfl
  have hinBlocks : kind ∈ kindsInBlocks root := by
    rcases child_of_unsupported hfail with rfl | ⟨parent,hparent,rfl,hchild⟩
    · simp [blockKinds,Unsupported.file] at hblock
    · exact mem_kindsInBlocks.2 ⟨parent,hparent,hblock,hchild⟩
  refine ⟨_,haudit,mem_substantive.2 ⟨⟨hnamed,hkind⟩,hinBlocks⟩,fun parser source h => ?_⟩
  rw [audit_of_decode h,haudit]

theorem substantive_gotoTree :
    (readFile gotoFile).result = .error (.unsupported ⟨"goto","compound_statement"⟩) ∧
    ∃ f, audit (fun _ _ => gotoTree) "" = .ok f ∧ "goto" ∈ f.substantive := by
  have hfail : (readFile gotoFile).result =
      .error (.unsupported ⟨"goto","compound_statement"⟩) := rfl
  have hnamed : ∃ t ∈ gotoFile.walk, t.kind = "goto" ∧ t.text ≠ "goto" :=
    ⟨.node "goto" "x" [],.tail _ (.tail _ (.head _)),rfl,by decide⟩
  have hdecode : gotoTree.decode? = some gotoFile := rfl
  obtain ⟨f,-,hmem,haudit⟩ := substantive_of_blockFailure hfail (by decide) (by decide) hnamed
  exact ⟨hfail,f,haudit (fun _ _ => gotoTree) "" hdecode,hmem⟩

end Audit
end Scribe
