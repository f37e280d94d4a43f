import Mathlib.Algebra.BigOperators.Group.List.Lemmas
import Mathlib.Tactic
import Scribe.Proofs.Preorder

/-! How often each kind occurs. A table of counts that grows with every node that is met lists the
kinds in the order of their first occurrence, each with the number of its occurrences. -/
namespace Scribe
namespace Program

section Kinds
variable {kind : Kind} {kinds : List Kind}

theorem eraseDups_concat (kinds : List Kind) (kind : Kind) : (kinds ++ [kind]).eraseDups =
    if kind ∈ kinds then kinds.eraseDups else kinds.eraseDups ++ [kind] := by
  rw [List.eraseDups_append]
  by_cases hmem : kind ∈ kinds <;> simp [List.removeAll,hmem,List.eraseDups_cons]

theorem nodup_eraseDups (kinds : List Kind) : kinds.eraseDups.Nodup := by
  induction kinds using List.reverseRecOn with
  | nil => simp
  | append_singleton kinds kind ih =>
    rw [eraseDups_concat]
    split
    · exact ih
    · rename_i hnew
      rw [← List.concat_eq_append]
      exact ih.concat (mt List.mem_eraseDups.1 hnew)

/-- The kinds of a sequence in the order of first occurrence, with the numbers of occurrences. -/
def occurrences (kinds : List Kind) : List (Kind × Nat) :=
  kinds.eraseDups.map fun kind => (kind, kinds.count kind)

theorem tally_of_mem (count : Kind → Nat) (hnodup : kinds.Nodup) (hmem : kind ∈ kinds) :
    tally kind (kinds.map fun k => (k, count k)) =
      kinds.map fun k => (k, if k = kind then count k + 1 else count k) := by
  induction kinds with
  | nil => simp at hmem
  | cons first rest ih =>
    obtain ⟨hfirst,hrest⟩ := List.nodup_cons.1 hnodup
    by_cases heq : first = kind
    · subst heq
      have hothers : ∀ k ∈ rest, (k, count k) = (k, if k = first then count k + 1 else count k) := by
        intro k hk
        rw [if_neg (ne_of_mem_of_not_mem hk hfirst)]
      simp [tally,List.map_congr_left hothers]
    · have hlater : kind ∈ rest := (List.mem_cons.1 hmem).resolve_left (Ne.symm heq)
      simp [tally,heq,ih hrest hlater]

theorem tally_of_not_mem (count : Kind → Nat) (hmem : kind ∉ kinds) :
    tally kind (kinds.map fun k => (k, count k)) =
      kinds.map (fun k => (k, count k)) ++ [(kind, 1)] := by
  induction kinds with
  | nil => rfl
  | cons first rest ih =>
    obtain ⟨hfirst,hrest⟩ := not_or.1 (mt List.mem_cons.2 hmem)
    simp [tally,Ne.symm hfirst,ih hrest]

/-- Counting one more kind keeps the table that of the sequence. -/
theorem tally_occurrences (kinds : List Kind) (kind : Kind) :
    tally kind (occurrences kinds) = occurrences (kinds ++ [kind]) := by
  unfold occurrences
  rw [eraseDups_concat]
  by_cases hmem : kind ∈ kinds
  · rw [tally_of_mem _ (nodup_eraseDups kinds) (List.mem_eraseDups.2 hmem),if_pos hmem]
    refine List.map_congr_left fun k _ => ?_
    by_cases heq : k = kind
    · simp [heq]
    · simp [heq,Ne.symm heq]
  · rw [tally_of_not_mem _ (mt List.mem_eraseDups.1 hmem),if_neg hmem,List.map_append]
    have hothers : ∀ k ∈ kinds.eraseDups,
        (k, kinds.count k) = (k, (kinds ++ [kind]).count k) := by
      intro k hk
      have hne : kind ≠ k := fun heq => hmem (heq ▸ List.mem_eraseDups.1 hk)
      simp [hne]
    rw [List.map_congr_left hothers]
    simp [List.count_eq_zero_of_not_mem hmem]

theorem tallyAll_occurrences (kinds : List Kind) : tallyAll [] kinds = occurrences kinds := by
  induction kinds using List.reverseRecOn with
  | nil => rfl
  | append_singleton kinds kind ih =>
    rw [← tally_occurrences,← ih]
    simp [tallyAll]

theorem mem_occurrences {n : Nat} :
    (kind, n) ∈ occurrences kinds ↔ 0 < n ∧ n = kinds.count kind := by
  simp only [occurrences,List.mem_map,List.mem_eraseDups,Prod.mk.injEq]
  constructor
  · rintro ⟨k,hk,rfl,rfl⟩
    exact ⟨List.count_pos_iff.2 hk,rfl⟩
  · rintro ⟨hpos,rfl⟩
    exact ⟨kind,List.count_pos_iff.1 hpos,rfl,rfl⟩

theorem sum_occurrences (kinds : List Kind) :
    ((occurrences kinds).map (·.2)).sum = kinds.length := by
  have hperm : kinds.eraseDups.Perm kinds.dedup := by
    rw [List.perm_ext_iff_of_nodup (nodup_eraseDups kinds) kinds.nodup_dedup]
    simp
  rw [← kinds.sum_map_count_dedup_eq_length,← (hperm.map _).sum_eq]
  simp [occurrences,Function.comp_def]

def countOf (kind : Kind) (counts : List (Kind × Nat)) : Nat := (counts.lookup kind).getD 0

theorem countOf_occurrences (kind : Kind) (kinds : List Kind) :
    countOf kind (occurrences kinds) = kinds.count kind := by
  have hlookup : ∀ ks : List Kind, (ks.map fun k => (k, kinds.count k)).lookup kind =
      if kind ∈ ks then some (kinds.count kind) else none := by
    intro ks
    induction ks with
    | nil => simp
    | cons k ks ih =>
      by_cases heq : kind = k
      · simp [heq]
      · simp [List.lookup_cons,beq_false_of_ne heq,heq,ih]
  rw [countOf,occurrences,hlookup]
  by_cases hmem : kind ∈ kinds
  · simp [hmem]
  · simp [hmem,List.count_eq_zero_of_not_mem hmem]

end Kinds

theorem kindCounts_eq_occurrences (program : List Node) :
    kindCounts program = occurrences ((preorder program).map Node.kind) := by
  rw [kindCounts,tallyAll_occurrences,walk_eq_preorder]

/-- The walk with a stack ends after as many turns as the program has parts, and not before; the
nodes it has met then are those of the program in preorder. The table of counts has their kinds in
the order of first occurrence, each with the number of its occurrences; so the counts add up to
the number of nodes, and those of two programs to those of both in a row. -/
theorem walk_and_kindCounts (program : List Node) :
    (∀ turns, (Walk.turn^[turns] (Walk.start program)).stack = #[] ↔ sizeAll program ≤ turns) ∧
    (∀ turns, sizeAll program ≤ turns →
      (Walk.turn^[turns] (Walk.start program)).met.toList = preorder program) ∧
    walk program = preorder program ∧
    (kindCounts program).map (·.1) = ((preorder program).map Node.kind).eraseDups ∧
    (∀ kind n, (kind, n) ∈ kindCounts program ↔
      0 < n ∧ n = ((preorder program).map Node.kind).count kind) ∧
    ((kindCounts program).map (·.2)).sum = (preorder program).length ∧
    ∀ more kind, countOf kind (kindCounts (program ++ more)) =
      countOf kind (kindCounts program) + countOf kind (kindCounts more) := by
  refine ⟨fun _ => Walk.stack_turns_eq_empty_iff,fun _ => Walk.met_turns,walk_eq_preorder program,
    ?_,?_,?_,?_⟩
  · simp [kindCounts_eq_occurrences,occurrences,Function.comp_def]
  · intro kind n
    rw [kindCounts_eq_occurrences,mem_occurrences]
  · rw [kindCounts_eq_occurrences,sum_occurrences,List.length_map]
  · intro more kind
    simp only [kindCounts_eq_occurrences,countOf_occurrences,preorder_append,List.map_append,
      List.count_append]

end Program
end Scribe
