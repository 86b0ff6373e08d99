import Mathlib

/-!
# Sorting by place

Cells at distinct places have one ascending order. Any way of sorting them comes to it, so that
`List.mergeSort` stands for all of them (`eq_mergeSort_of_perm`).
-/

namespace LinearModel

variable {α : Type} (es : List (Nat × α))

theorem pairwise_le_mergeSort : (es.mergeSort fun e f => e.1 ≤ f.1).Pairwise (·.1 ≤ ·.1) := by
  have hsorted : (es.mergeSort fun e f => e.1 ≤ f.1).Pairwise
      fun e f => decide (e.1 ≤ f.1) = true := by
    refine List.pairwise_mergeSort ?_ ?_ _
    · intro e f g hef hfg
      exact decide_eq_true (Nat.le_trans (of_decide_eq_true hef) (of_decide_eq_true hfg))
    · intro e f
      simpa using Nat.le_total e.1 f.1
  exact hsorted.imp of_decide_eq_true

variable {es}

theorem pairwise_lt_mergeSort (hnodup : (es.map Prod.fst).Nodup) :
    (es.mergeSort fun e f => e.1 ≤ f.1).Pairwise (·.1 < ·.1) := by
  have hperm := List.mergeSort_perm es fun e f => e.1 ≤ f.1
  have hne : (es.mergeSort fun e f => e.1 ≤ f.1).Pairwise fun e f => e.1 ≠ f.1 :=
    List.pairwise_map.1 ((hperm.map Prod.fst).nodup_iff.2 hnodup)
  exact ((pairwise_le_mergeSort es).and hne).imp fun h => Nat.lt_of_le_of_ne h.1 h.2

/-- Whatever way of sorting by place is used, it can return nothing else. -/
theorem eq_mergeSort_of_perm (hnodup : (es.map Prod.fst).Nodup) {fs : List (Nat × α)}
    (hperm : fs.Perm es) (hsorted : fs.Pairwise (·.1 ≤ ·.1)) :
    fs = es.mergeSort fun e f => e.1 ≤ f.1 := by
  have hsort := List.mergeSort_perm es fun e f => e.1 ≤ f.1
  refine List.Perm.eq_of_pairwise ?_ hsorted (pairwise_le_mergeSort es) (hperm.trans hsort.symm)
  intro e f he hf hef hfe
  exact List.inj_on_of_nodup_map hnodup (hperm.mem_iff.1 he) (hsort.mem_iff.1 hf)
    (Nat.le_antisymm hef hfe)

end LinearModel
