import Mathlib
import LinearModel.Proofs.DenseEquality
import LinearModel.Proofs.WriteHistory

/-!
# Matrices made cell by cell

Transposing a matrix, reading a vector as a matrix and multiplying two vectors insert cells into an
empty matrix. While no place is met twice, nothing is overwritten: every row stores the cells of
that row, in the order in which they were inserted (`SparseMatrix.entries_line_insertAll_empty`).
The same holds when values are added instead of written (`Cells.entries_foldl_upsert`).
-/

namespace LinearModel

variable {α : Type}

/-- Of the members that come from the members of a list, each with the number of the one it comes
from, those with number `i` come from member `i`. -/
theorem filter_flatMap_zipIdx {β γ : Type} {f : β × Nat → List γ} (number : γ → Nat)
    (h : ∀ e, ∀ y ∈ f e, number y = e.2) (xs : List β) (k i : Nat) :
    (((xs.zipIdx k).flatMap f).filter fun y => number y = k + i) =
      xs[i]?.elim [] fun x => f (x, k + i) := by
  induction xs generalizing k i with
  | nil => rfl
  | cons x xs ih =>
      rw [List.zipIdx_cons, List.flatMap_cons, List.filter_append]
      cases i with
      | zero =>
          have hfirst : ((f (x, k)).filter fun y => number y = k + 0) = f (x, k) :=
            List.filter_eq_self.2 fun y hy => decide_eq_true (h _ y hy)
          have hrest : (((xs.zipIdx (k + 1)).flatMap f).filter fun y => number y = k + 0) = [] := by
            rw [List.filter_eq_nil_iff]
            intro y hy hnumber
            obtain ⟨⟨z, l⟩, hz, hy⟩ := List.mem_flatMap.1 hy
            have hl := (List.mem_zipIdx hz).1
            have hnumber' := h _ y hy
            have heq := of_decide_eq_true hnumber
            omega
          rw [hfirst, hrest, List.append_nil]
          rfl
      | succ i =>
          have hfirst : ((f (x, k)).filter fun y => number y = k + (i + 1)) = [] := by
            rw [List.filter_eq_nil_iff]
            intro y hy hnumber
            have hnumber' := h _ y hy
            have heq := of_decide_eq_true hnumber
            omega
          rw [hfirst, List.nil_append, ← Nat.add_assoc, Nat.add_right_comm, ih (k + 1) i]
          rfl

/-- The row and the column of a cell. -/
def Entry.place (e : Entry α) : Nat × Nat := (e.row, e.col)

namespace Cells

variable {n : Nat}

theorem entries_upsert_of_notMem (c : Cells α n) {i : Nat} (hi : i < n) (hfree : i ∉ c.indices)
    (fresh : α) (change : α → α) :
    (c.upsert i fresh change).entries = c.entries ++ [(i, fresh)] := by
  have hslot : c.storage.slots i = none := (c.sound.slots_eq_none_iff i).2 hfree
  rw [upsert, dif_pos hi]
  show (c.storage.write i fresh change).entries = _
  rw [Storage.write, hslot]
  exact List.zip_append c.sound.length_eq

/-- Values that go to free places, each to another one, come behind the others in their order. -/
theorem entries_foldl_upsert (change : Nat × α → α → α) (c : Cells α n) {es : List (Nat × α)}
    (hlt : ∀ e ∈ es, e.1 < n) (hnodup : ((c.entries ++ es).map Prod.fst).Nodup) :
    (es.foldl (fun c e => c.upsert e.1 e.2 (change e)) c).entries = c.entries ++ es := by
  induction es generalizing c with
  | nil => exact (List.append_nil _).symm
  | cons e es ih =>
      have hfree : e.1 ∉ c.indices := by
        rw [List.map_append, c.map_fst_entries] at hnodup
        exact fun hmem => (List.nodup_append.1 hnodup).2.2 _ hmem _ List.mem_cons_self rfl
      have hhead := c.entries_upsert_of_notMem (hlt e List.mem_cons_self) hfree e.2 (change e)
      rw [List.foldl_cons, ih, hhead, List.append_assoc, List.singleton_append]
      · exact fun f hf => hlt f (List.mem_cons_of_mem e hf)
      · rwa [hhead, List.append_assoc, List.singleton_append]

theorem entries_putAll (c : Cells α n) {es : List (Nat × α)} (hlt : ∀ e ∈ es, e.1 < n)
    (hnodup : ((c.entries ++ es).map Prod.fst).Nodup) :
    (c.putAll es).entries = c.entries ++ es :=
  c.entries_foldl_upsert (fun e _ => e.2) hlt hnodup

theorem entries_accumulateAll [Add α] (c : Cells α n) {es : List (Nat × α)}
    (hlt : ∀ e ∈ es, e.1 < n) (hnodup : ((c.entries ++ es).map Prod.fst).Nodup) :
    (c.accumulateAll es).entries = c.entries ++ es :=
  c.entries_foldl_upsert (fun e x => x + e.2) hlt hnodup

end Cells

namespace SparseMatrix

theorem line_empty (rows cols i : Nat) :
    (empty rows cols : SparseMatrix α).line i = Cells.empty := by
  rcases Nat.lt_or_ge i rows with hi | hi
  · rw [line, empty, List.getD_replicate _ hi]
  · exact line_of_le _ ((rows_empty rows cols).trans_le hi)

theorem line_insert (m : SparseMatrix α) {i : Nat} (hi : i < m.rows) (e : Entry α) :
    (m.insert e.row e.col e.value).line i =
      if e.row = i then (m.line i).put e.col e.value else m.line i := by
  have hline : m.lines[i]? = some (m.line i) := by
    have hlt : i < m.lines.length := hi
    rw [line, List.getD_eq_getElem _ _ hlt, List.getElem?_eq_getElem hlt]
  show (m.lines.modify e.row fun line => line.put e.col e.value).getD i Cells.empty = _
  rw [List.getD_eq_getElem?_getD, List.getElem?_modify, hline]
  split <;> rfl

/-- A row takes the cells that are inserted into it, one after the other, and no others. -/
theorem entries_line_insertAll (m : SparseMatrix α) {i : Nat} (hi : i < m.rows)
    (es : List (Entry α)) :
    ((m.insertAll es).line i).entries =
      ((m.line i).putAll
        ((es.filter fun e => e.row = i).map fun e => (e.col, e.value))).entries := by
  induction es generalizing m with
  | nil => rfl
  | cons e es ih =>
      have hrest := ih (m.insert e.row e.col e.value) ((rows_insert ..).symm ▸ hi)
      rw [line_insert m hi] at hrest
      refine hrest.trans ?_
      by_cases he : e.row = i
      · rw [if_pos he, List.filter_cons_of_pos (by simpa using he)]
        rfl
      · rw [if_neg he, List.filter_cons_of_neg (by simpa using he)]
        rfl

section Distinct

variable {rows cols : Nat} {es : List (Entry α)}

/-- When no place is met twice, a row stores the cells of that row in the order in which they were
inserted. -/
theorem entries_line_insertAll_empty (hinside : ∀ e ∈ es, e.row < rows ∧ e.col < cols)
    (hplaces : (es.map Entry.place).Nodup) (i : Nat) :
    (((empty rows cols).insertAll es).line i).entries =
      (es.filter fun e => e.row = i).map fun e => (e.col, e.value) := by
  rcases Nat.lt_or_ge i rows with hi | hi
  · have hlt : ∀ e ∈ (es.filter fun e => e.row = i).map fun e => (e.col, e.value),
        e.1 < cols := by
      intro e he
      obtain ⟨f, hf, rfl⟩ := List.mem_map.1 he
      exact (hinside f (List.mem_of_mem_filter hf)).2
    have hcols : (((es.filter fun e => e.row = i).map fun e => (e.col, e.value)).map
        Prod.fst).Nodup := by
      rw [List.map_map, List.Nodup, List.pairwise_map, List.pairwise_filter]
      refine (List.pairwise_map.1 hplaces).imp fun hne he hf heq => hne ?_
      exact Prod.ext ((of_decide_eq_true he).trans (of_decide_eq_true hf).symm) heq
    rw [entries_line_insertAll _ ((rows_empty rows cols).symm ▸ hi), line_empty]
    exact Cells.entries_putAll (Cells.empty : Cells α cols) hlt hcols
  · have hnone : (es.filter fun e => e.row = i) = [] := by
      rw [List.filter_eq_nil_iff]
      intro e he hrow
      have hlt := (hinside e he).1
      rw [of_decide_eq_true hrow] at hlt
      exact absurd hlt (Nat.not_lt.2 hi)
    rw [line_of_le _ (by simpa using hi), hnone]
    rfl

theorem find?_line_insertAll_empty (hinside : ∀ e ∈ es, e.row < rows ∧ e.col < cols)
    (hplaces : (es.map Entry.place).Nodup) (i j : Nat) (x : α) :
    (((empty rows cols).insertAll es).line i).find? j = some x ↔ ⟨i, j, x⟩ ∈ es := by
  rw [Cells.find?_eq_some_iff, entries_line_insertAll_empty hinside hplaces, List.mem_map]
  constructor
  · rintro ⟨⟨_, _, _⟩, he, heq⟩
    cases heq
    obtain ⟨hmem, hrow⟩ := List.mem_filter.1 he
    exact of_decide_eq_true hrow ▸ hmem
  · intro hmem
    exact ⟨_, List.mem_filter.2 ⟨hmem, decide_eq_true rfl⟩, rfl⟩

end Distinct

end SparseMatrix

end LinearModel
