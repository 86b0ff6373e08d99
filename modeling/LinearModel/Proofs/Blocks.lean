import Mathlib
import LinearModel.Proofs.Transposition

/-!
# Blocks on the diagonal

A block is cut out of a matrix by taking some rows and, of each of them, the cells at the same
places, counted from the first. Nothing is overwritten on the way, so a row of the block stores what
`cut` leaves of the row it came from, in the order that it had there
(`SparseMatrix.entries_line_block`). Cutting twice is cutting once at the sum of the two starts
(`cut_bind_cut`), which is why a block of a block is a block of the matrix.
-/

namespace LinearModel

variable {α : Type}

/-- What becomes of a cell of a row in the block from place `start` up to `stop`. -/
def cut (start stop : Nat) (e : Nat × α) : Option (Nat × α) :=
  if start ≤ e.1 ∧ e.1 < stop then some (e.1 - start, e.2) else none

theorem cut_eq_some_iff {start stop : Nat} {e : Nat × α} {j : Nat} {x : α} :
    cut start stop e = some (j, x) ↔ j < stop - start ∧ e = (start + j, x) := by
  obtain ⟨i, y⟩ := e
  simp only [cut, Option.ite_none_right_eq_some, Option.some.injEq, Prod.mk.injEq]
  constructor
  · rintro ⟨⟨hstart, hstop⟩, rfl, rfl⟩
    exact ⟨by omega, by omega, rfl⟩
  · rintro ⟨hj, rfl, rfl⟩
    exact ⟨⟨by omega, by omega⟩, by omega, rfl⟩

/-- A block of a block starts where both starts together say. -/
theorem cut_bind_cut {s e a b : Nat} (hb : b ≤ e - s) (x : Nat × α) :
    (cut s e x).bind (cut a b) = cut (s + a) (s + b) x := by
  apply Option.ext
  rintro ⟨j, y⟩
  rw [Option.bind_eq_some_iff, cut_eq_some_iff]
  constructor
  · rintro ⟨⟨k, z⟩, hcut, hcut'⟩
    obtain ⟨hk, rfl⟩ := cut_eq_some_iff.1 hcut
    obtain ⟨hj, heq⟩ := cut_eq_some_iff.1 hcut'
    cases heq
    exact ⟨by omega, by rw [Nat.add_assoc]⟩
  · rintro ⟨hj, rfl⟩
    exact ⟨(a + j, y), cut_eq_some_iff.2 ⟨by omega, by rw [Nat.add_assoc]⟩,
      cut_eq_some_iff.2 ⟨by omega, rfl⟩⟩

/-- Counted from the start of the axis again, the cells of a window are those that lie in it. -/
theorem map_filterMap_cut (start stop : Nat) (es : List (Nat × α)) :
    (es.filterMap (cut start stop)).map (fun e => (start + e.1, e.2)) =
      es.filter fun e => start ≤ e.1 ∧ e.1 < stop := by
  rw [List.map_filterMap, ← List.filterMap_eq_filter]
  apply List.filterMap_congr
  rintro ⟨i, x⟩ _
  simp only [cut, Option.guard, decide_eq_true_eq]
  split
  · next hwindow =>
    rw [Option.map_some, Nat.add_sub_cancel' hwindow.1]
  · rfl

namespace SparseMatrix

theorem blockEntries_eq {n : Nat} (start stop : Nat) (lines : List (Cells α n)) :
    blockEntries start stop lines =
      (⟨n, lines⟩ : SparseMatrix α).nonZeros.filterMap fun e =>
        (cut start stop (e.col, e.value)).map fun c => ⟨e.row, c.1, c.2⟩ := by
  rw [blockEntries, nonZeros, List.filterMap_flatMap]
  apply List.flatMap_congr
  rintro ⟨line, i⟩ _
  rw [List.filterMap_map]
  apply List.filterMap_congr
  intro e _
  simp only [cut, Function.comp_apply]
  split <;> rfl

section Entries

variable {n : Nat} (start stop : Nat) (lines : List (Cells α n))

theorem nodup_places_blockEntries : ((blockEntries start stop lines).map Entry.place).Nodup := by
  rw [blockEntries_eq, List.Nodup, List.pairwise_map, List.pairwise_filterMap]
  refine (pairwise_nonZeros _).imp fun {e f} hprecedes b hb c hc hplace => ?_
  obtain ⟨⟨j, x⟩, hj, rfl⟩ := Option.map_eq_some_iff.1 hb
  obtain ⟨⟨k, y⟩, hk, rfl⟩ := Option.map_eq_some_iff.1 hc
  obtain ⟨hrow, rfl⟩ := Prod.ext_iff.1 hplace
  obtain ⟨-, he⟩ := cut_eq_some_iff.1 hj
  obtain ⟨-, hf⟩ := cut_eq_some_iff.1 hk
  rcases hprecedes with hlt | ⟨-, hne⟩
  · exact Nat.ne_of_lt hlt hrow
  · exact hne ((congrArg Prod.fst he).trans (congrArg Prod.fst hf).symm)

theorem filter_blockEntries (i : Nat) :
    ((blockEntries start stop lines).filter fun e => e.row = i).map (fun e => (e.col, e.value)) =
      lines[i]?.elim [] fun line => line.entries.filterMap (cut start stop) := by
  have hfilter := filter_flatMap_zipIdx Entry.row
    (f := fun e : Cells α n × Nat => e.1.entries.filterMap fun c =>
      if start ≤ c.1 ∧ c.1 < stop then some (⟨e.2, c.1 - start, c.2⟩ : Entry α) else none)
    (fun e y hy => by
      obtain ⟨c, -, hc⟩ := List.mem_filterMap.1 hy
      obtain ⟨-, heq⟩ := Option.ite_none_right_eq_some.1 hc
      cases heq
      rfl) lines 0 i
  rw [Nat.zero_add] at hfilter
  rw [blockEntries, hfilter]
  cases lines[i]? with
  | none => rfl
  | some line =>
      rw [Option.elim_some, Option.elim_some, List.map_filterMap]
      apply List.filterMap_congr
      intro c _
      simp only [cut]
      split <;> rfl

end Entries

section Block

variable {m b : SparseMatrix α} {start stop : Nat}

theorem block_eq_ok_iff :
    m.block start stop = .ok b ↔ (start ≤ stop ∧ stop ≤ min m.rows m.cols) ∧
      (empty (stop - start) (stop - start)).insertAll
        (blockEntries start stop ((m.lines.take stop).drop start)) = b := by
  rw [block]
  by_cases hlimit : min m.rows m.cols < stop
  · rw [if_pos hlimit]
    exact iff_of_false nofun fun h => by omega
  by_cases horder : stop < start
  · rw [if_neg hlimit, if_pos horder]
    exact iff_of_false nofun fun h => by omega
  rw [if_neg hlimit, if_neg horder, Except.ok.injEq]
  exact (and_iff_right ⟨by omega, by omega⟩).symm

theorem exists_block_iff :
    (∃ b, m.block start stop = .ok b) ↔ start ≤ stop ∧ stop ≤ min m.rows m.cols := by
  simp [block_eq_ok_iff]

theorem rows_block (h : m.block start stop = .ok b) : b.rows = stop - start := by
  obtain ⟨-, rfl⟩ := block_eq_ok_iff.1 h
  rw [rows_insertAll, rows_empty]

theorem cols_block (h : m.block start stop = .ok b) : b.cols = stop - start := by
  obtain ⟨-, rfl⟩ := block_eq_ok_iff.1 h
  rw [cols_insertAll, cols_empty]

/-- A row of the block stores the cells of the window, in the order of the row that it is cut out
of. -/
theorem entries_line_block (h : m.block start stop = .ok b) {i : Nat} (hi : i < stop - start) :
    (b.line i).entries = (m.line (start + i)).entries.filterMap (cut start stop) := by
  obtain ⟨⟨hstart, hstop⟩, rfl⟩ := block_eq_ok_iff.1 h
  have hrow : start + i < m.lines.length := by
    have hrows : stop ≤ m.rows := hstop.trans (min_le_left _ _)
    have hlength : m.rows = m.lines.length := rfl
    omega
  have hline : ((m.lines.take stop).drop start)[i]? = some (m.line (start + i)) := by
    rw [List.getElem?_drop, List.getElem?_take_of_lt (by omega), List.getElem?_eq_getElem hrow,
      line, List.getD_eq_getElem _ _ hrow]
  have hinside : ∀ e ∈ blockEntries start stop ((m.lines.take stop).drop start),
      e.row < stop - start ∧ e.col < stop - start := by
    intro e he
    obtain ⟨hlt, hcol⟩ := inside_of_mem_blockEntries he
    rw [List.length_drop, List.length_take] at hlt
    exact ⟨by omega, hcol⟩
  rw [entries_line_insertAll_empty hinside (nodup_places_blockEntries ..), filter_blockEntries,
    hline, Option.elim_some]

/-- A place of the block holds what the matrix holds at the place it stands for. -/
theorem find?_line_block (h : m.block start stop = .ok b) {i j : Nat} (hi : i < stop - start)
    (hj : j < stop - start) : (b.line i).find? j = (m.line (start + i)).find? (start + j) := by
  apply Option.ext
  intro x
  rw [Cells.find?_eq_some_iff, Cells.find?_eq_some_iff, entries_line_block h hi,
    List.mem_filterMap]
  constructor
  · rintro ⟨e, he, hcut⟩
    obtain ⟨-, rfl⟩ := cut_eq_some_iff.1 hcut
    exact he
  · intro he
    exact ⟨_, he, cut_eq_some_iff.2 ⟨hj, rfl⟩⟩

theorem get_block [Scalar α] (h : m.block start stop = .ok b) {i j : Nat} (hi : i < stop - start)
    (hj : j < stop - start) : b.get i j = m.get (start + i) (start + j) := by
  have hstop : stop ≤ min m.rows m.cols := (block_eq_ok_iff.1 h).1.2
  have hrows := rows_block h
  have hcols := cols_block h
  rw [b.get_eq_ok (by omega) (by omega), m.get_eq_ok (by omega) (by omega), cell, cell, Cells.get,
    Cells.get, find?_line_block h hi hj]

/-- A block of a block is a block of the matrix. -/
theorem block_block (h : m.block start stop = .ok b) {i j : Nat} (hij : i ≤ j)
    (hj : j ≤ stop - start) : b.block i j = m.block (start + i) (start + j) := by
  have hrows := rows_block h
  have hcols := cols_block h
  obtain ⟨⟨hstart, hstop⟩, -⟩ := block_eq_ok_iff.1 h
  obtain ⟨inner, hinner⟩ : ∃ c, b.block i j = .ok c := exists_block_iff.2 ⟨hij, by omega⟩
  obtain ⟨direct, hdirect⟩ : ∃ c, m.block (start + i) (start + j) = .ok c :=
    exists_block_iff.2 ⟨by omega, by omega⟩
  have hshape : start + j - (start + i) = j - i := by omega
  rw [hinner, hdirect]
  congr 1
  refine ext_of_entries ((rows_block hinner).trans (by rw [rows_block hdirect, hshape]))
    ((cols_block hinner).trans (by rw [cols_block hdirect, hshape])) fun k hk => ?_
  rw [rows_block hinner] at hk
  rw [entries_line_block hinner hk, entries_line_block hdirect (hshape.symm ▸ hk),
    entries_line_block h (by omega), List.filterMap_filterMap, Nat.add_assoc]
  exact List.filterMap_congr fun x _ => cut_bind_cut hj x

/-- A block exists for a start and a stop in this order, the stop inside rows and columns; the stop
is looked at first. It is square, holds at every place what the matrix holds there, the value as it
is, and stores in each row those cells of the window, in their order. Blocks of a block exist
likewise and are blocks of the matrix, the storage included. -/
theorem block_cuts_and_composes [Scalar α] (m : SparseMatrix α) (start stop : Nat) :
    ((∃ b, m.block start stop = .ok b) ↔ start ≤ stop ∧ stop ≤ min m.rows m.cols) ∧
    (min m.rows m.cols < stop →
      m.block start stop = .error (.indexOutOfRange stop (min m.rows m.cols))) ∧
    (stop ≤ min m.rows m.cols → stop < start →
      m.block start stop = .error (.indexOutOfRange start stop)) ∧
    ∀ b, m.block start stop = .ok b →
      b.shape = ⟨stop - start, stop - start⟩ ∧
      (∀ i < stop - start, ∀ j < stop - start,
        ∃ x, b.get i j = .ok x ∧ m.get (start + i) (start + j) = .ok x) ∧
      (∀ i < stop - start, ∀ j < stop - start,
        (b.line i).find? j = (m.line (start + i)).find? (start + j)) ∧
      (∀ i < stop - start, (b.line i).entries.map (fun e => (start + e.1, e.2)) =
        (m.line (start + i)).entries.filter fun e => start ≤ e.1 ∧ e.1 < stop) ∧
      ∀ i j, ((∃ c, b.block i j = .ok c) ↔ i ≤ j ∧ j ≤ stop - start) ∧
        (i ≤ j → j ≤ stop - start → b.block i j = m.block (start + i) (start + j)) := by
  refine ⟨exists_block_iff, fun hlimit => if_pos hlimit, fun hlimit horder => ?_, fun b h => ?_⟩
  · rw [block, if_neg (Nat.not_lt.2 hlimit), if_pos horder]
  have hrows := rows_block h
  have hcols := cols_block h
  refine ⟨?_, fun i hi j hj => ?_, fun i hi j hj => find?_line_block h hi hj, fun i hi => ?_,
    fun i j => ⟨?_, fun hij hj => block_block h hij hj⟩⟩
  · rw [shape, hrows, hcols]
  · have hget : b.get i j = .ok (b.cell i j) := b.get_eq_ok (by omega) (by omega)
    exact ⟨_, hget, (get_block h hi hj).symm.trans hget⟩
  · rw [entries_line_block h hi, map_filterMap_cut]
  · rw [exists_block_iff, hrows, hcols, min_self]

end Block

end SparseMatrix

end LinearModel
