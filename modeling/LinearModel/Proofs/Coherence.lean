import Mathlib
import LinearModel.Proofs.Product
import LinearModel.Proofs.Representation
import LinearModel.SparseMatrix.Parts

/-!
# Coherent parts

An operation on the parts of a matrix writes where it is told to, with no check of its own. Parts
are coherent when there are as many rows as declared, each of the declared size, read as a row and
soundly stored; what a read, a write and a listing of the cells do follows from that alone. The
parts of a `SparseMatrix` are coherent by its type, and every operation on the parts of matrices has
a result, which is the parts of what the same operation on the matrices gives. By induction on how a
matrix is obtained (`Making.parts?_eq`), nothing is ever written past the end of a row.
-/

namespace LinearModel

variable {α : Type}

theorem isOk_requireIndex {index size : Nat} :
    (requireIndex index size).isOk = true ↔ index < size := by
  unfold requireIndex
  split <;> simp_all [Except.isOk, Except.toBool]

namespace VectorParts

/-- The row has the given size, is read as a row, and its storage lists and finds the same
places. -/
structure Fits (n : Nat) (r : VectorParts α) : Prop where
  size_eq : r.size = n
  orientation_eq : r.orientation = .row
  sound : r.storage.Sound n

namespace Fits

variable {n : Nat} {r : VectorParts α}

theorem nonZeros_eq (h : r.Fits n) :
    r.nonZeros = r.storage.entries.map fun e => ⟨0, e.1, e.2⟩ := by
  apply List.map_congr_left
  intro e _
  rw [entryOf, h.orientation_eq]

theorem sound_parts (h : r.Fits n) : r.Sound := by
  rw [Sound, h.size_eq]
  exact h.sound

theorem store?_eq (h : r.Fits n) {j : Nat} (hj : j < n) (fresh : α) (change : α → α) :
    r.store? j fresh change = some { r with storage := r.storage.write j fresh change } :=
  h.sound_parts.store?_eq (h.size_eq ▸ hj) fresh change

theorem get?_eq [Scalar α] (h : r.Fits n) (j : Nat) :
    r.get? j = some ((requireIndex j n).map fun _ => (r.storage.find? j).getD 0) :=
  h.size_eq ▸ h.sound_parts.get?_eq j

end Fits

end VectorParts

namespace MatrixParts

/-- There are as many rows as declared, and each of them fits the declared number of columns. -/
structure Coherent (p : MatrixParts α) : Prop where
  length_data : p.data.length = p.rows
  fits : ∀ r ∈ p.data, r.Fits p.cols

def Occupies (p : MatrixParts α) (i j : Nat) : Prop :=
  ∃ r, p.data[i]? = some r ∧ (r.storage.slots j).isSome

theorem occupied_eq (p : MatrixParts α) :
    p.occupied = (p.data.map fun r => r.storage.index.length).sum := by
  rw [occupied, List.sum_eq_foldl, List.foldl_map]

/-- A cell stands in an earlier row than another, or in another column of the same row. -/
def Precedes (e f : Entry α) : Prop := e.row < f.row ∨ e.row = f.row ∧ e.col ≠ f.col

namespace Coherent

variable {p : MatrixParts α}

theorem fits_of_getElem? (h : p.Coherent) {i : Nat} {r : VectorParts α} (hr : p.data[i]? = some r) :
    r.Fits p.cols :=
  h.fits r (List.mem_of_getElem? hr)

theorem exists_row (h : p.Coherent) {i : Nat} (hi : i < p.rows) :
    ∃ r, p.data[i]? = some r ∧ r.Fits p.cols := by
  have hlt : i < p.data.length := h.length_data ▸ hi
  have hr : p.data[i]? = some p.data[i] := List.getElem?_eq_getElem hlt
  exact ⟨p.data[i], hr, h.fits_of_getElem? hr⟩

theorem mem_nonZeros_iff (h : p.Coherent) {e : Entry α} :
    e ∈ p.nonZeros ↔ ∃ r, p.data[e.row]? = some r ∧ (e.col, e.value) ∈ r.storage.entries := by
  simp only [nonZeros, List.mem_flatMap, Prod.exists, List.mem_zipIdx_iff_getElem?]
  constructor
  · rintro ⟨r, i, hr, he⟩
    rw [(h.fits_of_getElem? hr).nonZeros_eq, List.map_map] at he
    obtain ⟨cell, hcell, rfl⟩ := List.mem_map.1 he
    exact ⟨r, hr, hcell⟩
  · rintro ⟨r, hr, he⟩
    refine ⟨r, e.row, hr, ?_⟩
    rw [(h.fits_of_getElem? hr).nonZeros_eq, List.map_map]
    exact List.mem_map.2 ⟨(e.col, e.value), he, rfl⟩

/-- Every listed cell lies inside the declared shape. -/
theorem inside_of_mem_nonZeros (h : p.Coherent) {e : Entry α} (he : e ∈ p.nonZeros) :
    e.row < p.rows ∧ e.col < p.cols := by
  obtain ⟨r, hr, hcell⟩ := h.mem_nonZeros_iff.1 he
  have hsound := (h.fits_of_getElem? hr).sound
  have hindex : e.col ∈ r.storage.index :=
    Storage.map_fst_entries hsound ▸ List.mem_map_of_mem hcell
  exact ⟨h.length_data ▸ (List.getElem?_eq_some_iff.1 hr).1, hsound.lt_of_mem _ hindex⟩

theorem pairwise_nonZeros (h : p.Coherent) : p.nonZeros.Pairwise Precedes := by
  have hrows : p.data.zipIdx.Pairwise fun a b => a.2 < b.2 := by
    rw [← List.pairwise_map (R := (· < ·)), List.zipIdx_map_snd]
    exact List.pairwise_lt_range'
  refine List.pairwise_flatMap.2 ⟨?_, hrows.imp ?_⟩
  · rintro ⟨r, i⟩ hr
    have hfits : r.Fits p.cols := h.fits_of_getElem? (List.mem_zipIdx_iff_getElem?.1 hr)
    show ((r.nonZeros.map fun e => { e with row := i }).Pairwise Precedes)
    rw [hfits.nonZeros_eq, List.map_map, List.pairwise_map]
    have hcols := Storage.nodup_map_fst_entries hfits.sound
    rw [List.Nodup, List.pairwise_map] at hcols
    exact hcols.imp fun hne => .inr ⟨rfl, hne⟩
  · intro a b hlt e he f hf
    obtain ⟨_, -, rfl⟩ := List.mem_map.1 he
    obtain ⟨_, -, rfl⟩ := List.mem_map.1 hf
    exact .inl hlt

/-- The occupied cells are the listed ones. -/
theorem occupies_iff (h : p.Coherent) (i j : Nat) :
    p.Occupies i j ↔ ∃ e ∈ p.nonZeros, e.row = i ∧ e.col = j := by
  have hslot {r : VectorParts α} (hr : p.data[i]? = some r) :
      (r.storage.slots j).isSome = true ↔ j ∈ r.storage.entries.map Prod.fst := by
    have hsound := (h.fits_of_getElem? hr).sound
    rw [Option.isSome_iff_ne_none, ne_eq, hsound.slots_eq_none_iff, not_not,
      Storage.map_fst_entries hsound]
  constructor
  · rintro ⟨r, hr, hsome⟩
    obtain ⟨cell, hcell, rfl⟩ := List.mem_map.1 ((hslot hr).1 hsome)
    exact ⟨⟨i, cell.1, cell.2⟩, h.mem_nonZeros_iff.2 ⟨r, hr, hcell⟩, rfl, rfl⟩
  · rintro ⟨e, he, rfl, rfl⟩
    obtain ⟨r, hr, hcell⟩ := h.mem_nonZeros_iff.1 he
    exact ⟨r, hr, (hslot hr).2 (List.mem_map_of_mem hcell)⟩

theorem occupied_eq_length (h : p.Coherent) : p.occupied = p.nonZeros.length := by
  have hlength (r : VectorParts α) (hr : r ∈ p.data) :
      r.storage.index.length = r.nonZeros.length := by
    rw [VectorParts.nonZeros, List.length_map, ← Storage.map_fst_entries (h.fits r hr).sound,
      List.length_map]
  calc p.occupied
      = (p.data.map fun r => r.nonZeros.length).sum := by
        rw [occupied_eq, List.map_congr_left hlength]
    _ = ((p.data.zipIdx.map Prod.fst).map fun r => r.nonZeros.length).sum := by
        rw [List.zipIdx_map_fst]
    _ = p.nonZeros.length := by
        rw [nonZeros, List.length_flatMap, List.map_map]
        simp only [List.length_map, Function.comp_def]

theorem occupied_le (h : p.Coherent) : p.occupied ≤ p.rows * p.cols := by
  have hrows : ∀ n ∈ p.data.map fun r => r.storage.index.length, n ≤ p.cols := by
    intro n hn
    obtain ⟨r, hr, rfl⟩ := List.mem_map.1 hn
    exact (h.fits r hr).sound.length_index_le
  have hsum := List.sum_le_card_nsmul _ _ hrows
  rwa [List.length_map, h.length_data, smul_eq_mul, ← occupied_eq] at hsum

section Access

variable [Scalar α]

/-- A read has an answer. It is a value exactly inside the declared shape. -/
theorem exists_get? (h : p.Coherent) (i j : Nat) :
    ∃ answer, p.get? i j = some answer ∧ (answer.isOk = true ↔ i < p.rows ∧ j < p.cols) := by
  by_cases hi : i < p.rows
  · obtain ⟨r, hr, hfits⟩ := h.exists_row hi
    refine ⟨(requireIndex j p.cols).map fun _ => (r.storage.find? j).getD 0, ?_, ?_⟩
    · rw [get?, requireIndex_eq_ok_iff.2 hi, hr]
      exact hfits.get?_eq j
    · rw [and_iff_right hi, ← isOk_requireIndex]
      cases requireIndex j p.cols <;> rfl
  · refine ⟨.error (.indexOutOfRange i p.rows), ?_, ?_⟩
    · rw [get?, requireIndex, if_neg hi]
    · exact iff_of_false Bool.false_ne_true fun hinside => hi hinside.1

/-- A listed cell is read as the value it is listed with. -/
theorem get?_of_mem_nonZeros (h : p.Coherent) {e : Entry α} (he : e ∈ p.nonZeros) :
    p.get? e.row e.col = some (.ok e.value) := by
  obtain ⟨hi, hj⟩ := h.inside_of_mem_nonZeros he
  obtain ⟨r, hr, hcell⟩ := h.mem_nonZeros_iff.1 he
  have hfits := h.fits_of_getElem? hr
  have hfind := (Storage.find?_eq_some_iff hfits.sound e.col e.value).2 hcell
  rw [get?, requireIndex_eq_ok_iff.2 hi, hr]
  show r.get? e.col = _
  rw [hfits.get?_eq, requireIndex_eq_ok_iff.2 hj, hfind]
  rfl

end Access

theorem exists_insert? (h : p.Coherent) {i j : Nat} (hi : i < p.rows) (hj : j < p.cols) (x : α) :
    ∃ q, p.insert? i j x = some q := by
  obtain ⟨r, hr, hfits⟩ := h.exists_row hi
  rw [insert?, hr]
  show ∃ q, (r.store? j x fun _ => x).bind _ = some q
  rw [hfits.store?_eq hj]
  exact ⟨_, rfl⟩

/-- A write has an answer. It is made exactly inside the declared shape, and leaves everything as it
was where it is not. -/
theorem exists_set? (h : p.Coherent) (i j : Nat) (x : α) :
    ∃ answer q, p.set? i j x = some (answer, q) ∧
      (answer.isOk = true ↔ i < p.rows ∧ j < p.cols) ∧ (answer.isOk = false → q = p) := by
  by_cases hi : i < p.rows
  · by_cases hj : j < p.cols
    · obtain ⟨q, hinsert⟩ := h.exists_insert? hi hj x
      refine ⟨.ok (), q, ?_, iff_of_true rfl ⟨hi, hj⟩, nofun⟩
      rw [set?, requireIndex_eq_ok_iff.2 hi, requireIndex_eq_ok_iff.2 hj, hinsert]
      rfl
    · refine ⟨.error (.indexOutOfRange j p.cols), p, ?_, ?_, fun _ => rfl⟩
      · rw [set?, requireIndex_eq_ok_iff.2 hi, requireIndex, if_neg hj]
      · exact iff_of_false Bool.false_ne_true fun hinside => hj hinside.2
  · refine ⟨.error (.indexOutOfRange i p.rows), p, ?_, ?_, fun _ => rfl⟩
    · rw [set?, requireIndex, if_neg hi]
    · exact iff_of_false Bool.false_ne_true fun hinside => hi hinside.1

end Coherent

end MatrixParts

namespace Cells

variable {n : Nat}

theorem fits_rowParts (c : Cells α n) : c.rowParts.Fits n := ⟨rfl, rfl, c.sound⟩

theorem store?_rowParts (c : Cells α n) {j : Nat} (hj : j < n) (fresh : α) (change : α → α) :
    c.rowParts.store? j fresh change = some (c.upsert j fresh change).rowParts :=
  (⟨n, .row, c⟩ : SparseVector α).store?_parts hj fresh change

theorem nonZeros_rowParts (c : Cells α n) :
    c.rowParts.nonZeros = c.entries.map fun e => ⟨0, e.1, e.2⟩ :=
  c.fits_rowParts.nonZeros_eq

theorem add?_rowParts [Scalar α] (c d : Cells α n) :
    c.rowParts.add? d.rowParts = some (.ok (c.addAll d).rowParts) := by
  have hadd := (⟨n, .row, c⟩ : SparseVector α).add?_parts ⟨n, .row, d⟩
  rw [SparseVector.add, if_pos rfl] at hadd
  exact hadd

end Cells

namespace SparseMatrix

theorem coherent_parts (m : SparseMatrix α) : m.parts.Coherent where
  length_data := List.length_map ..
  fits := by
    intro r hr
    obtain ⟨line, -, rfl⟩ := List.mem_map.1 hr
    exact line.fits_rowParts

theorem rows_parts (m : SparseMatrix α) : m.parts.rows = m.rows := rfl

theorem cols_parts (m : SparseMatrix α) : m.parts.cols = m.cols := rfl

theorem parts_of_length {rows cols : Nat} {lines : List (Cells α cols)}
    (h : lines.length = rows) :
    (⟨cols, lines⟩ : SparseMatrix α).parts = ⟨rows, cols, lines.map Cells.rowParts⟩ := by
  subst h
  rfl

theorem parts_empty (rows cols : Nat) :
    (empty rows cols : SparseMatrix α).parts = MatrixParts.empty rows cols := by
  rw [empty, parts_of_length List.length_replicate, List.map_replicate]
  rfl

theorem getElem?_data_parts (m : SparseMatrix α) {i : Nat} (hi : i < m.rows) :
    m.parts.data[i]? = some (m.line i).rowParts := by
  have hlt : i < m.lines.length := hi
  show (m.lines.map Cells.rowParts)[i]? = some (m.lines.getD i Cells.empty).rowParts
  rw [List.getElem?_map, List.getD_eq_getElem?_getD, List.getElem?_eq_getElem hlt]
  rfl

theorem insert?_parts (m : SparseMatrix α) {i j : Nat} (hi : i < m.rows) (hj : j < m.cols) (x : α) :
    m.parts.insert? i j x = some (m.insert i j x).parts := by
  have hlt : i < m.lines.length := hi
  have hline : m.lines[i]? = some m.lines[i] := List.getElem?_eq_getElem hlt
  have hrow : m.parts.data[i]? = some m.lines[i].rowParts := by
    show (m.lines.map Cells.rowParts)[i]? = _
    rw [List.getElem?_map, hline, Option.map_some]
  have hlines : (m.lines.modify i fun line => line.put j x) =
      m.lines.set i (m.lines[i].put j x) := by
    rw [List.modify_eq_set_getElem?, hline]
    rfl
  have hparts : (m.insert i j x).parts =
      { m.parts with data := m.parts.data.set i (m.lines[i].put j x).rowParts } := by
    rw [insert, parts_of_length (m.lines.length_modify ..), hlines, List.map_set]
    rfl
  rw [hparts, MatrixParts.insert?, hrow]
  show (m.lines[i].rowParts.store? j x fun _ => x).bind _ = _
  rw [Cells.store?_rowParts _ hj]
  rfl

/-- A write that is refused leaves the parts as they are. -/
theorem set?_parts (m : SparseMatrix α) (i j : Nat) (x : α) :
    m.parts.set? i j x =
      some ((m.set i j x).map fun _ => (), ((m.set i j x).toOption.getD m).parts) := by
  rw [MatrixParts.set?, rows_parts, cols_parts, set]
  cases hi : requireIndex i m.rows with
  | error cause => rfl
  | ok =>
      cases hj : requireIndex j m.cols with
      | error cause => rfl
      | ok =>
          rw [m.insert?_parts (requireIndex_eq_ok_iff.1 hi) (requireIndex_eq_ok_iff.1 hj)]
          rfl

theorem isOk_set_iff (m : SparseMatrix α) (i j : Nat) (x : α) :
    (m.set i j x).isOk = true ↔ i < m.rows ∧ j < m.cols := by
  obtain ⟨answer, q, hset, hinside, -⟩ := m.coherent_parts.exists_set? i j x
  rw [m.set?_parts] at hset
  cases hset
  rw [← m.rows_parts, ← m.cols_parts, ← hinside]
  cases m.set i j x <;> rfl

/-- Cells inside the shape are written one after the other. -/
theorem insertAll?_parts (m : SparseMatrix α) {es : List (Entry α)}
    (hes : ∀ e ∈ es, e.row < m.rows ∧ e.col < m.cols) :
    m.parts.insertAll? es = some (m.insertAll es).parts := by
  refine foldlM_eq_some_foldl (P := fun k => k.rows = m.rows ∧ k.cols = m.cols) ?_ ⟨rfl, rfl⟩
  rintro k ⟨hrows, hcols⟩ e he
  obtain ⟨hi, hj⟩ := hes e he
  exact ⟨k.insert?_parts (hrows ▸ hi) (hcols ▸ hj) e.value, (rows_insert ..).trans hrows, hcols⟩

theorem insertAll?_empty {rows cols : Nat} {es : List (Entry α)}
    (hes : ∀ e ∈ es, e.row < rows ∧ e.col < cols) :
    (MatrixParts.empty rows cols).insertAll? es = some ((empty rows cols).insertAll es).parts := by
  rw [← parts_empty]
  exact insertAll?_parts _ (by simpa using hes)

theorem nonZeros_parts (m : SparseMatrix α) : m.parts.nonZeros = m.nonZeros := by
  show (m.lines.map Cells.rowParts).zipIdx.flatMap _ = _
  rw [List.zipIdx_map, List.flatMap_map, nonZeros]
  apply List.flatMap_congr
  rintro ⟨line, i⟩ _
  show (line.rowParts.nonZeros.map fun e => { e with row := i }) = _
  rw [line.nonZeros_rowParts, List.map_map]
  rfl

theorem occupied_parts (m : SparseMatrix α) : m.parts.occupied = m.occupied := by
  show (m.lines.map Cells.rowParts).foldl _ 0 = _
  rw [List.foldl_map]
  rfl

theorem inside_of_mem_nonZeros (m : SparseMatrix α) {e : Entry α} (he : e ∈ m.nonZeros) :
    e.row < m.rows ∧ e.col < m.cols :=
  m.coherent_parts.inside_of_mem_nonZeros (m.nonZeros_parts ▸ he)

theorem transpose?_parts (m : SparseMatrix α) : m.parts.transpose? = some m.transpose.parts := by
  have hes : ∀ e ∈ m.nonZeros.map Entry.transposed, e.row < m.cols ∧ e.col < m.rows := by
    intro e he
    obtain ⟨f, hf, rfl⟩ := List.mem_map.1 he
    exact (m.inside_of_mem_nonZeros hf).symm
  rw [MatrixParts.transpose?, nonZeros_parts]
  exact insertAll?_empty hes

section Block

variable {n : Nat} {start stop : Nat} {lines : List (Cells α n)}

theorem blockEntries_map_rowParts (start stop : Nat) (lines : List (Cells α n)) :
    MatrixParts.blockEntries start stop (lines.map Cells.rowParts) =
      blockEntries start stop lines := by
  rw [MatrixParts.blockEntries, List.zipIdx_map, List.flatMap_map, blockEntries]
  apply List.flatMap_congr
  rintro ⟨line, i⟩ _
  show line.rowParts.nonZeros.filterMap _ = _
  rw [line.nonZeros_rowParts, List.filterMap_map]
  rfl

theorem inside_of_mem_blockEntries {e : Entry α} (he : e ∈ blockEntries start stop lines) :
    e.row < lines.length ∧ e.col < stop - start := by
  obtain ⟨⟨line, i⟩, hline, hcell⟩ := List.mem_flatMap.1 he
  obtain ⟨cell, -, hsome⟩ := List.mem_filterMap.1 hcell
  obtain ⟨⟨hstart, hstop⟩, hentry⟩ := Option.ite_none_right_eq_some.1 hsome
  cases hentry
  have hi : lines[i]? = some line := List.mem_zipIdx_iff_getElem?.1 hline
  exact ⟨(List.getElem?_eq_some_iff.1 hi).1, Nat.sub_lt_sub_right hstart hstop⟩

theorem block?_parts (m : SparseMatrix α) (start stop : Nat) :
    m.parts.block? start stop = some ((m.block start stop).map parts) := by
  unfold MatrixParts.block? block
  show (if min m.rows m.cols < stop then _ else _) = _
  by_cases hlimit : min m.rows m.cols < stop
  · rw [if_pos hlimit, if_pos hlimit]
    rfl
  by_cases horder : stop < start
  · rw [if_neg hlimit, if_neg hlimit, if_pos horder, if_pos horder]
    rfl
  have hrows : stop ≤ m.rows := by omega
  have hlength : stop ≤ m.parts.data.length := m.coherent_parts.length_data ▸ hrows
  have hlines : (m.parts.data.take stop).drop start =
      ((m.lines.take stop).drop start).map Cells.rowParts := by
    rw [List.map_drop, List.map_take]
    rfl
  have hinside : ∀ e ∈ blockEntries start stop ((m.lines.take stop).drop start),
      e.row < stop - start ∧ e.col < stop - start := by
    intro e he
    have hcount : ((m.lines.take stop).drop start).length = stop - start := by
      rw [List.length_drop, List.length_take_of_le hrows]
    exact hcount ▸ inside_of_mem_blockEntries he
  rw [if_neg hlimit, if_neg hlimit, if_neg horder, if_neg horder, if_pos hlength, hlines,
    blockEntries_map_rowParts, insertAll?_empty hinside]
  rfl

end Block

variable [Scalar α]

theorem get?_parts (m : SparseMatrix α) (i j : Nat) :
    m.parts.get? i j = some (m.get i j) := by
  rw [MatrixParts.get?, rows_parts, get]
  cases hi : requireIndex i m.rows with
  | error cause => rfl
  | ok =>
      rw [m.getElem?_data_parts (requireIndex_eq_ok_iff.1 hi)]
      show (m.line i).rowParts.get? j = some ((m.rowVector i).get j)
      rw [(m.line i).fits_rowParts.get?_eq, SparseVector.get]
      show _ = some (requireIndex j m.cols >>= _)
      cases requireIndex j m.cols <;> rfl

theorem isOk_get_iff (m : SparseMatrix α) (i j : Nat) :
    (m.get i j).isOk = true ↔ i < m.rows ∧ j < m.cols := by
  obtain ⟨answer, hget, hinside⟩ := m.coherent_parts.exists_get? i j
  rw [m.get?_parts] at hget
  cases hget
  exact hinside

theorem identity?_parts (n : Nat) :
    MatrixParts.identity? n = some (identity n : SparseMatrix α).parts := by
  apply insertAll?_empty
  intro e he
  obtain ⟨i, hi, rfl⟩ := List.mem_map.1 he
  exact ⟨List.mem_range.1 hi, List.mem_range.1 hi⟩

section Dense

theorem of_mem_denseRowEntries {i : Nat} {row : List α} {e : Entry α}
    (he : e ∈ MatrixParts.denseRowEntries i row) : e.row = i ∧ e.col < row.length := by
  obtain ⟨⟨value, j⟩, hvalue, hsome⟩ := List.mem_filterMap.1 he
  obtain ⟨-, hentry⟩ := Option.ite_none_left_eq_some.1 hsome
  cases hentry
  exact ⟨rfl, (List.getElem?_eq_some_iff.1 (List.mem_zipIdx_iff_getElem?.1 hvalue)).1⟩

/-- Rows are written until one has another length. -/
theorem fill?_parts {cols : Nat} (rows : List (List α)) (i : Nat) (m : SparseMatrix α)
    (hcols : m.cols = cols) (hrows : i + rows.length ≤ m.rows) :
    MatrixParts.fill? cols i rows m.parts =
      some (match firstOther cols (rows.map List.length) with
        | some length => .error (.dimensionMismatch .denseRows ⟨1, cols⟩ ⟨1, length⟩)
        | none => .ok (m.insertAll ((rows.zipIdx i).flatMap fun (row, i) =>
            MatrixParts.denseRowEntries i row)).parts) := by
  induction rows generalizing i m with
  | nil => rfl
  | cons row rest ih =>
      rw [List.length_cons] at hrows
      by_cases hlength : row.length = cols
      · have hinside : ∀ e ∈ MatrixParts.denseRowEntries i row,
            e.row < m.rows ∧ e.col < m.cols := by
          intro e he
          obtain ⟨rfl, hcol⟩ := of_mem_denseRowEntries he
          exact ⟨by omega, hcols ▸ hlength ▸ hcol⟩
        have hfirst : firstOther cols ((row :: rest).map List.length) =
            firstOther cols (rest.map List.length) :=
          List.find?_cons_of_neg (by simpa using hlength)
        have hrest := ih (i + 1) (m.insertAll (MatrixParts.denseRowEntries i row))
          ((cols_insertAll ..).trans hcols) (by rw [rows_insertAll]; omega)
        rw [MatrixParts.fill?, if_pos hlength, m.insertAll?_parts hinside, hfirst,
          List.zipIdx_cons, List.flatMap_cons]
        show MatrixParts.fill? cols (i + 1) rest _ = _
        rw [hrest, insertAll, insertAll, insertAll, List.foldl_append]
      · have hfirst : firstOther cols ((row :: rest).map List.length) = some row.length :=
          List.find?_cons_of_pos (by simpa using hlength)
        rw [MatrixParts.fill?, if_neg hlength, hfirst]

theorem ofDense?_parts (rows : List (List α)) :
    MatrixParts.ofDense? rows = some ((ofDense rows).map parts) := by
  have hfill (cols : Nat) := fill?_parts rows 0 (empty rows.length cols)
    (cols_empty rows.length cols) (by simp)
  show MatrixParts.fill? _ 0 rows (MatrixParts.empty rows.length _) = _
  rw [← parts_empty, hfill, ofDense]
  cases firstOther ((rows.head?.map List.length).getD 0) (rows.map List.length) <;> rfl

end Dense

section Product

/-- A row that is looked up is there, and what it adds to falls inside the row it is added to. -/
theorem accumulateRow?_parts (k : SparseMatrix α) {n : Nat} (line : Cells α n)
    (hn : n = k.rows) :
    k.parts.accumulateRow? line.rowParts (Cells.empty : Cells α k.cols).rowParts =
      some (combine line k).rowParts := by
  refine foldlM_eq_some_foldl (P := fun _ => True) (fun target _ e he => ⟨?_, trivial⟩) trivial
  rw [k.getElem?_data_parts (hn ▸ line.lt_of_mem_entries he)]
  refine foldlM_eq_some_foldl (P := fun _ => True) (fun t _ f hf => ⟨?_, trivial⟩) trivial
  exact t.store?_rowParts ((k.line e.1).lt_of_mem_entries hf) (e.2 * f.2) (· + e.2 * f.2)

theorem accumulateRows?_parts (k : SparseMatrix α) {n : Nat} (lines : List (Cells α n))
    (hn : n = k.rows) :
    k.parts.accumulateRows? (lines.map Cells.rowParts)
        (List.replicate lines.length (Cells.empty : Cells α k.cols).rowParts) =
      some ((lines.map fun line => combine line k).map Cells.rowParts) := by
  induction lines with
  | nil => rfl
  | cons line lines ih =>
      rw [List.length_cons, List.replicate_succ, List.map_cons, MatrixParts.accumulateRows?,
        k.accumulateRow?_parts line hn, ih]
      rfl

theorem mul?_parts (m k : SparseMatrix α) :
    m.parts.mul? k.parts = some ((m.mul k).map parts) := by
  show (if m.cols = k.rows then _ else _) = _
  by_cases h : m.cols = k.rows
  · have hparts : (m.product k).parts =
        ⟨m.rows, k.cols, (m.lines.map fun line => combine line k).map Cells.rowParts⟩ :=
      parts_of_length (List.length_map ..)
    rw [if_pos h, mul_eq_ok h, Except.map, hparts]
    show Option.map _ (k.parts.accumulateRows? (m.lines.map Cells.rowParts)
      (List.replicate m.lines.length (Cells.empty : Cells α k.cols).rowParts)) = _
    rw [k.accumulateRows?_parts m.lines h]
    rfl
  · rw [if_neg h, mul_eq_error h]
    rfl

end Product

section Sum

theorem addRows?_parts {n : Nat} (lines others : List (Cells α n)) :
    MatrixParts.addRows? (lines.map Cells.rowParts) (others.map Cells.rowParts) =
      some (.ok ((List.zipWith (fun a b => a.addAll b) lines others).map Cells.rowParts)) := by
  induction lines generalizing others with
  | nil => rfl
  | cons line lines ih =>
      cases others with
      | nil => rfl
      | cons other others =>
          rw [List.map_cons, List.map_cons, MatrixParts.addRows?, line.add?_rowParts other, ih]
          rfl

theorem add?_parts (m k : SparseMatrix α) :
    m.parts.add? k.parts = some ((m.add k).map parts) := by
  show (if m.shape = k.shape then _ else _) = _
  rw [add]
  by_cases h : m.shape = k.shape
  · rw [if_pos h, if_pos h]
    obtain ⟨cols, lines⟩ := m
    obtain ⟨cols', others⟩ := k
    obtain ⟨hlength, hcols⟩ := Shape.mk.inj h
    change cols = cols' at hcols
    change lines.length = others.length at hlength
    subst hcols
    have hrows : (List.zipWith (fun a b => a.addAll b) lines others).length = lines.length := by
      rw [List.length_zipWith, ← hlength, Nat.min_self]
    show proceed (MatrixParts.addRows? (lines.map Cells.rowParts) (others.map Cells.rowParts)) _ = _
    rw [addRows?_parts, Except.map, parts_of_length hrows]
    rfl
  · rw [if_neg h, if_neg h]
    rfl

theorem scale_parts (m : SparseMatrix α) (a : α) : m.parts.scale a = (m.scale a).parts := by
  rw [scale, parts_of_length (List.length_map ..), List.map_map]
  show MatrixParts.mk m.rows m.cols ((m.lines.map Cells.rowParts).map fun row => row.scale a) = _
  rw [List.map_map]
  rfl

end Sum

end SparseMatrix

namespace SparseVector

theorem inside_of_mem_nonZeros (v : SparseVector α) {e : Entry α} (he : e ∈ v.nonZeros) :
    e.row < v.shape.rows ∧ e.col < v.shape.cols := by
  obtain ⟨cell, hcell, rfl⟩ := List.mem_map.1 he
  have hplace : cell.1 < v.size := v.cells.lt_of_mem_entries hcell
  rw [entryOf, shape]
  cases v.orientation with
  | row => exact ⟨Nat.zero_lt_one, hplace⟩
  | column => exact ⟨hplace, Nat.zero_lt_one⟩

theorem ofVector?_eq (v : SparseVector α) : MatrixParts.ofVector? v = some v.toMatrix.parts :=
  SparseMatrix.insertAll?_empty fun _ => v.inside_of_mem_nonZeros

variable [Scalar α]

theorem outer?_eq (v w : SparseVector α) : MatrixParts.outer? v w = some (v.outer w).parts := by
  apply SparseMatrix.insertAll?_empty
  intro e he
  obtain ⟨cell, hcell, he⟩ := List.mem_flatMap.1 he
  obtain ⟨other, hother, rfl⟩ := List.mem_map.1 he
  exact ⟨v.cells.lt_of_mem_entries hcell, w.cells.lt_of_mem_entries hother⟩

theorem ofVectors?_eq (v w : SparseVector α) :
    MatrixParts.ofVectors? v w = some ((v.mul w).map SparseMatrix.parts) := by
  rw [MatrixParts.ofVectors?, mul]
  cases v.orientation with
  | row =>
      cases w.orientation with
      | row => rfl
      | column =>
          show (if v.size = w.size then _ else _) =
            some (Except.map _ (if v.size = w.size then _ else _))
          by_cases hsize : v.size = w.size
          · rw [if_pos hsize, if_pos hsize]
            cases v.dot w with
            | error cause => rfl
            | ok x =>
                have hinsert := (SparseMatrix.empty 1 1).insert?_parts Nat.zero_lt_one
                  Nat.zero_lt_one x
                rw [SparseMatrix.parts_empty] at hinsert
                exact congrArg (Option.map Except.ok) hinsert
          · rw [if_neg hsize, if_neg hsize]
            rfl
  | column =>
      cases w.orientation with
      | row => exact congrArg (Option.map Except.ok) (v.outer?_eq w)
      | column => rfl

end SparseVector

namespace Making

variable [Scalar α]

/-- Every step has a result: the parts of the matrix that is obtained. -/
theorem parts?_eq (how : Making α) : how.parts? = some (how.matrix.map SparseMatrix.parts) := by
  induction how with
  | zero rows cols => exact congrArg (some <| Except.ok ·) (SparseMatrix.parts_empty rows cols).symm
  | identity n => exact congrArg (Option.map Except.ok) (SparseMatrix.identity?_parts n)
  | dense rows => exact SparseMatrix.ofDense?_parts rows
  | vector v => exact congrArg (Option.map Except.ok) v.ofVector?_eq
  | vectors v w => exact v.ofVectors?_eq w
  | vectorTimes v how ih =>
      rw [parts?, ih, v.ofVector?_eq]
      exact proceed_map fun m => v.toMatrix.mul?_parts m
  | set how i j value ih =>
      rw [parts?, ih]
      exact proceed_map fun m => congrArg (Option.map _) (m.set?_parts i j value)
  | transpose how ih =>
      rw [parts?, ih]
      exact proceed_map fun m => congrArg (Option.map Except.ok) m.transpose?_parts
  | times left right ihl ihr =>
      rw [parts?, ihl, ihr]
      exact proceed_map fun m => proceed_map fun k => m.mul?_parts k
  | timesVector how v ih =>
      rw [parts?, ih, v.ofVector?_eq]
      exact proceed_map fun m => m.mul?_parts v.toMatrix
  | add left right ihl ihr =>
      rw [parts?, ihl, ihr]
      exact proceed_map fun m => proceed_map fun k => m.add?_parts k
  | scale how k ih =>
      rw [parts?, ih]
      exact proceed_map fun m => congrArg (some <| Except.ok ·) (m.scale_parts k)
  | block how start stop ih =>
      rw [parts?, ih]
      exact proceed_map fun m => m.block?_parts start stop

/-- Whatever matrix is obtained, no step towards it writes past the end of a row or looks up one
that is missing, and its parts are coherent: it has the rows it declares, all of them row vectors of
the declared size whose storage is sound. Reads and writes then succeed exactly inside the declared
shape, and a write that fails leaves everything as it was. The stored cells lie inside the shape,
are listed row by row and each of them once, and their number is at most that of all places. -/
theorem stays_coherent (how : Making α) :
    how.parts? = some (how.matrix.map SparseMatrix.parts) ∧
    ∀ m, how.matrix = .ok m →
      m.parts.Coherent ∧
      (∀ i j, m.parts.get? i j = some (m.get i j) ∧
        ((m.get i j).isOk = true ↔ i < m.rows ∧ j < m.cols)) ∧
      (∀ i j x, ∃ q, m.parts.set? i j x = some ((m.set i j x).map fun _ => (), q) ∧
        ((m.set i j x).isOk = true ↔ i < m.rows ∧ j < m.cols) ∧
        (∀ k, m.set i j x = .ok k → q = k.parts) ∧
        ((m.set i j x).isOk = false → q = m.parts)) ∧
      (∀ e ∈ m.nonZeros, e.row < m.rows ∧ e.col < m.cols ∧ m.get e.row e.col = .ok e.value) ∧
      m.nonZeros.Pairwise MatrixParts.Precedes ∧
      (∀ i j, m.parts.Occupies i j ↔ ∃ e ∈ m.nonZeros, e.row = i ∧ e.col = j) ∧
      m.occupied = m.nonZeros.length ∧ m.occupied ≤ m.rows * m.cols := by
  refine ⟨how.parts?_eq, fun m _ => ?_⟩
  have h := m.coherent_parts
  have hnonZeros := m.nonZeros_parts
  have hoccupied := m.occupied_parts
  refine ⟨h, fun i j => ⟨m.get?_parts i j, ?_⟩, fun i j x => ⟨_, m.set?_parts i j x, ?_, ?_, ?_⟩,
    fun e he => ?_, hnonZeros ▸ h.pairwise_nonZeros, fun i j => ?_, ?_, ?_⟩
  · exact m.isOk_get_iff i j
  · exact m.isOk_set_iff i j x
  · intro k hk
    rw [hk]
    rfl
  · intro hfailed
    cases hk : m.set i j x with
    | error cause => rfl
    | ok k => rw [hk] at hfailed; cases hfailed
  · obtain ⟨hi, hj⟩ := m.inside_of_mem_nonZeros he
    have hget := h.get?_of_mem_nonZeros (hnonZeros ▸ he)
    rw [m.get?_parts] at hget
    exact ⟨hi, hj, Option.some.inj hget⟩
  · rw [h.occupies_iff, hnonZeros]
  · rw [← hoccupied, h.occupied_eq_length, hnonZeros]
  · rw [← hoccupied]
    exact h.occupied_le

end Making

end LinearModel
