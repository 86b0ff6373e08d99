import Mathlib
import LinearModel.Proofs.Coherence
import LinearModel.Proofs.Insertion
import LinearModel.SparseVector.Cursor

/-!
# Walking a vector to its end

What a cursor is still to hand out are the cells behind its position (`Cursor.rest`). A step hands
out the first of them and leaves the others, so that any number of steps hands out the first cells
in their order, as many as there are, and then nothing any more (`Cursor.steps_eq`). The cells that
were handed out can be written back: they stand at distinct places, so that an empty vector stores
them as they come (`SparseVector.writeAll_empty`).
-/

namespace LinearModel

variable {α : Type}

namespace SparseVector

variable (v : SparseVector α)

/-- Where along the vector a cell stands, and its value. -/
def cellOf (e : Entry α) : Nat × α :=
  match v.orientation with
  | .row => (e.col, e.value)
  | .column => (e.row, e.value)

@[simp] theorem cellOf_entryOf (cell : Nat × α) : v.cellOf (v.entryOf cell) = cell := by
  rw [cellOf, entryOf]
  cases v.orientation <;> rfl

theorem map_cellOf_nonZeros : v.nonZeros.map v.cellOf = v.cells.entries := by
  have hid : v.cellOf ∘ v.entryOf = id := funext v.cellOf_entryOf
  rw [nonZeros, List.map_map, hid, List.map_id]

theorem length_nonZeros : v.nonZeros.length = v.occupied := by
  rw [nonZeros, List.length_map, ← List.length_map Prod.fst, v.cells.map_fst_entries]
  rfl

/-- The two lists of the storage side by side give the cells. -/
theorem exists_getElem?_nonZeros {k : Nat} (hk : k < v.occupied) :
    ∃ i x, v.indices[k]? = some i ∧ v.values[k]? = some x ∧
      v.nonZeros[k]? = some (v.entryOf (i, x)) := by
  have hlt : k < v.cells.entries.length := by
    rwa [← List.length_map v.entryOf, ← nonZeros, length_nonZeros]
  obtain ⟨⟨i, x⟩, hcell⟩ : ∃ cell, v.cells.entries[k]? = some cell :=
    ⟨_, List.getElem?_eq_getElem hlt⟩
  obtain ⟨hi, hx⟩ := List.getElem?_zip_eq_some.1 hcell
  exact ⟨i, x, hi, hx, by rw [nonZeros, List.getElem?_map, hcell, Option.map_some]⟩

end SparseVector

namespace Cursor

/-- The cells that are still to come. -/
def rest (c : Cursor α) : List (Entry α) := c.vector.nonZeros.drop c.position

variable {c : Cursor α}

theorem length_rest (c : Cursor α) : c.rest.length = c.remaining := by
  rw [rest, List.length_drop, c.vector.length_nonZeros, remaining]

theorem next_fst (c : Cursor α) : c.next.1 = c.vector.nonZeros[c.position]? := by
  rw [next, SparseVector.nonZeros, List.getElem?_map]
  cases c.vector.cells.entries[c.position]? <;> rfl

theorem next_of_rest_eq_nil (h : c.rest = []) : c.next = (none, c) := by
  have hnone : c.vector.cells.entries[c.position]? = none := by
    rw [List.getElem?_eq_none_iff, ← List.length_map c.vector.entryOf]
    exact List.drop_eq_nil_iff.1 h
  rw [next, hnone]

theorem next_of_rest_eq_cons {e : Entry α} {others : List (Entry α)} (h : c.rest = e :: others) :
    ∃ after, c.next = (some e, after) ∧ after.rest = others ∧
      after.vector = c.vector ∧ after.position = c.position + 1 := by
  have hsome : (c.vector.cells.entries[c.position]?).map c.vector.entryOf = some e := by
    rw [← List.getElem?_map, ← SparseVector.nonZeros, ← List.head?_drop, ← rest, h, List.head?_cons]
  obtain ⟨cell, hcell, rfl⟩ := Option.map_eq_some_iff.1 hsome
  refine ⟨⟨c.vector, c.position + 1⟩, by rw [next, hcell], ?_, rfl, rfl⟩
  show c.vector.nonZeros.drop (c.position + 1) = others
  rw [← List.tail_drop, ← rest, h, List.tail_cons]

/-- Any number of steps hands out what is still to come, as far as it goes, and then nothing; the
cursor moves by what was handed out. -/
theorem steps_eq (m : Nat) (c : Cursor α) :
    c.steps m = ((c.rest.take m).map some ++ List.replicate (m - c.remaining) none,
      ⟨c.vector, c.position + min m c.remaining⟩) := by
  induction m generalizing c with
  | zero => simp
  | succ m ih =>
      rw [← length_rest, steps_succ]
      cases hrest : c.rest with
      | nil =>
          rw [next_of_rest_eq_nil hrest, ih, ← length_rest, hrest]
          simp [List.replicate_succ]
      | cons e others =>
          obtain ⟨after, hnext, hothers, hvector, hposition⟩ := next_of_rest_eq_cons hrest
          rw [hnext, ih, ← length_rest, hothers, hvector, hposition]
          simp
          omega

theorem steps_of_next_eq_none (h : c.next.1 = none) (m : Nat) :
    c.steps m = (List.replicate m none, c) := by
  have hrest : c.rest = [] := by
    rw [next_fst, List.getElem?_eq_none_iff] at h
    exact List.drop_eq_nil_of_le h
  rw [steps_eq, ← length_rest, hrest]
  simp

end Cursor

namespace SparseVector

variable (v : SparseVector α)

/-- Cells at distinct places are stored by an empty vector as they come. -/
theorem writeAll_empty {es : List (Nat × α)} (hlt : ∀ e ∈ es, e.1 < v.size)
    (hnodup : (es.map Prod.fst).Nodup) :
    ∃ w, ((empty v.size).orient v.orientation).writeAll es =
        (List.replicate es.length (.ok ()), w) ∧
      w.size = v.size ∧ w.orientation = v.orientation ∧ w.cells.entries = es := by
  have hentries := (Cells.empty : Cells α v.size).entries_putAll hlt hnodup
  refine ⟨_, (writeAll_eq _ es).trans (Prod.ext ?_ rfl), rfl, rfl, hentries⟩
  refine List.eq_replicate_iff.2 ⟨List.length_map _, fun answer hanswer => ?_⟩
  obtain ⟨e, he, rfl⟩ := List.mem_map.1 hanswer
  exact if_pos (hlt e he)

/-- However often a vector is asked for its next cell, it has then handed out its first cells in
the order in which they are stored, each once and with its coordinates in the shape of the vector,
as many as it was asked for or all there are, and behind these nothing. What is said to be still to
come is what was not handed out; a cursor that has handed out nothing once never hands out anything
again. An empty vector of the same size and orientation that the cells are written to one after the
other stores them as the vector does, and is the vector when all of them are. -/
theorem walk_replays (m : Nat) :
    ∃ c w, v.cursor.steps m =
        ((v.nonZeros.take m).map some ++ List.replicate (m - v.occupied) none, c) ∧
      (v.nonZeros.take m).length = min m v.occupied ∧
      (∀ k < min m v.occupied, ∃ i x, v.indices[k]? = some i ∧ v.values[k]? = some x ∧
        (v.nonZeros.take m)[k]? =
          some (match v.orientation with | .row => ⟨0, i, x⟩ | .column => ⟨i, 0, x⟩)) ∧
      (∀ e ∈ v.nonZeros.take m, e.row < v.shape.rows ∧ e.col < v.shape.cols) ∧
      c.position = min m v.occupied ∧
      c.position + c.remaining = v.occupied ∧
      c.sizeHint = (v.occupied - min m v.occupied, some (v.occupied - min m v.occupied)) ∧
      (c.next.1 = none ↔ v.occupied ≤ m) ∧
      (c.next.1 = none → ∀ k, c.steps k = (List.replicate k none, c)) ∧
      ((empty v.size).orient v.orientation).writeAll ((v.nonZeros.take m).map v.cellOf) =
        (List.replicate (min m v.occupied) (.ok ()), w) ∧
      w.indices = v.indices.take m ∧ w.values = v.values.take m ∧
      (v.occupied ≤ m → w = v) := by
  have hremaining : v.cursor.remaining = v.occupied := rfl
  have hlength : (v.nonZeros.take m).length = min m v.occupied := by
    rw [List.length_take, length_nonZeros]
  have hcells : (v.nonZeros.take m).map v.cellOf = v.cells.entries.take m := by
    rw [List.map_take, map_cellOf_nonZeros]
  have hplaces : ((v.cells.entries.take m).map Prod.fst).Nodup := by
    rw [List.map_take]
    exact v.cells.nodup_map_fst_entries.take
  obtain ⟨w, hwritten, hsize, horientation, hentries⟩ := v.writeAll_empty
    (fun e he => v.cells.lt_of_mem_entries (List.mem_of_mem_take he)) hplaces
  rw [← hcells, List.length_map, hlength] at hwritten
  have hposition : (⟨v, 0 + min m v.occupied⟩ : Cursor α).position = min m v.occupied :=
    Nat.zero_add _
  refine ⟨⟨v, 0 + min m v.occupied⟩, w, v.cursor.steps_eq m, hlength, fun k hk => ?_,
    fun e he => v.inside_of_mem_nonZeros (List.mem_of_mem_take he), hposition, ?_, ?_, ?_,
    fun h => Cursor.steps_of_next_eq_none h, hwritten, ?_, ?_, fun hm => ?_⟩
  · obtain ⟨i, x, hi, hx, he⟩ := v.exists_getElem?_nonZeros (k := k) (by omega)
    refine ⟨i, x, hi, hx, ?_⟩
    rw [List.getElem?_take_of_lt (by omega), he]
    rfl
  · rw [Cursor.remaining, hposition]
    show min m v.occupied + (v.occupied - min m v.occupied) = v.occupied
    omega
  · rw [Cursor.sizeHint, Cursor.remaining, hposition]
  · rw [Cursor.next_fst, hposition]
    show v.nonZeros[min m v.occupied]? = none ↔ _
    rw [List.getElem?_eq_none_iff, length_nonZeros]
    omega
  · rw [indices, ← w.cells.map_fst_entries, hentries, List.map_take, v.cells.map_fst_entries]
    rfl
  · rw [values, ← w.cells.map_snd_entries, hentries, List.map_take, v.cells.map_snd_entries]
    rfl
  · have hall : v.cells.entries.length ≤ m := by
      rw [← map_cellOf_nonZeros, List.length_map, length_nonZeros]
      exact hm
    exact ext hsize horientation (hentries.trans (List.take_of_length_le hall))

end SparseVector

end LinearModel
