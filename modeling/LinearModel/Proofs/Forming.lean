import Mathlib
import LinearModel.Proofs.Coherence
import LinearModel.SparseVector.Forming

/-!
# Vectors keep their representation

On the parts of vectors only the checks of the operations stand between a write and the end of a
vector. Each operation has a result on the parts of vectors, namely the parts of what it gives on
the vectors, and by induction so has every way to obtain a vector (`Forming.parts?_eq`). The parts
that are obtained are therefore sound, and no step towards them, and no read of them, looks up
anything that is not there.
-/

namespace LinearModel

theorem SparseMatrix.row?_parts {α : Type} (m : SparseMatrix α) (i : Nat) :
    m.parts.row? i = some ((m.row i).map SparseVector.parts) := by
  rw [MatrixParts.row?, rows_parts, row]
  cases hi : requireIndex i m.rows with
  | error cause => rfl
  | ok =>
      rw [m.getElem?_data_parts (requireIndex_eq_ok_iff.1 hi)]
      rfl

namespace Forming

variable {α : Type} [Scalar α]

/-- Every step has a result: the parts of the vector that is obtained. -/
theorem parts?_eq (how : Forming α) : how.parts? = some (how.vector.map SparseVector.parts) := by
  induction how with
  | empty size => rfl
  | emptyWithHint size hint => rfl
  | dense xs => rfl
  | row how i =>
      rw [parts?, how.parts?_eq]
      exact proceed_map fun m => m.row?_parts i
  | orient how o ih =>
      rw [parts?, ih]
      exact proceed_map fun v => rfl
  | set how i value ih =>
      rw [parts?, ih]
      exact proceed_map fun v => congrArg (Option.map _) (v.set?_parts i value)
  | add left right ihl ihr =>
      rw [parts?, ihl, ihr]
      exact proceed_map fun v => proceed_map fun w => v.add?_parts w
  | scale how k ih =>
      rw [parts?, ih]
      exact proceed_map fun v => rfl
  | transpose how ih =>
      rw [parts?, ih]
      exact proceed_map fun v => rfl

theorem exists_vector {how : Forming α} {r : VectorParts α} (h : how.parts? = some (.ok r)) :
    ∃ v, how.vector = .ok v ∧ v.parts = r := by
  rw [parts?_eq] at h
  cases hvector : how.vector with
  | error cause =>
      rw [hvector] at h
      cases h
  | ok v =>
      rw [hvector] at h
      cases h
      exact ⟨v, rfl, rfl⟩

/-- Whatever vector is obtained, no step towards it writes past the end of a vector or looks up what
is not there, and the lists and the lookup agree in its parts: the lists have one length, the
occupied places are distinct and inside the vector, and the lookup finds exactly them, where they
stand. The two readings give the same at every place, and occupancy lies between the number of
nonzero values and the size. No read and no walk looks up what is not there, and a write has a
result wherever its caller keeps it inside. -/
theorem keeps_representation (how : Forming Float) :
    how.parts? = some (how.vector.map SparseVector.parts) ∧
    ∀ r, how.parts? = some (.ok r) →
      r.storage.index.length = r.storage.data.length ∧
      r.storage.index.Nodup ∧
      (∀ i ∈ r.storage.index, i < r.size) ∧
      (∀ i p, r.storage.slots i = some p ↔ r.storage.index[p]? = some i) ∧
      (∃ dense, r.toDense? = some dense ∧
        (∀ i < r.size, ∃ x, r.get? i = some (.ok x) ∧ dense[i]? = some x) ∧
        dense.countP (fun x => Number.exact x ≠ .finite 0) ≤ r.occupied) ∧
      r.occupied ≤ r.size ∧
      (∀ i, (r.get? i).isSome) ∧
      (∀ xs, (r.dotDense? xs).isSome) ∧
      (∀ position, (r.next? position).isSome) ∧
      ∀ i < r.size, ∀ fresh change, (r.store? i fresh change).isSome := by
  refine ⟨how.parts?_eq, fun r hr => ?_⟩
  obtain ⟨v, -, rfl⟩ := exists_vector hr
  have hsound := v.sound_parts
  have hnonzero : v.toDense.countP (fun x => Number.exact x ≠ .finite 0) ≤ v.parts.occupied :=
    v.cells.countP_toDense_le (by simp [LawfulNumber.exact_zero])
  refine ⟨hsound.length_eq, hsound.nodup, hsound.lt_of_mem, hsound.slots_eq_some_iff,
    ⟨v.toDense, v.toDense?_parts, fun i hi => ?_, hnonzero⟩, v.cells.occupied_le,
    fun i => ?_, fun xs => ?_, fun position => ?_, fun i hi fresh change => ?_⟩
  · exact ⟨_, (v.get?_parts i).trans (congrArg some (v.get_eq_ok hi)), v.cells.getElem?_toDense hi⟩
  · rw [v.get?_parts]
    rfl
  · rw [v.dotDense?_parts]
    rfl
  · rw [hsound.next?_eq]
    rfl
  · rw [hsound.store?_eq hi]
    rfl

end Forming

end LinearModel
