import Mathlib
import LinearModel.Proofs.Zero
import LinearModel.SparseVector.Parts

/-!
# What the storage of a vector keeps

A vector stores places, values and a lookup between them, and its operations write to all three.
Parts of a vector are sound when the three agree inside the declared size (`VectorParts.Sound`). All
their reads then have a result, and so have the writes inside the size: no look-up of a value, of a
dense place or of a position misses. The two readings, place by place through the lookup and all at
once by writing the values over zeros, agree, and occupancy lies between the number of nonzero
values and the size.

The parts of a `SparseVector` are sound by its type, and every operation on the parts of vectors has
a result: the parts of what the same operation on the vectors gives.
-/

namespace LinearModel

theorem Storage.Sound.length_index_le {α : Type} {n : Nat} {s : Storage α} (h : s.Sound n) :
    s.index.length ≤ n := by
  have hsub : s.index ⊆ List.range n := fun i hi => List.mem_range.2 (h.lt_of_mem i hi)
  have hlen := (List.subperm_of_subset h.nodup hsub).length_le
  rwa [List.length_range] at hlen

namespace Cells

variable {α : Type} {n : Nat}

theorem occupied_le (c : Cells α n) : c.occupied ≤ n := c.sound.length_index_le

/-- What zero does not satisfy is satisfied by no more dense values than there are occupied
places. -/
theorem countP_toDense_le [Zero α] (c : Cells α n) {p : α → Bool} (hzero : p 0 = false) :
    c.toDense.countP p ≤ c.occupied := by
  have hsub : (List.range n).filter (fun i => p (c.get i)) ⊆ c.indices := by
    intro i hi
    rw [mem_indices_iff]
    by_contra hnone
    have hget : c.get i = 0 := by
      rw [get, Option.not_isSome_iff_eq_none.1 hnone, Option.getD_none]
    simp [hget, hzero] at hi
  have hnodup : ((List.range n).filter fun i => p (c.get i)).Nodup := List.nodup_range.filter _
  calc c.toDense.countP p
      = ((List.range n).filter fun i => p (c.get i)).length := by
        rw [toDense_eq_map_range, List.countP_map, List.countP_eq_length_filter]
        rfl
    _ ≤ c.occupied := (List.subperm_of_subset hnodup hsub).length_le

end Cells

namespace SparseVector

theorem get_eq_ok {α : Type} [Scalar α] (v : SparseVector α) {i : Nat} (hi : i < v.size) :
    v.get i = .ok (v.cells.get i) := by
  unfold get
  rw [requireIndex_eq_ok_iff.2 hi]
  rfl

theorem get_eq_error {α : Type} [Scalar α] (v : SparseVector α) {i : Nat} (hi : v.size ≤ i) :
    v.get i = .error (.indexOutOfRange i v.size) := by
  unfold get
  rw [requireIndex, if_neg (Nat.not_lt.2 hi)]
  rfl

end SparseVector

/-- A loop over parts that has a result at every step has one at the end, and follows the loop over
what the parts are read from. -/
theorem foldlM_eq_some_foldl {β γ δ : Type} {f : γ → δ} {step? : δ → β → Option δ}
    {step : γ → β → γ} {P : γ → Prop} {es : List β}
    (hstep : ∀ c, P c → ∀ e ∈ es, step? (f c) e = some (f (step c e)) ∧ P (step c e))
    {c : γ} (hc : P c) : es.foldlM step? (f c) = some (f (es.foldl step c)) := by
  induction es generalizing c with
  | nil => rfl
  | cons e es ih =>
      obtain ⟨hread, hnext⟩ := hstep c hc e List.mem_cons_self
      rw [List.foldlM_cons, hread]
      exact ih (fun c hc a ha => hstep c hc a (List.mem_cons_of_mem e ha)) hnext

theorem mapM_eq_some_map {β γ : Type} {f : β → Option γ} {g : β → γ} {xs : List β}
    (h : ∀ x ∈ xs, f x = some (g x)) : xs.mapM f = some (xs.map g) := by
  induction xs with
  | nil => rfl
  | cons x xs ih =>
      rw [List.forall_mem_cons] at h
      rw [List.mapM_cons, h.1, ih h.2]
      rfl

theorem proceed_map {β γ δ ζ : Type} {x : Except AlgebraError β} {f : β → Except AlgebraError γ}
    {read : β → δ} {readNext : γ → ζ} {next : δ → Option (Except AlgebraError ζ)}
    (h : ∀ b, next (read b) = some ((f b).map readNext)) :
    proceed (some (x.map read)) next = some ((x.bind f).map readNext) := by
  cases x with
  | error cause => rfl
  | ok b => exact h b

namespace VectorParts

variable {α : Type}

/-- The lists and the lookup agree, on places inside the size. -/
def Sound (r : VectorParts α) : Prop := r.storage.Sound r.size

namespace Sound

variable {r : VectorParts α}

theorem lt_of_mem_entries (h : r.Sound) {e : Nat × α} (he : e ∈ r.storage.entries) :
    e.1 < r.size :=
  h.lt_of_mem _ (Storage.map_fst_entries h ▸ List.mem_map_of_mem he)

theorem store?_eq (h : r.Sound) {j : Nat} (hj : j < r.size) (fresh : α) (change : α → α) :
    r.store? j fresh change = some { r with storage := r.storage.write j fresh change } := by
  have hslot : (r.storage.slots j).all (· < r.storage.data.length) = true := by
    rw [Option.all_eq_true]
    intro p hp
    exact decide_eq_true (h.lt_length hp)
  exact if_pos ⟨hj, hslot⟩

/-- Every position has a cell or is past the last one. -/
theorem next?_eq (h : r.Sound) (position : Nat) :
    r.next? position = some (match r.storage.entries[position]? with
      | some cell => (some (r.entryOf cell), position + 1)
      | none => (none, position)) := by
  unfold next?
  cases hi : r.storage.index[position]? with
  | none =>
      have hend : r.storage.entries[position]? = none := by
        rw [List.getElem?_eq_none_iff] at hi ⊢
        rwa [← List.length_map (f := Prod.fst), Storage.map_fst_entries h]
      rw [hend]
  | some i =>
      have hlt : position < r.storage.data.length :=
        h.length_eq ▸ (List.getElem?_eq_some_iff.1 hi).1
      have hv : r.storage.data[position]? = some r.storage.data[position] :=
        List.getElem?_eq_getElem hlt
      have hcell : r.storage.entries[position]? = some (i, r.storage.data[position]) :=
        List.getElem?_zip_eq_some.2 ⟨hi, hv⟩
      rw [hcell, hv]
      rfl

variable [Scalar α]

theorem get?_eq (h : r.Sound) (j : Nat) :
    r.get? j = some ((requireIndex j r.size).map fun _ => (r.storage.find? j).getD 0) := by
  unfold get?
  cases requireIndex j r.size with
  | error cause => rfl
  | ok =>
      cases hslot : r.storage.slots j with
      | none => simp [Storage.find?, hslot, Except.map]
      | some p => simp [Storage.find?, hslot, Except.map, h.lt_length hslot]

theorem toDense?_eq (h : r.Sound) : r.toDense? = some (r.storage.toDense r.size) := by
  refine foldlM_eq_some_foldl (f := id) (P := fun dense => dense.length = r.size)
    (fun dense hlength e he => ?_) List.length_replicate
  exact ⟨if_pos (hlength.symm ▸ h.lt_of_mem_entries he), by rw [List.length_set, hlength]⟩

theorem dotDense?_eq (h : r.Sound) {xs : List α} (hlength : r.size = xs.length) :
    r.dotDense? xs =
      some (.ok (Scalar.sum (r.storage.entries.map fun e => e.2 * xs.getD e.1 0))) := by
  have hterms : (r.storage.entries.mapM fun e => xs[e.1]?.map (e.2 * ·)) =
      some (r.storage.entries.map fun e => e.2 * xs.getD e.1 0) := by
    refine mapM_eq_some_map fun e he => ?_
    have hplace : e.1 < xs.length := hlength ▸ h.lt_of_mem_entries he
    rw [List.getD_eq_getElem?_getD, List.getElem?_eq_getElem hplace]
    rfl
  rw [dotDense?, if_pos hlength, hterms]
  rfl

end Sound

end VectorParts

namespace SparseVector

variable {α : Type}

@[simp] theorem size_parts (v : SparseVector α) : v.parts.size = v.size := rfl

theorem sound_parts (v : SparseVector α) : v.parts.Sound := v.cells.sound

theorem store?_parts (v : SparseVector α) {i : Nat} (hi : i < v.size) (fresh : α)
    (change : α → α) : v.parts.store? i fresh change =
      some { v with cells := v.cells.upsert i fresh change }.parts := by
  rw [v.sound_parts.store?_eq hi, Cells.upsert, dif_pos hi]
  rfl

/-- A write that is refused leaves the parts as they are. -/
theorem set?_parts (v : SparseVector α) (i : Nat) (x : α) :
    v.parts.set? i x =
      some ((v.set i x).map fun _ => (), ((v.set i x).toOption.getD v).parts) := by
  rw [VectorParts.set?, size_parts, set]
  cases hi : requireIndex i v.size with
  | error cause => rfl
  | ok =>
      rw [v.store?_parts (requireIndex_eq_ok_iff.1 hi)]
      rfl

variable [Scalar α]

theorem get?_parts (v : SparseVector α) (i : Nat) : v.parts.get? i = some (v.get i) := by
  rw [v.sound_parts.get?_eq, size_parts, get]
  cases requireIndex i v.size <;> rfl

theorem toDense?_parts (v : SparseVector α) : v.parts.toDense? = some v.toDense :=
  v.sound_parts.toDense?_eq

theorem dotDense?_parts (v : SparseVector α) (xs : List α) :
    v.parts.dotDense? xs = some (v.dotDense xs) := by
  rw [dotDense]
  by_cases hlength : v.size = xs.length
  · rw [v.sound_parts.dotDense?_eq hlength, if_pos hlength]
    rfl
  · rw [if_neg hlength]
    exact if_neg hlength

/-- What is added falls inside: both operands have one size. -/
theorem add?_parts (v w : SparseVector α) : v.parts.add? w.parts = some ((v.add w).map parts) := by
  obtain ⟨n, o, c⟩ := v
  obtain ⟨m, p, d⟩ := w
  show (if n = m then _ else _) = some (Except.map _ (if n = m then _ else _))
  by_cases hsize : n = m
  · have hfold : d.entries.foldlM (fun r e => VectorParts.store? r e.1 e.2 (· + e.2))
        (⟨n, o, c⟩ : SparseVector α).parts = some (⟨n, o, c.addAll d⟩ : SparseVector α).parts :=
      foldlM_eq_some_foldl (f := fun c => (⟨n, o, c⟩ : SparseVector α).parts)
        (P := fun _ => True) (fun c _ e he => ⟨store?_parts ⟨n, o, c⟩
          (hsize ▸ d.lt_of_mem_entries he) e.2 (· + e.2), trivial⟩) trivial
    rw [if_pos hsize, if_pos hsize]
    exact congrArg (Option.map Except.ok) hfold
  · rw [if_neg hsize, if_neg hsize]
    rfl

end SparseVector

end LinearModel
