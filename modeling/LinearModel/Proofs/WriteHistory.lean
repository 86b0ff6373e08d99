import Mathlib
import LinearModel.Proofs.Representation
import LinearModel.SparseVector.Writes

/-!
# Histories of writes

Two things can be seen of a vector that is written to: its dense values, and the order in which its
places were first written. A write changes one value of a dense list and appends its place to the
order unless it is there; a write past the end does neither (`Cells.toDense_put`,
`Cells.indices_foldl_upsert`). After any history of writes a place holds what the last write to it
wrote, and the occupied places are those of the start and behind them the others in the order of
their first write, whatever was written and whatever room was reserved
(`SparseVector.writeAll_refines`).
-/

namespace LinearModel

variable {α : Type}

/-- What the last of the writes to place `i` writes. -/
def lastWrite (i : Nat) (writes : List (Nat × α)) : Option α :=
  (writes.reverse.find? fun w => w.1 = i).map Prod.snd

/-- The places below `n` that are written and were not occupied, in the order of their first
write. -/
def firstWrites (n : Nat) (occupied : List Nat) (writes : List (Nat × α)) : List Nat :=
  ((writes.map Prod.fst).filter fun i => i < n ∧ i ∉ occupied).eraseDups

theorem lastWrite_cons (i : Nat) (w : Nat × α) (writes : List (Nat × α)) :
    lastWrite i (w :: writes) = (lastWrite i writes).or (if w.1 = i then some w.2 else none) := by
  rw [lastWrite, List.reverse_cons, List.find?_append, Option.map_or, lastWrite]
  by_cases h : w.1 = i <;> simp [h]

section FirstWrites

variable {n : Nat} {occupied : List Nat} {w : Nat × α}

theorem firstWrites_cons_of_le (hw : n ≤ w.1) (writes : List (Nat × α)) :
    firstWrites n occupied (w :: writes) = firstWrites n occupied writes := by
  rw [firstWrites, List.map_cons, List.filter_cons_of_neg (by simp; omega)]
  rfl

theorem firstWrites_cons_of_mem (hw : w.1 ∈ occupied) (writes : List (Nat × α)) :
    firstWrites n occupied (w :: writes) = firstWrites n occupied writes := by
  rw [firstWrites, List.map_cons, List.filter_cons_of_neg (by simp [hw])]
  rfl

theorem firstWrites_cons_of_notMem (hlt : w.1 < n) (hw : w.1 ∉ occupied)
    (writes : List (Nat × α)) :
    firstWrites n occupied (w :: writes) =
      w.1 :: firstWrites n (occupied ++ [w.1]) writes := by
  rw [firstWrites, List.map_cons, List.filter_cons_of_pos (by simp [hlt, hw]),
    List.eraseDups_cons, List.filter_filter, firstWrites]
  congr 2
  apply List.filter_congr
  intro i _
  rw [Bool.eq_iff_iff]
  simp
  tauto

/-- Writes to distinct places first write each of them that was not occupied. -/
theorem firstWrites_of_nodup {writes : List (Nat × α)} (hlt : ∀ w ∈ writes, w.1 < n)
    (hnodup : (writes.map Prod.fst).Nodup) :
    firstWrites n occupied writes = (writes.map Prod.fst).filter (· ∉ occupied) := by
  induction writes generalizing occupied with
  | nil => rfl
  | cons w writes ih =>
      obtain ⟨hnotMem, hnodup⟩ := List.nodup_cons.1 hnodup
      have hrest (occupied : List Nat) :=
        @ih occupied (fun x hx => hlt x (List.mem_cons_of_mem w hx)) hnodup
      rw [List.map_cons]
      by_cases hw : w.1 ∈ occupied
      · rw [firstWrites_cons_of_mem hw, hrest, List.filter_cons_of_neg (by simpa using hw)]
      · rw [firstWrites_cons_of_notMem (hlt w List.mem_cons_self) hw, hrest,
          List.filter_cons_of_pos (by simpa using hw)]
        congr 1
        apply List.filter_congr
        intro i hi
        have hne : i ≠ w.1 := fun h => hnotMem (h ▸ hi)
        simp [hne]

end FirstWrites

namespace Cells

variable {n : Nat}

theorem upsert_of_le (c : Cells α n) {i : Nat} (hi : n ≤ i) (fresh : α) (change : α → α) :
    c.upsert i fresh change = c :=
  dif_neg (Nat.not_lt.2 hi)

/-- Places are appended when they are first written, whatever becomes of their values. -/
theorem indices_foldl_upsert (change : Nat × α → α → α) (c : Cells α n) (es : List (Nat × α)) :
    (es.foldl (fun c e => c.upsert e.1 e.2 (change e)) c).indices =
      c.indices ++ firstWrites n c.indices es := by
  induction es generalizing c with
  | nil => exact (List.append_nil _).symm
  | cons e es ih =>
      rw [List.foldl_cons, ih]
      rcases Nat.lt_or_ge e.1 n with hlt | hle
      · have hindices := c.indices_upsert hlt e.2 (change e)
        by_cases he : e.1 ∈ c.indices
        · rw [hindices, if_pos he, firstWrites_cons_of_mem he]
        · rw [hindices, if_neg he, firstWrites_cons_of_notMem hlt he, List.append_assoc]
          rfl
      · rw [c.upsert_of_le hle, firstWrites_cons_of_le hle]

/-- Writes values at places, one after the other. -/
def putAll (c : Cells α n) (es : List (Nat × α)) : Cells α n :=
  es.foldl (fun c e => c.put e.1 e.2) c

theorem putAll_cons (c : Cells α n) (e : Nat × α) (es : List (Nat × α)) :
    c.putAll (e :: es) = (c.put e.1 e.2).putAll es := rfl

theorem indices_putAll (c : Cells α n) (es : List (Nat × α)) :
    (c.putAll es).indices = c.indices ++ firstWrites n c.indices es :=
  c.indices_foldl_upsert (fun e _ => e.2) es

theorem putAll_filter (c : Cells α n) (es : List (Nat × α)) :
    c.putAll (es.filter fun e => e.1 < n) = c.putAll es := by
  induction es generalizing c with
  | nil => rfl
  | cons e es ih =>
      rcases Nat.lt_or_ge e.1 n with hlt | hle
      · rw [List.filter_cons_of_pos (by simpa using hlt), putAll_cons, putAll_cons, ih]
      · rw [List.filter_cons_of_neg (by simpa using hle), putAll_cons, put, c.upsert_of_le hle, ih]

section Dense

variable [Zero α]

theorem get_putAll (c : Cells α n) (es : List (Nat × α)) {j : Nat} (hj : j < n) :
    (c.putAll es).get j = (lastWrite j es).getD (c.get j) := by
  induction es generalizing c with
  | nil => rfl
  | cons e es ih =>
      have hhead : (c.put e.1 e.2).get j = (if e.1 = j then some e.2 else none).getD (c.get j) := by
        rcases Nat.lt_or_ge e.1 n with hlt | hle
        · rw [c.get_put hlt]
          by_cases he : e.1 = j
          · rw [if_pos he.symm, if_pos he, Option.getD_some]
          · rw [if_neg (Ne.symm he), if_neg he, Option.getD_none]
        · rw [put, c.upsert_of_le hle, if_neg (by omega), Option.getD_none]
      rw [putAll_cons, ih, hhead, lastWrite_cons, Option.getD_or]

/-- A write sets one value of the dense list; past its end it sets none. -/
theorem toDense_put (c : Cells α n) (i : Nat) (v : α) :
    (c.put i v).toDense = c.toDense.set i v := by
  rcases Nat.lt_or_ge i n with hlt | hle
  · rw [toDense_eq_map_range, toDense_eq_map_range]
    apply List.ext_getElem
    · simp
    · intro j hj hj'
      simp [c.get_put hlt, List.getElem_set, eq_comm]
  · rw [put, c.upsert_of_le hle, List.set_eq_of_length_le (c.length_toDense.trans_le hle)]

theorem toDense_putAll (c : Cells α n) (es : List (Nat × α)) :
    (c.putAll es).toDense = es.foldl (fun dense e => dense.set e.1 e.2) c.toDense := by
  induction es generalizing c with
  | nil => rfl
  | cons e es ih => rw [putAll_cons, ih, toDense_put, List.foldl_cons]

end Dense

end Cells

namespace SparseVector

variable (v : SparseVector α) (writes : List (Nat × α))

theorem write_eq (i : Nat) (x : α) :
    v.write i x = (if i < v.size then .ok () else .error (.indexOutOfRange i v.size),
      { v with cells := v.cells.put i x }) := by
  rcases Nat.lt_or_ge i v.size with hlt | hle
  · rw [if_pos hlt, write, set, requireIndex, if_pos hlt]
    rfl
  · rw [if_neg (Nat.not_lt.2 hle), write, set, requireIndex, if_neg (Nat.not_lt.2 hle), Cells.put,
      v.cells.upsert_of_le hle]
    rfl

/-- What a history of writes leaves are the cells that its writes make, one after the other. -/
theorem writeAll_eq :
    v.writeAll writes =
      (writes.map fun w => if w.1 < v.size then .ok () else .error (.indexOutOfRange w.1 v.size),
        { v with cells := v.cells.putAll writes }) := by
  induction writes generalizing v with
  | nil => rfl
  | cons w writes ih =>
      rw [writeAll_cons, write_eq, ih]
      rfl

namespace Start

variable (start : Start α)

theorem size_vector : start.vector.size = start.size := by
  cases start <;> rfl

theorem indices_vector : start.vector.indices = start.occupied := by
  cases start <;> rfl

variable [Scalar α]

theorem toDense_vector : start.vector.toDense = start.values := by
  cases start with
  | empty size => rfl
  | emptyWithHint size hint => rfl
  | dense values =>
      apply List.ext_getElem
      · exact Cells.length_toDense _
      · intro i hi hi'
        have hi' : i < values.length := hi'
        have hread := (Cells.ofDense values).getElem?_toDense hi'
        rw [Cells.get, Cells.find?_ofDense, List.getElem?_eq_getElem hi', Option.getD_some] at hread
        exact (List.getElem?_eq_some_iff.1 hread).2

end Start

/-- A write is refused exactly when it is past the end, and one that is refused leaves no trace.
After any history of writes the vector has the dense values that the same writes make of a dense
list: at each place the last value written there, or the one at the start. Its occupied places are
those of the start, and behind them every other place that was written, zeros included, once and in
the order of the first writes; the stored values are the values of these places. Room that was
reserved for writes makes no difference. -/
theorem writeAll_refines [Scalar α] (start : Start α) (writes : List (Nat × α)) :
    ∃ v, start.vector.writeAll writes =
        (writes.map fun w =>
          if w.1 < start.size then .ok () else .error (.indexOutOfRange w.1 start.size), v) ∧
      (start.vector.writeAll (writes.filter fun w => w.1 < start.size)).2 = v ∧
      (∀ i x, start.size ≤ i → v.write i x = (.error (.indexOutOfRange i start.size), v)) ∧
      v.toDense = writes.foldl (fun dense w => dense.set w.1 w.2) start.values ∧
      (∀ i, v.get i = if i < start.size then
          .ok ((lastWrite i writes).getD (start.values.getD i 0))
        else .error (.indexOutOfRange i start.size)) ∧
      v.indices = start.occupied ++ firstWrites start.size start.occupied writes ∧
      v.indices.Nodup ∧
      v.values = v.indices.map (fun i => (lastWrite i writes).getD (start.values.getD i 0)) ∧
      ∀ size hint, (Start.emptyWithHint size hint).vector.writeAll writes =
        (Start.empty size).vector.writeAll writes := by
  rw [← start.size_vector, ← start.indices_vector, ← start.toDense_vector]
  generalize start.vector = v
  have hget {i : Nat} (hi : i < v.size) :
      (v.cells.putAll writes).get i = (lastWrite i writes).getD (v.toDense.getD i 0) := by
    rw [Cells.get_putAll _ _ hi, toDense, Cells.getD_toDense]
  refine ⟨{ v with cells := v.cells.putAll writes }, v.writeAll_eq writes, ?_, fun i x hi => ?_,
    v.cells.toDense_putAll writes, fun i => ?_, v.cells.indices_putAll writes,
    Cells.nodup_indices _, ?_, fun _ _ => rfl⟩
  · rw [writeAll_eq, Cells.putAll_filter]
  · rw [write_eq, if_neg (Nat.not_lt.2 hi), Cells.put, Cells.upsert_of_le _ hi]
  · rcases Nat.lt_or_ge i v.size with hlt | hle
    · rw [if_pos hlt, ← hget hlt]
      exact get_eq_ok _ hlt
    · rw [if_neg (Nat.not_lt.2 hle)]
      exact get_eq_error _ hle
  · exact (Cells.values_eq_map_get _).trans
      (List.map_congr_left fun i hi => hget (Cells.lt_of_mem_indices _ hi))

end SparseVector

end LinearModel
