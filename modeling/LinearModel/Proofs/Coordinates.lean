import Mathlib
import LinearModel.Program.Description
import LinearModel.Proofs.Ascending
import LinearModel.Proofs.Zero

/-!
# The coordinate list of a program

`LinearProgram.coordinates` filters and sorts what each constraint stores. As no place is stored
twice, the sort has one possible result, whatever the storage order, and the triples of all rows
together ascend strictly. They are the coefficients that do not stand for zero, each once, so that
counting and emitting agree, and two programs with equal dense coefficients have one coordinate
list however each came to store them.
-/

namespace LinearModel

namespace CoordinateList

variable {α : Type} [Number α]

theorem admits_eq_true_iff {rows cols row col : Nat} {v : α} :
    admits rows cols (row, col, v) = true ↔
      1 ≤ row ∧ row ≤ rows ∧ 1 ≤ col ∧ col ≤ cols ∧ (v == 0) = false ∧
        Number.isFinite v = true := by
  simp [admits, and_assoc]

theorem validate_eq_ok_iff (m : CoordinateList α) (rows cols : Nat) :
    m.validate rows cols = .ok () ↔ ∀ t ∈ m.triples, admits rows cols t = true := by
  rw [validate]
  split
  · next hfound =>
    have hmem := List.mem_of_find?_eq_some hfound
    have hrefused := List.find?_some hfound
    simp only [reduceCtorEq, false_iff]
    intro hall
    simp [hall _ hmem] at hrefused
  · next hnone => simpa using hnone

end CoordinateList

namespace LinearProgram

variable {α : Type} [Number α] {n m : Nat}

/-- The coefficients of one constraint that are not zero, sorted by column. -/
def ascendingEntries (c : Constraint α n) : List (Nat × α) :=
  (nonzeroEntries c).mergeSort fun e f => e.1 ≤ f.1

theorem rowTriples_eq_map (c : Constraint α n) (row : Nat) :
    rowTriples c row = (ascendingEntries c).map fun e => (row, e.1 + 1, e.2) := rfl

theorem mem_nonzeroEntries_iff (c : Constraint α n) (j : Nat) (v : α) :
    (j, v) ∈ nonzeroEntries c ↔ c.coefficients.find? j = some v ∧ (v == 0) = false := by
  rw [nonzeroEntries, List.mem_filter, c.coefficients.find?_eq_some_iff]
  simp

theorem nodup_nonzeroEntries (c : Constraint α n) :
    ((nonzeroEntries c).map Prod.fst).Nodup :=
  (List.filter_sublist.map Prod.fst).nodup c.coefficients.nodup_map_fst_entries

theorem ascendingEntries_perm (c : Constraint α n) :
    (ascendingEntries c).Perm (nonzeroEntries c) :=
  List.mergeSort_perm _ _

theorem mem_ascendingEntries_iff (c : Constraint α n) (j : Nat) (v : α) :
    (j, v) ∈ ascendingEntries c ↔ c.coefficients.find? j = some v ∧ (v == 0) = false := by
  rw [(ascendingEntries_perm c).mem_iff, mem_nonzeroEntries_iff]

theorem pairwise_le_ascendingEntries (c : Constraint α n) :
    (ascendingEntries c).Pairwise (·.1 ≤ ·.1) :=
  pairwise_le_mergeSort _

theorem pairwise_lt_ascendingEntries (c : Constraint α n) :
    (ascendingEntries c).Pairwise (·.1 < ·.1) :=
  pairwise_lt_mergeSort (nodup_nonzeroEntries c)

/-- Whatever way of sorting by column is used, it can return nothing else. -/
theorem eq_ascendingEntries_of_perm {c : Constraint α n} {es : List (Nat × α)}
    (hperm : es.Perm (nonzeroEntries c)) (hsorted : es.Pairwise (·.1 ≤ ·.1)) :
    es = ascendingEntries c :=
  eq_mergeSort_of_perm (nodup_nonzeroEntries c) hperm hsorted

theorem length_ascendingEntries (c : Constraint α n) :
    (ascendingEntries c).length =
      (c.coefficients.values.filter fun v => !(v == 0)).length := by
  rw [(ascendingEntries_perm c).length_eq, ← c.coefficients.map_snd_entries, List.filter_map,
    List.length_map]
  rfl

/-- Two constraints have the same dense coefficients: at every place they hold the very same
number, or numbers that are equal. -/
def SameDense (c : Constraint α n) (c' : Constraint α m) : Prop :=
  ∀ j, c.coefficients.get j = c'.coefficients.get j ∨
    (c.coefficients.get j == c'.coefficients.get j) = true

/-- The triples of constraints whose rows are numbered behind `k`. -/
def triplesFrom (k : Nat) (cs : List (Constraint α n)) : List (Nat × Nat × α) :=
  (cs.zipIdx k).flatMap fun (c, i) => rowTriples c (i + 1)

theorem triplesFrom_nil (k : Nat) : triplesFrom k ([] : List (Constraint α n)) = [] := rfl

theorem triplesFrom_cons (k : Nat) (c : Constraint α n) (cs : List (Constraint α n)) :
    triplesFrom k (c :: cs) = rowTriples c (k + 1) ++ triplesFrom (k + 1) cs := rfl

theorem coordinates_eq (lp : LinearProgram α) :
    lp.coordinates = .ofTriples (triplesFrom 0 lp.constraints) := rfl

theorem triples_coordinates (lp : LinearProgram α) :
    lp.coordinates.triples = triplesFrom 0 lp.constraints := by
  rw [coordinates_eq, CoordinateList.triples_ofTriples]

theorem mem_rowTriples_iff (c : Constraint α n) (row r col : Nat) (v : α) :
    (r, col, v) ∈ rowTriples c row ↔
      r = row ∧ 1 ≤ col ∧ c.coefficients.find? (col - 1) = some v ∧ (v == 0) = false := by
  rw [rowTriples_eq_map, List.mem_map]
  constructor
  · rintro ⟨⟨j, w⟩, hmem, heq⟩
    cases heq
    exact ⟨rfl, Nat.succ_pos j, (mem_ascendingEntries_iff c j w).1 hmem⟩
  · rintro ⟨rfl, hcol, hv⟩
    refine ⟨(col - 1, v), (mem_ascendingEntries_iff c _ v).2 hv, ?_⟩
    rw [Nat.sub_add_cancel hcol]

theorem mem_triplesFrom_iff (k : Nat) (cs : List (Constraint α n)) (r col : Nat) (v : α) :
    (r, col, v) ∈ triplesFrom k cs ↔
      ∃ i c, cs[i]? = some c ∧ r = k + i + 1 ∧ 1 ≤ col ∧
        c.coefficients.find? (col - 1) = some v ∧ (v == 0) = false := by
  induction cs generalizing k with
  | nil => simp [triplesFrom_nil]
  | cons c cs ih =>
      rw [triplesFrom_cons, List.mem_append, mem_rowTriples_iff, ih]
      constructor
      · rintro (⟨rfl, hrest⟩ | ⟨i, c', hi, rfl, hrest⟩)
        · exact ⟨0, c, rfl, rfl, hrest⟩
        · exact ⟨i + 1, c', hi, by omega, hrest⟩
      · rintro ⟨i, c', hi, hr, hrest⟩
        cases i with
        | zero =>
            cases hi
            exact .inl ⟨hr, hrest⟩
        | succ i => exact .inr ⟨i, c', hi, by omega, hrest⟩

def Precedes (s t : Nat × Nat × α) : Prop := s.1 < t.1 ∨ s.1 = t.1 ∧ s.2.1 < t.2.1

theorem pairwise_rowTriples (c : Constraint α n) (row : Nat) :
    (rowTriples c row).Pairwise Precedes := by
  rw [rowTriples_eq_map, List.pairwise_map]
  exact (pairwise_lt_ascendingEntries c).imp fun h => .inr ⟨rfl, Nat.succ_lt_succ h⟩

theorem pairwise_triplesFrom (k : Nat) (cs : List (Constraint α n)) :
    (triplesFrom k cs).Pairwise Precedes := by
  induction cs generalizing k with
  | nil => exact List.Pairwise.nil
  | cons c cs ih =>
      rw [triplesFrom_cons, List.pairwise_append]
      refine ⟨pairwise_rowTriples c (k + 1), ih (k + 1), ?_⟩
      rintro ⟨r, col, v⟩ hs ⟨r', col', v'⟩ ht
      obtain ⟨rfl, -⟩ := (mem_rowTriples_iff c _ r col v).1 hs
      obtain ⟨i, -, -, rfl, -⟩ := (mem_triplesFrom_iff _ cs r' col' v').1 ht
      left
      show k + 1 < k + 1 + i + 1
      omega

theorem foldl_count_eq (k count : Nat) (cs : List (Constraint α n)) :
    cs.foldl (fun n c => n + (c.coefficients.values.filter fun v => !(v == 0)).length) count =
      count + (triplesFrom k cs).length := by
  induction cs generalizing k count with
  | nil => rfl
  | cons c cs ih =>
      rw [List.foldl_cons, ih (k + 1), triplesFrom_cons, List.length_append, rowTriples_eq_map,
        List.length_map, length_ascendingEntries, Nat.add_assoc]

theorem length_triplesFrom (lp : LinearProgram α) :
    (triplesFrom 0 lp.constraints).length = lp.nonzeroCount := by
  rw [nonzeroCount, foldl_count_eq 0, Nat.zero_add]

theorem isFinite_of_exact_eq_zero {v : α} (h : Number.exact v = .finite 0) :
    Number.isFinite v = true := by
  simp [Number.isFinite, h]

section Lawful

variable [LawfulNumber α]

theorem beq_zero_eq_false_iff (v : α) : (v == 0) = false ↔ Number.exact v ≠ .finite 0 := by
  rw [ne_eq, ← LawfulNumber.beq_zero_iff, Bool.not_eq_true]

/-- The triples are the stored coefficients that do not stand for zero, at their places. -/
theorem mem_triples_coordinates_iff (lp : LinearProgram α) (row col : Nat) (v : α) :
    (row, col, v) ∈ lp.coordinates.triples ↔
      1 ≤ row ∧ row ≤ lp.constraints.length ∧ 1 ≤ col ∧ col ≤ lp.dimension ∧
        ∃ c, lp.constraints[row - 1]? = some c ∧ c.coefficients.find? (col - 1) = some v ∧
          Number.exact v ≠ .finite 0 := by
  rw [triples_coordinates, mem_triplesFrom_iff]
  constructor
  · rintro ⟨i, c, hi, rfl, hcol, hv, hzero⟩
    have hrow : i < lp.constraints.length := (List.getElem?_eq_some_iff.1 hi).1
    have hlt : col - 1 < lp.dimension :=
      c.coefficients.lt_of_mem_indices ((c.coefficients.mem_indices_iff _).2 (by simp [hv]))
    refine ⟨by omega, by omega, hcol, by omega, c, ?_, hv, (beq_zero_eq_false_iff v).1 hzero⟩
    rwa [Nat.zero_add, Nat.add_sub_cancel]
  · rintro ⟨hrow, -, hcol, -, c, hc, hv, hzero⟩
    exact ⟨row - 1, c, hc, by omega, hcol, hv, (beq_zero_eq_false_iff v).2 hzero⟩

/-- Every place of the coordinate list is in range, so only a value can be refused. -/
theorem validate_coordinates_eq_ok_iff (lp : LinearProgram α) :
    lp.coordinates.validate lp.constraints.length lp.dimension = .ok () ↔
      ∀ c ∈ lp.constraints, ∀ v ∈ c.coefficients.values, Number.isFinite v = true := by
  rw [CoordinateList.validate_eq_ok_iff]
  constructor
  · intro hadmits c hc v hv
    by_cases hzero : Number.exact v = .finite 0
    · exact isFinite_of_exact_eq_zero hzero
    · obtain ⟨i, hi⟩ := List.getElem?_of_mem hc
      rw [← c.coefficients.map_snd_entries] at hv
      obtain ⟨⟨j, w⟩, hentry, rfl⟩ := List.mem_map.1 hv
      have hfind := (c.coefficients.find?_eq_some_iff j w).2 hentry
      have hmem : (i + 1, j + 1, w) ∈ lp.coordinates.triples := by
        rw [triples_coordinates, mem_triplesFrom_iff]
        exact ⟨i, c, hi, by omega, by omega, hfind, (beq_zero_eq_false_iff w).2 hzero⟩
      exact (CoordinateList.admits_eq_true_iff.1 (hadmits _ hmem)).2.2.2.2.2
  · rintro hfinite ⟨row, col, v⟩ hmem
    obtain ⟨hrow, hle, hcol, hle', c, hc, hv, hzero⟩ :=
      (mem_triples_coordinates_iff lp row col v).1 hmem
    have hvalue : v ∈ c.coefficients.values := by
      rw [← c.coefficients.map_snd_entries]
      exact List.mem_map.2 ⟨_, (c.coefficients.find?_eq_some_iff _ _).1 hv, rfl⟩
    exact CoordinateList.admits_eq_true_iff.2 ⟨hrow, hle, hcol, hle',
      (beq_zero_eq_false_iff v).2 hzero, hfinite c (List.mem_of_getElem? hc) v hvalue⟩

theorem SameDense.eq_or_zero {c : Constraint α n} {c' : Constraint α m} (h : SameDense c c')
    (j : Nat) : c.coefficients.get j = c'.coefficients.get j ∨
      Number.exact (c.coefficients.get j) = .finite 0 ∧
        Number.exact (c'.coefficients.get j) = .finite 0 :=
  (h j).elim .inl LawfulNumber.eq_or_zero_of_beq

theorem find?_eq_some_of_eq_or_zero {c : Constraint α n} {c' : Constraint α m} {j : Nat} {v : α}
    (hsame : c.coefficients.get j = c'.coefficients.get j ∨
      Number.exact (c.coefficients.get j) = .finite 0 ∧
        Number.exact (c'.coefficients.get j) = .finite 0)
    (hv : c.coefficients.find? j = some v) (hzero : (v == 0) = false) :
    c'.coefficients.find? j = some v := by
  have hne : Number.exact v ≠ .finite 0 := (beq_zero_eq_false_iff v).1 hzero
  have hget : c.coefficients.get j = v := by rw [Cells.get, hv, Option.getD_some]
  rw [hget] at hsame
  have hget' : v = c'.coefficients.get j := hsame.resolve_right fun h => hne h.1
  cases hfind : c'.coefficients.find? j with
  | none =>
      rw [Cells.get, hfind, Option.getD_none] at hget'
      exact absurd (hget' ▸ LawfulNumber.exact_zero) hne
  | some w => rw [hget', Cells.get, hfind, Option.getD_some]

theorem rowTriples_eq_of_sameDense {c : Constraint α n} {c' : Constraint α m}
    (hsame : SameDense c c') (row : Nat) : rowTriples c row = rowTriples c' row := by
  have hperm : (ascendingEntries c).Perm (nonzeroEntries c') := by
    refine (ascendingEntries_perm c).trans ((List.perm_ext_iff_of_nodup
      (nodup_nonzeroEntries c).of_map (nodup_nonzeroEntries c').of_map).2 ?_)
    rintro ⟨j, v⟩
    rw [mem_nonzeroEntries_iff, mem_nonzeroEntries_iff]
    have hplace := hsame.eq_or_zero j
    constructor
    · intro h
      exact ⟨find?_eq_some_of_eq_or_zero hplace h.1 h.2, h.2⟩
    · intro h
      exact ⟨find?_eq_some_of_eq_or_zero (hplace.imp Eq.symm And.symm) h.1 h.2, h.2⟩
  rw [rowTriples_eq_map, rowTriples_eq_map,
    eq_ascendingEntries_of_perm hperm (pairwise_le_ascendingEntries c)]

theorem triplesFrom_eq_of_sameDense {cs : List (Constraint α n)} {cs' : List (Constraint α m)}
    (hsame : List.Forall₂ SameDense cs cs') (k : Nat) : triplesFrom k cs = triplesFrom k cs' := by
  induction hsame generalizing k with
  | nil => rfl
  | cons hhead _ ih =>
      rw [triplesFrom_cons, triplesFrom_cons, rowTriples_eq_of_sameDense hhead, ih]

end Lawful

/-- The coordinate list of a program is the list of its nonzero cells. Its three lists have the
length that counting predicts; its triples ascend strictly, rows first, and are the stored
coefficients that do not stand for zero. Hence only a coefficient that is not finite makes it
invalid, and programs with equal dense coefficients have one list, whatever was written in which
order, zeros included. -/
theorem coordinates_spec (lp : LinearProgram Float) :
    (lp.coordinates.rows.length = lp.nonzeroCount ∧
      lp.coordinates.cols.length = lp.nonzeroCount ∧
      lp.coordinates.length = lp.nonzeroCount) ∧
    lp.coordinates.triples.Pairwise Precedes ∧
    (∀ row col v, (row, col, v) ∈ lp.coordinates.triples ↔
      1 ≤ row ∧ row ≤ lp.constraints.length ∧ 1 ≤ col ∧ col ≤ lp.dimension ∧
        ∃ c, lp.constraints[row - 1]? = some c ∧ c.coefficients.find? (col - 1) = some v ∧
          Number.exact v ≠ .finite 0) ∧
    (lp.coordinates.validate lp.constraints.length lp.dimension = .ok () ↔
      ∀ c ∈ lp.constraints, ∀ v ∈ c.coefficients.values, Number.isFinite v = true) ∧
    ∀ lp' : LinearProgram Float, List.Forall₂ SameDense lp.constraints lp'.constraints →
      lp'.coordinates = lp.coordinates := by
  have hlength := lp.length_triplesFrom
  refine ⟨⟨?_, ?_, ?_⟩, ?_, mem_triples_coordinates_iff lp, validate_coordinates_eq_ok_iff lp, ?_⟩
  · rw [coordinates_eq, CoordinateList.ofTriples, List.length_map, hlength]
  · rw [coordinates_eq, CoordinateList.ofTriples, List.length_map, hlength]
  · rw [coordinates_eq, CoordinateList.length_ofTriples, hlength]
  · rw [triples_coordinates]
    exact pairwise_triplesFrom 0 lp.constraints
  · intro lp' hsame
    rw [coordinates_eq, coordinates_eq, triplesFrom_eq_of_sameDense hsame]

end LinearProgram

end LinearModel
