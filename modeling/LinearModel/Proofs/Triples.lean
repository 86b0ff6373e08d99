import Mathlib
import LinearModel.Data.Records
import LinearModel.Proofs.LastOptimum
import LinearModel.Proofs.Refusal

/-!
# Three lists side by side

A coordinate list is three lists, and nothing makes them equally long: they may be read from a text
one by one. Its triples end with the shortest of the three, and those are all that is looked at when
it is validated and all that an engine gets. Its length is that of the values alone, which a
recorder logs. For lists of one length (`CoordinateList.Parallel`), which all lists are that were
written triple by triple, the two agree and every number has been looked at
(`CoordinateList.counts_triples`); for others they need not (`CoordinateList.counts_uneven`).
-/

namespace LinearModel

namespace CoordinateList

variable {α : Type}

/-- The three lists have one length. -/
structure Parallel (m : CoordinateList α) : Prop where
  rows_eq : m.rows.length = m.values.length
  cols_eq : m.cols.length = m.values.length

theorem parallel_ofTriples (ts : List (Nat × Nat × α)) : (ofTriples ts).Parallel :=
  ⟨by simp [ofTriples], by simp [ofTriples]⟩

section Triples

variable (m : CoordinateList α)

theorem length_triples :
    m.triples.length = min m.rows.length (min m.cols.length m.values.length) := by
  rw [triples, List.length_zip, List.length_zip]

theorem getElem?_triples_eq_some_iff {i row col : Nat} {v : α} :
    m.triples[i]? = some (row, col, v) ↔
      m.rows[i]? = some row ∧ m.cols[i]? = some col ∧ m.values[i]? = some v := by
  rw [triples, List.getElem?_zip_eq_some, List.getElem?_zip_eq_some]

theorem length_eq_iff : m.length = m.triples.length ↔
    m.values.length ≤ m.rows.length ∧ m.values.length ≤ m.cols.length := by
  rw [length, length_triples]
  omega

variable {m}

theorem Parallel.length_eq (h : m.Parallel) : m.length = m.triples.length :=
  m.length_eq_iff.2 ⟨h.rows_eq.ge, h.cols_eq.ge⟩

/-- Lists of one length are those of their triples. -/
theorem Parallel.ofTriples_triples (h : m.Parallel) : ofTriples m.triples = m := by
  obtain ⟨hrows, hcols⟩ := h
  have hzip : (m.cols.zip m.values).length = m.rows.length := by
    rw [List.length_zip, hcols, min_self, hrows]
  have hrest : m.triples.map Prod.snd = m.cols.zip m.values := List.map_snd_zip hzip.le
  have hfst : m.triples.map (fun t => t.1) = m.rows := List.map_fst_zip hzip.ge
  have hsnd : m.triples.map (fun t => t.2.1) = m.cols := by
    rw [← List.map_fst_zip hcols.le, ← hrest, List.map_map]
    rfl
  have hthd : m.triples.map (fun t => t.2.2) = m.values := by
    rw [← List.map_snd_zip hcols.ge, ← hrest, List.map_map]
    rfl
  rw [ofTriples, hfst, hsnd, hthd]

/-- Side by side, all triples are well formed when all members of all lists are. -/
theorem Parallel.forall_triples_iff (h : m.Parallel) {p q : Nat → Prop} {r : α → Prop} :
    (∀ t ∈ m.triples, p t.1 ∧ q t.2.1 ∧ r t.2.2) ↔
      (∀ row ∈ m.rows, p row) ∧ (∀ col ∈ m.cols, q col) ∧ ∀ v ∈ m.values, r v := by
  rw [← h.ofTriples_triples, triples_ofTriples]
  simp only [ofTriples, List.forall_mem_map, ← forall_and]

end Triples

section Validate

variable [Number α] {m : CoordinateList α} {rows cols : Nat}

theorem validate_eq_error_iff_firstAt (e : SolveError α) :
    m.validate rows cols = .error e ↔ ∃ i row col v,
      FirstAt (fun t => admits rows cols t = false) m.triples i (row, col, v) ∧
        e = .invalidEntry row col v := by
  rw [validate_eq_error_iff]
  simp only [find?_eq_some_iff_firstAt, Bool.not_eq_true']
  constructor
  · rintro ⟨row, col, v, ⟨i, hi⟩, rfl⟩
    exact ⟨i, row, col, v, hi, rfl⟩
  · rintro ⟨i, row, col, v, hi, rfl⟩
    exact ⟨row, col, v, ⟨i, hi⟩, rfl⟩

theorem validate_eq_ok_iff_getElem? :
    m.validate rows cols = .ok () ↔ ∀ (i row col : Nat) (v : α),
      m.rows[i]? = some row → m.cols[i]? = some col → m.values[i]? = some v →
        (1 ≤ row ∧ row ≤ rows) ∧ (1 ≤ col ∧ col ≤ cols) ∧
          (v == 0) = false ∧ Number.isFinite v = true := by
  rw [validate_eq_ok_iff]
  constructor
  · intro h i row col v hrow hcol hv
    have hmem : (row, col, v) ∈ m.triples :=
      List.mem_of_getElem? (m.getElem?_triples_eq_some_iff.2 ⟨hrow, hcol, hv⟩)
    simpa only [admits_eq_true_iff, and_assoc] using h _ hmem
  · rintro h ⟨row, col, v⟩ ht
    obtain ⟨i, hi⟩ := List.mem_iff_getElem?.1 ht
    obtain ⟨hrow, hcol, hv⟩ := m.getElem?_triples_eq_some_iff.1 hi
    simpa only [admits_eq_true_iff, and_assoc] using h i row col v hrow hcol hv

theorem Parallel.validate_eq_ok_iff (h : m.Parallel) :
    m.validate rows cols = .ok () ↔
      (∀ row ∈ m.rows, 1 ≤ row ∧ row ≤ rows) ∧ (∀ col ∈ m.cols, 1 ≤ col ∧ col ≤ cols) ∧
        ∀ v ∈ m.values, (v == 0) = false ∧ Number.isFinite v = true := by
  rw [← h.forall_triples_iff, CoordinateList.validate_eq_ok_iff]
  refine forall₂_congr fun t _ => ?_
  rw [admits_eq_true_iff]
  simp only [and_assoc]

end Validate

end CoordinateList

namespace BufferedEngine

variable {α : Type}

theorem sum_length_modify {β : Type} {terms : List (List β)} {row : Nat} (h : row < terms.length)
    (x : β) : ((terms.modify row (· ++ [x])).map List.length).sum =
      (terms.map List.length).sum + 1 := by
  induction terms generalizing row with
  | nil => exact absurd h row.not_lt_zero
  | cons before rest ih =>
      cases row with
      | zero => simp [Nat.add_right_comm]
      | succ row => simp [ih (Nat.lt_of_succ_lt_succ h), Nat.add_assoc]

/-- Every triple becomes one term of one row. -/
theorem sum_length_gather? {cols : Nat} {triples : List (Nat × Nat × α)}
    {terms gathered : List (List (Nat × α))} (h : gather? cols triples terms = some gathered) :
    (gathered.map List.length).sum = (terms.map List.length).sum + triples.length := by
  induction triples generalizing terms with
  | nil =>
      cases h
      rfl
  | cons t rest ih =>
      obtain ⟨_ | row, _ | col, v⟩ := t
      · cases h
      · cases h
      · cases h
      · obtain ⟨⟨hrow, -⟩, hrest⟩ := Option.ite_none_right_eq_some.1 h
        rw [ih hrest, sum_length_modify hrow, List.length_cons, Nat.add_assoc, Nat.add_comm 1]

variable [Number α]

theorem load_eq_ok_iff {b : BufferedEngine α} {m : CoordinateList α} :
    (Backend.load b m).1 = .ok () ↔ m.validate b.rows.length b.columns.length = .ok () := by
  show (b.load m).1 = _ ↔ _
  rw [load]
  cases m.validate b.rows.length b.columns.length <;> simp

/-- A matrix that is accepted reaches the engine with all of its triples. -/
theorem exists_gather?_of_load {b : BufferedEngine α} {m : CoordinateList α}
    (h : (Backend.load b m).1 = .ok ()) :
    ∃ terms, gather? b.columns.length m.triples (List.replicate b.rows.length []) = some terms ∧
      (terms.map List.length).sum = m.triples.length := by
  have hvalid : m.validate b.rows.length b.columns.length = .ok () := load_eq_ok_iff.1 h
  have hrange : ({ b with matrix := m } : BufferedEngine α).InRange := inRange_of_validate hvalid
  obtain ⟨terms, hterms⟩ :
      ∃ terms, gather? b.columns.length m.triples (List.replicate b.rows.length []) = some terms :=
    ⟨_, (gather?_matrix_eq_some_iff { b with matrix := m }).2 ⟨hrange, rfl⟩⟩
  refine ⟨terms, hterms, ?_⟩
  rw [sum_length_gather? hterms]
  simp

end BufferedEngine

namespace CoordinateList

variable {α : Type} [Number α]

/-- What is counted is the values, what is looked at and handed on the triples. A list is accepted
when all its triples are well formed, and otherwise refused with the first that is not; one that is
accepted gives the engine one term for each triple. The recorder logs the length, which is the
number of triples exactly as long as no value is without a row or a column. In lists of one length,
such as those that are written triple by triple, it always is, and being accepted is being well
formed in every member of every list. -/
theorem counts_triples (m : CoordinateList α) (rows cols : Nat) :
    m.triples.length = min m.rows.length (min m.cols.length m.values.length) ∧
    (m.validate rows cols = .ok () ↔ ∀ (i row col : Nat) (v : α),
      m.rows[i]? = some row → m.cols[i]? = some col → m.values[i]? = some v →
        (1 ≤ row ∧ row ≤ rows) ∧ (1 ≤ col ∧ col ≤ cols) ∧
          (v == 0) = false ∧ Number.isFinite v = true) ∧
    (∀ e, m.validate rows cols = .error e ↔ ∃ i row col v,
      FirstAt (fun t => admits rows cols t = false) m.triples i (row, col, v) ∧
        e = .invalidEntry row col v) ∧
    (∀ b : BufferedEngine α, (Backend.load b m).1 = .ok () →
      ∃ terms, BufferedEngine.gather? b.columns.length m.triples
          (List.replicate b.rows.length []) = some terms ∧
        (terms.map List.length).sum = m.triples.length) ∧
    (∀ r : Recorder α, (Backend.load r m).2.log = r.log ++ [.load m.length]) ∧
    (m.length = m.triples.length ↔
      m.values.length ≤ m.rows.length ∧ m.values.length ≤ m.cols.length) ∧
    (∀ ts : List (Nat × Nat × α), (ofTriples ts).Parallel) ∧
    (m.Parallel → m.length = m.triples.length ∧
      (m.validate rows cols = .ok () ↔
        (∀ row ∈ m.rows, 1 ≤ row ∧ row ≤ rows) ∧ (∀ col ∈ m.cols, 1 ≤ col ∧ col ≤ cols) ∧
          ∀ v ∈ m.values, (v == 0) = false ∧ Number.isFinite v = true)) := by
  refine ⟨m.length_triples, validate_eq_ok_iff_getElem?, validate_eq_error_iff_firstAt,
    fun b => BufferedEngine.exists_gather?_of_load, fun r => ?_, m.length_eq_iff,
    parallel_ofTriples, fun h => ⟨h.length_eq, h.validate_eq_ok_iff⟩⟩
  show (r.load m).2.log = _
  rw [Recorder.load]
  cases m.validate (r.note _).rowBounds.length (r.note _).columnBounds.length <;> rfl

/-- Two triples of a matrix that has two rows and two columns. -/
theorem counts_triples_pair :
    (⟨[1, 2], [2, 1], [3, -4]⟩ : CoordinateList Float).Parallel ∧
    (⟨[1, 2], [2, 1], [3, -4]⟩ : CoordinateList Float).validate 2 2 = .ok () ∧
    ∀ v ∈ ([3, -4] : List Float), (v == 0) = false ∧ Number.isFinite v = true := by
  obtain ⟨-, -, -, -, -, -, -, hparallel⟩ :=
    counts_triples (⟨[1, 2], [2, 1], [3, -4]⟩ : CoordinateList Float) 2 2
  have h : (⟨[1, 2], [2, 1], [3, -4]⟩ : CoordinateList Float).Parallel := ⟨rfl, rfl⟩
  have hvalid : (⟨[1, 2], [2, 1], [3, -4]⟩ : CoordinateList Float).validate 2 2 = .ok () := by
    decide +kernel
  exact ⟨h, hvalid, ((hparallel h).2.1 hvalid).2.2⟩

/-- A text with a value too many is read, and the list accepted. Its length is two, as is logged;
it has one triple. -/
theorem counts_uneven : ∃ m : CoordinateList Float,
    (Json.readText read "\x7b\"rows\":[1],\"cols\":[1],\"values\":[1,2]\x7d").toOption = some m ∧
    m.validate 1 1 = .ok () ∧ m.values.length ≠ m.rows.length ∧ m.triples.length = 1 ∧
    (Backend.performAll (Recorder.new : Recorder Float)
      [.tell (.addColumns 1), .tell (.addRows 1), .load m]).log =
        [.addColumns 1, .addRows 1, .load 2] := by
  refine ⟨⟨[1], [1], [1, 2]⟩, ?_, ?_, ?_, ?_, ?_⟩
  all_goals decide +kernel

end CoordinateList

end LinearModel
