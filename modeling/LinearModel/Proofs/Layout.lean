import Mathlib
import LinearModel.Program.Edit
import LinearModel.Proofs.Product
import LinearModel.Proofs.Terms

/-!
# Products and the layout of what is multiplied

Products run along stored cells, so two operands that are equal as dense values may be multiplied
with different results: a stored zero that meets an infinity makes the sum no number where an absent
one adds nothing, and another order of the terms rounds otherwise. These are the only two ways
(`same_of_relaid`): what a sum comes to is what the nonzero places of the left operand contribute,
in the order in which those were first written. How the right operand is laid out makes no
difference.
-/

namespace LinearModel

variable {α : Type} [Number α]

open Number (exact Same same_iff)

section Equality

variable [OrderedNumber α]

theorem forall₂_of_beq {β : Type} [BEq β] {xs ys : List β} (h : (xs == ys) = true) :
    List.Forall₂ (fun x y => (x == y) = true) xs ys := by
  induction xs generalizing ys with
  | nil =>
      cases ys with
      | nil => exact .nil
      | cons y ys => cases h
  | cons x xs ih =>
      cases ys with
      | nil => cases h
      | cons y ys =>
          obtain ⟨hxy, hrest⟩ := Bool.and_eq_true_iff.1 h
          exact .cons hxy (ih hrest)

theorem exact_eq_of_beq {x y : α} (h : (x == y) = true) : exact x = exact y :=
  same_iff.1 (.inl h)

theorem map_exact_of_beq {xs ys : List α} (h : (xs == ys) = true) :
    xs.map exact = ys.map exact := by
  rw [← List.forall₂_eq_eq_eq, List.forall₂_map_left_iff, List.forall₂_map_right_iff]
  exact (forall₂_of_beq h).imp fun _ _ => exact_eq_of_beq

/-- Lists of equal values stand for equal values at every place. -/
theorem Cells.exact_get_of_beq {n n' : Nat} {c : Cells α n} {c' : Cells α n'}
    (h : (c.toDense == c'.toDense) = true) (i : Nat) : exact (c.get i) = exact (c'.get i) := by
  have hget {n : Nat} (c : Cells α n) :
      exact (c.get i) = (c.toDense.map exact).getD i (exact (0 : α)) := by
    rw [← c.getD_toDense]
    exact (List.getD_map ..).symm
  rw [hget, hget, map_exact_of_beq h]

end Equality

namespace SparseVector

theorem size_eq_of_beq {v v' : SparseVector α} (h : (v == v') = true) : v.size = v'.size :=
  beq_iff_eq.1 (Bool.and_eq_true_iff.1 h).1

theorem exact_get_of_beq [OrderedNumber α] {v v' : SparseVector α} (h : (v == v') = true)
    (i : Nat) : exact (v.cells.get i) = exact (v'.cells.get i) :=
  Cells.exact_get_of_beq (Bool.and_eq_true_iff.1 h).2 i

/-- The vectors are equal, and their nonzero places were first written in one order. -/
structure Relaid (v v' : SparseVector α) : Prop where
  beq : (v == v') = true
  order : v.cells.nonzeroPlaces = v'.cells.nonzeroPlaces

theorem same_dot [NeutralZero α] {v v' w w' : SparseVector α} (hv : v.Relaid v')
    (hw : (w == w') = true) (hsize : v.size = w.size)
    (hzeros : v.cells.ZerosMeetFinite w.toDense) (hzeros' : v'.cells.ZerosMeetFinite w'.toDense) :
    ∃ a a', v.dot w = .ok a ∧ v'.dot w' = .ok a' ∧ Same a a' := by
  have hsize' : v'.size = w'.size := by
    rw [← size_eq_of_beq hv.beq, hsize, size_eq_of_beq hw]
  refine ⟨v.cells.sumAt w.toDense, v'.cells.sumAt w'.toDense, ?_, ?_, same_iff.2 ?_⟩
  · rw [dot, if_pos hsize, v.dotDense_of_length (w.length_toDense.trans hsize.symm)]
  · rw [dot, if_pos hsize', v'.dotDense_of_length (w'.length_toDense.trans hsize'.symm)]
  · refine Cells.exact_sumAt_congr hv.order (exact_get_of_beq hv.beq) (fun i => ?_) hzeros hzeros'
    rw [toDense, toDense, Cells.getD_toDense, Cells.getD_toDense, exact_get_of_beq hw]

end SparseVector

section Products

theorem exact_get_accumulate [NeutralZero α] {n : Nat} (c : Cells α n) {i : Nat} (hi : i < n)
    (v : α) (j : Nat) :
    exact ((c.accumulate i v).get j) = exact (if i = j then c.get j + v else c.get j) := by
  rw [Cells.get, Cells.find?_accumulate c hi]
  by_cases hj : i = j
  · subst hj
    rw [if_pos rfl, if_pos rfl, Option.getD_some, Cells.get]
    -- An empty place takes the number itself, which stands for no more than zero and that number.
    cases c.find? i with
    | none => exact (NeutralZero.exact_zero_add LawfulNumber.exact_zero v).symm
    | some u => rfl
  · rw [if_neg (Ne.symm hj), if_neg hj]
    rfl

/-- What is added at a place comes to a sum, in the order in which it is added. -/
theorem exact_get_accumulateAll [NeutralZero α] {n : Nat} (c : Cells α n) {es : List (Nat × α)}
    (hes : ∀ e ∈ es, e.1 < n) (j : Nat) :
    exact ((c.accumulateAll es).get j) =
      exact (((es.filter fun e => e.1 = j).map Prod.snd).foldl (· + ·) (c.get j)) := by
  induction es generalizing c with
  | nil => rfl
  | cons e es ih =>
      have hhead := exact_get_accumulate c (hes e List.mem_cons_self) e.2 j
      have hrest := ih (c.accumulate e.1 e.2) fun f hf => hes f (List.mem_cons_of_mem e hf)
      refine hrest.trans ?_
      by_cases hj : e.1 = j
      · rw [if_pos hj] at hhead
        rw [List.filter_cons_of_pos (by simpa using hj)]
        exact exact_foldl_congr rfl hhead
      · rw [if_neg hj] at hhead
        rw [List.filter_cons_of_neg (by simpa using hj)]
        exact exact_foldl_congr rfl hhead

omit [Number α] in
/-- Of entries with keys all different, at most one has a given key. -/
theorem map_snd_filter_fst {es : List (Nat × α)} (hes : (es.map Prod.fst).Nodup) {j : Nat}
    {o : Option α} (ho : ∀ v, o = some v ↔ (j, v) ∈ es) :
    (es.filter fun e => e.1 = j).map Prod.snd = o.toList := by
  induction es with
  | nil =>
      have hnone : o = none := Option.eq_none_iff_forall_ne_some.2 fun v hv => by
        simpa using (ho v).1 hv
      rw [hnone]
      rfl
  | cons e es ih =>
      obtain ⟨hnotin, hnodup⟩ := List.nodup_cons.1 hes
      by_cases hj : e.1 = j
      · have hsome : o = some e.2 := (ho e.2).2 (hj ▸ List.mem_cons_self)
        have hrest : (es.filter fun f => f.1 = j) = [] := by
          rw [List.filter_eq_nil_iff]
          intro f hf hfj
          exact hnotin (List.mem_map.2 ⟨f, hf, (of_decide_eq_true hfj).trans hj.symm⟩)
        rw [List.filter_cons_of_pos (by simpa using hj), hrest, hsome]
        rfl
      · rw [List.filter_cons_of_neg (by simpa using hj)]
        refine ih hnodup fun v => ?_
        rw [ho v, List.mem_cons, or_iff_right]
        rintro rfl
        exact hj rfl

omit [Number α] in
theorem Cells.filter_entries_at {n : Nat} (c : Cells α n) (j : Nat) :
    (c.entries.filter fun e => e.1 = j).map Prod.snd = (c.find? j).toList :=
  map_snd_filter_fst c.nodup_map_fst_entries fun v => c.find?_eq_some_iff j v

end Products

namespace SparseMatrix

/-- What a row times a matrix adds at a place are the stored numbers of the row times those that
they meet in the column of that place. -/
theorem map_snd_products_at {n : Nat} (line : Cells α n) (m : SparseMatrix α) (j : Nat) :
    ((products line m).filter fun e => e.1 = j).map Prod.snd =
      line.terms fun l => (m.line l).find? j := by
  rw [products, List.filter_flatMap, List.map_flatMap, Cells.terms,
    List.filterMap_eq_flatMap_toList]
  refine congrArg (List.flatMap · _) (funext fun e => ?_)
  have hat := congrArg (List.map (e.2 * ·)) ((m.line e.1).filter_entries_at j)
  rw [Option.toList_map, ← hat, List.filter_map, List.map_map, List.map_map]
  rfl

theorem exact_cell_product [NeutralZero α] (m k : SparseMatrix α) {i : Nat} (hi : i < m.rows)
    (j : Nat) : exact ((m.product k).cell i j) =
      exact (Scalar.sum ((m.line i).terms fun l => (k.line l).find? j)) := by
  have hcell : (m.product k).cell i j = (combine (m.line i) k).get j :=
    congrArg (Cells.get · j) (line_product m k hi)
  rw [hcell, combine_eq, exact_get_accumulateAll _ fun e => lt_of_mem_products,
    map_snd_products_at, Scalar.sum]
  -- A cell is filled up from zero, a sum starts from minus zero.
  refine exact_foldl_congr rfl ?_
  rw [NeutralZero.exact_neg_zero]
  exact LawfulNumber.exact_zero

theorem exact_cell_of_beq [OrderedNumber α] {m m' : SparseMatrix α} (h : (m == m') = true)
    (i j : Nat) : exact (m.cell i j) = exact (m'.cell i j) := by
  have hlines : List.Forall₂ (fun c c' => (Cells.toDense c == Cells.toDense c') = true)
      m.lines m'.lines := by
    have hdense := forall₂_of_beq (Bool.and_eq_true_iff.1 h).2
    rwa [toDense, toDense, List.forall₂_map_left_iff, List.forall₂_map_right_iff] at hdense
  by_cases hi : i < m.lines.length
  · have hi' : i < m'.lines.length := hlines.length_eq ▸ hi
    rw [cell, cell, line, line, List.getD_eq_getElem _ _ hi, List.getD_eq_getElem _ _ hi']
    exact Cells.exact_get_of_beq (hlines.get hi hi') j
  · have hi' : ¬ i < m'.lines.length := hlines.length_eq ▸ hi
    rw [cell, cell, line, line, List.getD_eq_default _ _ (by omega),
      List.getD_eq_default _ _ (by omega)]
    rfl

theorem rows_eq_of_beq {m m' : SparseMatrix α} (h : (m == m') = true) : m.rows = m'.rows :=
  beq_iff_eq.1 (Bool.and_eq_true_iff.1 (Bool.and_eq_true_iff.1 h).1).1

theorem cols_eq_of_beq {m m' : SparseMatrix α} (h : (m == m') = true) : m.cols = m'.cols :=
  beq_iff_eq.1 (Bool.and_eq_true_iff.1 (Bool.and_eq_true_iff.1 h).1).2

/-- The matrices are equal, and in each row the nonzero places were first written in one order. -/
structure Relaid (m m' : SparseMatrix α) : Prop where
  beq : (m == m') = true
  order : ∀ i, (m.line i).nonzeroPlaces = (m'.line i).nonzeroPlaces

/-- Where stored numbers of two matrices meet in a product and one of them is zero, the other is
finite. -/
def ZerosMeetFinite (m k : SparseMatrix α) : Prop :=
  ∀ i, ∀ e ∈ (m.line i).entries, ∀ f ∈ (k.line e.1).entries,
    ((e.2 == 0) = true → Number.isFinite f.2 = true) ∧
      ((f.2 == 0) = true → Number.isFinite e.2 = true)

section Contributions

variable [NeutralZero α] {m m' k k' : SparseMatrix α}

theorem contribution_of_zero_left (h : m.ZerosMeetFinite k) (i j : Nat) :
    ∀ e ∈ (m.line i).entries, exact e.2 = .finite 0 →
      Cells.contribution e.2 ((k.line e.1).find? j) = none := by
  intro e he hvalue
  cases hfind : (k.line e.1).find? j with
  | none => rfl
  | some b =>
      have hb := (h i e he (j, b) ((Cells.find?_eq_some_iff _ j b).1 hfind)).1
        ((LawfulNumber.beq_zero_iff e.2).2 hvalue)
      exact Cells.contribution_eq_none (exact_mul_of_zero_left hvalue hb)

/-- A stored zero of the right operand adds no more than an absent one. -/
theorem contribution_of_zero_right (h : m.ZerosMeetFinite k) {i l j : Nat}
    (hl : l ∈ (m.line i).nonzeroPlaces) (hzero : exact (k.cell l j) = .finite 0) :
    Cells.contribution ((m.line i).get l) ((k.line l).find? j) = none := by
  obtain ⟨v, hv, -⟩ := (Cells.mem_nonzeroPlaces_iff _ l).1 hl
  cases hfind : (k.line l).find? j with
  | none => rfl
  | some b =>
      have hcell : k.cell l j = b := by rw [cell, Cells.get, hfind, Option.getD_some]
      have hfinite := (h i (l, v) hv (j, b) ((Cells.find?_eq_some_iff _ j b).1 hfind)).2
        ((LawfulNumber.beq_zero_iff b).2 (hcell ▸ hzero))
      rw [Cells.get_of_mem_entries hv]
      exact Cells.contribution_eq_none (exact_mul_of_zero_right hfinite (hcell ▸ hzero))

theorem contribution_of_ne_zero {l j : Nat} (a : α) (hzero : exact (k.cell l j) ≠ .finite 0) :
    Cells.contribution a ((k.line l).find? j) = Cells.contribution a (some (k.cell l j)) := by
  cases hfind : (k.line l).find? j with
  | none =>
      have hcell : k.cell l j = 0 := by rw [cell, Cells.get, hfind, Option.getD_none]
      exact absurd (hcell ▸ LawfulNumber.exact_zero) hzero
  | some b => rw [cell, Cells.get, hfind, Option.getD_some]

theorem exact_cell_product_congr (hm : m.Relaid m') (hk : (k == k') = true)
    (hzeros : m.ZerosMeetFinite k) (hzeros' : m'.ZerosMeetFinite k') {i : Nat} (hi : i < m.rows)
    (j : Nat) : exact ((m.product k).cell i j) = exact ((m'.product k').cell i j) := by
  rw [exact_cell_product m k hi, exact_cell_product m' k' (rows_eq_of_beq hm.beq ▸ hi)]
  refine Cells.exact_sum_terms_congr (hm.order i) (contribution_of_zero_left hzeros i j)
    (contribution_of_zero_left hzeros' i j) fun l hl => ?_
  have hcell := exact_cell_of_beq hk l j
  -- Where the right operands are zero they may differ in what they store, and neither adds
  -- anything; elsewhere both store the number.
  by_cases hzero : exact (k.cell l j) = .finite 0
  · rw [contribution_of_zero_right hzeros hl hzero,
      contribution_of_zero_right hzeros' (hm.order i ▸ hl) (hcell ▸ hzero)]
  · rw [contribution_of_ne_zero _ hzero, contribution_of_ne_zero _ (hcell ▸ hzero)]
    exact Cells.contribution_congr (exact_cell_of_beq hm.beq i l) hcell

theorem same_mul (hm : m.Relaid m') (hk : (k == k') = true) (h : m.cols = k.rows)
    (hzeros : m.ZerosMeetFinite k) (hzeros' : m'.ZerosMeetFinite k') :
    ∃ p p', m.mul k = .ok p ∧ m'.mul k' = .ok p' ∧ p.shape = p'.shape ∧
      ∀ i < p.rows, ∀ j < p.cols, ∃ a a', p.get i j = .ok a ∧ p'.get i j = .ok a' ∧ Same a a' := by
  have hrows : m.rows = m'.rows := rows_eq_of_beq hm.beq
  have hcols : k.cols = k'.cols := cols_eq_of_beq hk
  have h' : m'.cols = k'.rows := by
    rw [← cols_eq_of_beq hm.beq, h, rows_eq_of_beq hk]
  refine ⟨_, _, mul_eq_ok h, mul_eq_ok h', ?_, fun i hi j hj => ?_⟩
  · rw [shape, shape, rows_product, rows_product, cols_product, cols_product, hrows, hcols]
  · have hi' : i < (m'.product k').rows := by
      rw [rows_product, ← hrows]
      rwa [rows_product] at hi
    have hj' : j < (m'.product k').cols := by
      rw [cols_product, ← hcols]
      exact hj
    refine ⟨_, _, get_eq_ok _ hi hj, get_eq_ok _ hi' hj', same_iff.2 ?_⟩
    rw [rows_product] at hi
    exact exact_cell_product_congr hm hk hzeros hzeros' hi j

end Contributions

end SparseMatrix

/-- Equal answers: the same error, or numbers that are the same. -/
inductive SameAnswer : Except AlgebraError α → Except AlgebraError α → Prop where
  | ok {x y : α} (h : Same x y) : SameAnswer (.ok x) (.ok y)
  | error (e : AlgebraError) : SameAnswer (.error e) (.error e)

theorem SparseVector.sameAnswer_dotDense [NeutralZero α] {v v' : SparseVector α}
    (hv : v.Relaid v') (horientation : v.orientation = v'.orientation) {x : List α}
    (hzeros : v.cells.ZerosMeetFinite x) (hzeros' : v'.cells.ZerosMeetFinite x) :
    SameAnswer (v.dotDense x) (v'.dotDense x) := by
  have hsize : v.size = v'.size := size_eq_of_beq hv.beq
  by_cases hx : x.length = v.size
  · rw [v.dotDense_of_length hx, v'.dotDense_of_length (hx.trans hsize)]
    exact .ok (same_iff.2 (Cells.exact_sumAt_congr hv.order (exact_get_of_beq hv.beq)
      (fun _ => rfl) hzeros hzeros'))
  · rw [dotDense, dotDense, if_neg (Ne.symm hx), if_neg (Ne.symm (hsize ▸ hx)), shape, shape, hsize,
      horientation]
    exact .error _

/-- The constraints are one but for the storage of their coefficients. -/
structure Constraint.Relaid {n n' : Nat} (c : Constraint α n) (c' : Constraint α n') : Prop where
  name : c.name = c'.name
  relation : c.relation = c'.relation
  rhs : c.rhs = c'.rhs
  row : c.row.Relaid c'.row

namespace LinearProgram

/-- The programs are one but for the storage of their coefficient vectors. -/
structure Relaid (lp lp' : LinearProgram α) : Prop where
  unknowns : lp.unknowns.toList = lp'.unknowns.toList
  minimize : lp.minimize = lp'.minimize
  lowerDeclared : lp.lowerDeclared = lp'.lowerDeclared
  upperDeclared : lp.upperDeclared = lp'.upperDeclared
  objective : lp.objectiveRow.Relaid lp'.objectiveRow
  constraints : List.Forall₂ Constraint.Relaid lp.constraints lp'.constraints

/-- Every stored zero of the objective or a constraint meets a finite number in `x`. -/
def ZerosMeetFinite (lp : LinearProgram α) (x : List α) : Prop :=
  lp.objective.ZerosMeetFinite x ∧ ∀ c ∈ lp.constraints, c.coefficients.ZerosMeetFinite x

/-- Two programs say the same about a point. -/
structure Alike (lp lp' : LinearProgram α) (x : List α) : Prop where
  evaluate : SameAnswer (lp.evaluate x) (lp'.evaluate x)
  lhs : List.Forall₂ (fun c c' => SameAnswer (Constraint.lhs c x) (Constraint.lhs c' x))
    lp.constraints lp'.constraints
  isFeasible : lp.isFeasible x = lp'.isFeasible x

theorem accepts_congr [NeutralZero α] {n n' : Nat} {c : Constraint α n} {c' : Constraint α n'}
    (h : c.Relaid c') {y y' : α} (hy : exact y = exact y') : c.accepts y = c'.accepts y' := by
  rw [Constraint.accepts, Constraint.accepts, h.relation, h.rhs]
  cases c'.relation <;> simp only [OrderedNumber.le_eq, hy]
  rw [exact_abs_congr (exact_sub_congr hy c'.rhs)]

theorem dimension_eq_of_relaid {lp lp' : LinearProgram α} (h : lp.Relaid lp') :
    lp.dimension = lp'.dimension :=
  SparseVector.size_eq_of_beq h.objective.beq

section Alike

variable {lp lp' : LinearProgram α} {x : List α}

/-- The zeros of corresponding constraints meet finite numbers on both sides. -/
theorem forall₂_zerosMeetFinite (h : lp.Relaid lp') (hzeros : lp.ZerosMeetFinite x)
    (hzeros' : lp'.ZerosMeetFinite x) : List.Forall₂
      (fun (c : Constraint α lp.dimension) (c' : Constraint α lp'.dimension) =>
        c.coefficients.ZerosMeetFinite x ∧ c'.coefficients.ZerosMeetFinite x ∧ c.Relaid c')
      lp.constraints lp'.constraints := by
  have hright : List.Forall₂
      (fun c' c => c'.coefficients.ZerosMeetFinite x ∧ Constraint.Relaid c c')
      lp'.constraints lp.constraints :=
    (List.forall₂_and_left _ _).2 ⟨hzeros'.2, h.constraints.flip⟩
  exact (List.forall₂_and_left _ _).2 ⟨hzeros.2, hright.flip⟩

variable [NeutralZero α]

theorem all_accepts_congr {n n' : Nat} {cs : List (Constraint α n)} {cs' : List (Constraint α n')}
    (h : List.Forall₂ (fun c c' => c.coefficients.ZerosMeetFinite x ∧
      c'.coefficients.ZerosMeetFinite x ∧ c.Relaid c') cs cs') :
    (cs.all fun c => c.accepts (c.coefficients.sumAt x)) =
      cs'.all fun c => c.accepts (c.coefficients.sumAt x) := by
  induction h with
  | nil => rfl
  | @cons c c' cs cs' hc _ ih =>
      obtain ⟨hzeros, hzeros', hc⟩ := hc
      have haccepts : c.accepts (c.coefficients.sumAt x) = c'.accepts (c'.coefficients.sumAt x) :=
        accepts_congr hc (Cells.exact_sumAt_congr hc.row.order
          (SparseVector.exact_get_of_beq hc.row.beq) (fun _ => rfl) hzeros hzeros')
      rw [List.all_cons, List.all_cons, ih, haccepts]

theorem isFeasible_congr (h : lp.Relaid lp') (hzeros : lp.ZerosMeetFinite x)
    (hzeros' : lp'.ZerosMeetFinite x) : lp.isFeasible x = lp'.isFeasible x := by
  have hdimension := dimension_eq_of_relaid h
  by_cases hx : x.length = lp.dimension
  · rw [lp.isFeasible_of_length hx, lp'.isFeasible_of_length (hdimension ▸ hx), h.unknowns,
      all_accepts_congr (forall₂_zerosMeetFinite h hzeros hzeros')]
  · rw [isFeasible, isFeasible, if_neg hx, if_neg (hdimension ▸ hx), hdimension]

theorem alike_of_relaid (h : lp.Relaid lp') (hzeros : lp.ZerosMeetFinite x)
    (hzeros' : lp'.ZerosMeetFinite x) : lp.Alike lp' x where
  evaluate := SparseVector.sameAnswer_dotDense h.objective rfl hzeros.1 hzeros'.1
  lhs := (forall₂_zerosMeetFinite h hzeros hzeros').imp fun _ _ ⟨hc, hc', hrelaid⟩ =>
    SparseVector.sameAnswer_dotDense hrelaid.row rfl hc hc'
  isFeasible := isFeasible_congr h hzeros hzeros'

end Alike

end LinearProgram

/-- Floating point products depend on the dense values alone as long as the nonzero places of the
left operand were first written in one order and no stored zero meets a number that is not finite.
How the right operand is laid out makes no further difference. -/
theorem same_of_relaid (v v' w w' : SparseVector Float) (m m' k k' : SparseMatrix Float)
    (lp lp' : LinearProgram Float) (x : List Float) :
    (v.Relaid v' → (w == w') = true → v.size = w.size → v.cells.ZerosMeetFinite w.toDense →
      v'.cells.ZerosMeetFinite w'.toDense →
      ∃ a a', v.dot w = .ok a ∧ v'.dot w' = .ok a' ∧ Same a a') ∧
    (m.Relaid m' → (k == k') = true → m.cols = k.rows → m.ZerosMeetFinite k →
      m'.ZerosMeetFinite k' →
      ∃ p p', m.mul k = .ok p ∧ m'.mul k' = .ok p' ∧ p.shape = p'.shape ∧
        ∀ i < p.rows, ∀ j < p.cols,
          ∃ a a', p.get i j = .ok a ∧ p'.get i j = .ok a' ∧ Same a a') ∧
    (lp.Relaid lp' → lp.ZerosMeetFinite x → lp'.ZerosMeetFinite x → lp.Alike lp' x) :=
  ⟨SparseVector.same_dot, SparseMatrix.same_mul, LinearProgram.alike_of_relaid⟩

/-- A slot that was set to zero after it held something else, and one that was never written. -/
def zeroed : SparseVector Float :=
  ⟨4, .column, (((Cells.empty.put 0 5).put 2 7).put 0 0)⟩

def unwritten : SparseVector Float := ⟨4, .row, Cells.empty.put 2 7⟩

/-- A matrix of one row. -/
def singleRow (v : SparseVector Float) : SparseMatrix Float := ⟨v.size, [v.cells]⟩

/-- A column of four that ends in the given row. -/
def columnWith (last : Cells Float 1) : SparseMatrix Float :=
  ⟨1, [.empty, .empty, Cells.empty.put 0 3, last]⟩

/-- One vector as the objective and as the coefficients of a constraint. -/
def constrained (coefficients : SparseVector Float) : LinearProgram Float :=
  (LinearProgram.ofDimension coefficients.size).revise
    [.objective coefficients, .constraint "c" coefficients .le 0]

theorem same_zeroed :
    (∃ a a', zeroed.dot (.ofDense [1, 1, 1, 1]) = .ok a ∧
      unwritten.dot (.ofDense [1, 1, 1, 1]) = .ok a' ∧ Same a a') ∧
    (∃ p p', (singleRow zeroed).mul (columnWith (Cells.empty.put 0 0)) = .ok p ∧
      (singleRow unwritten).mul (columnWith .empty) = .ok p' ∧ p.shape = p'.shape ∧
        ∀ i < p.rows, ∀ j < p.cols,
          ∃ a a', p.get i j = .ok a ∧ p'.get i j = .ok a' ∧ Same a a') ∧
    (constrained zeroed).Alike (constrained unwritten) [1, 1, 1, 1] := by
  obtain ⟨hdot, hmul, halike⟩ := same_of_relaid zeroed unwritten (.ofDense [1, 1, 1, 1])
    (.ofDense [1, 1, 1, 1]) (singleRow zeroed) (singleRow unwritten)
    (columnWith (Cells.empty.put 0 0)) (columnWith .empty) (constrained zeroed)
    (constrained unwritten) [1, 1, 1, 1]
  refine ⟨?_, ?_, ?_⟩
  · exact hdot ⟨by decide +kernel, by decide +kernel⟩ (by decide +kernel) rfl
      (show ∀ e ∈ _, _ by decide +kernel) (show ∀ e ∈ _, _ by decide +kernel)
  · refine hmul ⟨by decide +kernel, ?_⟩ (by decide +kernel) rfl ?_ ?_ <;> rintro (_ | i)
    · decide +kernel
    · rfl
    · decide +kernel
    · nofun
    · decide +kernel
    · nofun
  · refine halike ⟨rfl, rfl, rfl, rfl, ⟨by decide +kernel, by decide +kernel⟩, ?_⟩ ?_ ?_
    · exact .cons ⟨rfl, rfl, rfl, by decide +kernel, by decide +kernel⟩ .nil
    · exact ⟨show ∀ e ∈ _, _ by decide +kernel, show ∀ c ∈ _, ∀ e ∈ _, _ by decide +kernel⟩
    · exact ⟨show ∀ e ∈ _, _ by decide +kernel, show ∀ c ∈ _, ∀ e ∈ _, _ by decide +kernel⟩

/-- The numbers `2 ^ 53`, one and `-2 ^ 53`, written from first to last. -/
def ascending : SparseVector Float := .ofDense [9007199254740992, 1, -9007199254740992]

/-- The same numbers, the one written last. -/
def oneLast : SparseVector Float :=
  ⟨3, .column, ((Cells.empty.put 0 9007199254740992).put 2 (-9007199254740992)).put 1 1⟩

/-- A zero that is stored makes no number of a sum in which it meets an infinity, an absent one
adds nothing; a point is feasible for one and not for the other. Terms in another order are
rounded to another sum. -/
theorem layout_matters :
    (((.empty 1 : SparseVector Float) == .ofDense [0]) = true ∧
      (∃ a a', (SparseVector.empty 1).dot (.ofDense [Number.posInf]) = .ok a ∧
        (SparseVector.ofDense [0]).dot (.ofDense [(Number.posInf : Float)]) = .ok a' ∧
          ¬ Same a a') ∧
      (constrained (.empty 1)).isFeasible [Number.posInf] = .ok true ∧
      (constrained (.ofDense [0])).isFeasible [Number.posInf] = .ok false) ∧
    (ascending == oneLast) = true ∧
      ∃ a a', ascending.dot (.ofDense [1, 1, 1]) = .ok a ∧
        oneLast.dot (.ofDense [1, 1, 1]) = .ok a' ∧ ¬ Same a a' := by
  refine ⟨⟨by decide +kernel, ⟨_, _, rfl, rfl, by decide +kernel⟩, ?_, ?_⟩, by decide +kernel,
    _, _, rfl, rfl, by decide +kernel⟩ <;>
  · rw [LinearProgram.isFeasible_of_length _ rfl]
    exact congrArg Except.ok (by decide +kernel)

end LinearModel
