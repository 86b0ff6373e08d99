import Mathlib

/-!
# The first member with a property

What stops at the first member of a list that it cannot use names that member. `FirstAt p xs i x`
says that `x` is that member and `i` its place, counted from zero. It follows the list, so that a
recursion along the list can be compared with it step by step.
-/

namespace LinearModel

theorem map_eq_error_iff {ε β γ : Type} {f : β → γ} {r : Except ε β} {e : ε} :
    f <$> r = .error e ↔ r = .error e := by
  cases r <;> simp [Functor.map, Except.map]

/-- Member `i` of the list is `x`, and is the first one with the property. -/
structure FirstAt {β : Type} (p : β → Prop) (xs : List β) (i : Nat) (x : β) : Prop where
  getElem?_eq : xs[i]? = some x
  holds : p x
  least : ∀ j < i, ∀ y, xs[j]? = some y → ¬ p y

namespace FirstAt

variable {β : Type} {p q : β → Prop} {xs : List β} {x y : β} {i : Nat}

theorem mem (h : FirstAt p xs i x) : x ∈ xs := List.mem_of_getElem? h.getElem?_eq

theorem not_nil : ¬ FirstAt p [] i x := by
  rintro ⟨h, -⟩
  simp at h

@[simp] theorem cons_zero_iff : FirstAt p (y :: xs) 0 x ↔ y = x ∧ p x := by
  constructor
  · intro h
    exact ⟨Option.some.inj h.getElem?_eq, h.holds⟩
  · rintro ⟨rfl, hy⟩
    exact ⟨rfl, hy, fun j hj => absurd hj j.not_lt_zero⟩

@[simp] theorem cons_succ_iff : FirstAt p (y :: xs) (i + 1) x ↔ ¬ p y ∧ FirstAt p xs i x := by
  constructor
  · rintro ⟨hx, hp, hleast⟩
    exact ⟨hleast 0 i.succ_pos y rfl, hx, hp, fun j hj => hleast (j + 1) (Nat.succ_lt_succ hj)⟩
  · rintro ⟨hy, hx, hp, hleast⟩
    refine ⟨hx, hp, fun j hj z hz => ?_⟩
    cases j with
    | zero =>
        cases hz
        exact hy
    | succ j => exact hleast j (Nat.lt_of_succ_lt_succ hj) z hz

theorem congr (h : ∀ y ∈ xs, p y ↔ q y) : FirstAt p xs i x ↔ FirstAt q xs i x := by
  have hmem {j : Nat} {y : β} (hy : xs[j]? = some y) : p y ↔ q y := h y (List.mem_of_getElem? hy)
  constructor
  · rintro ⟨hx, hp, hleast⟩
    exact ⟨hx, (hmem hx).1 hp, fun j hj y hy hq => hleast j hj y hy ((hmem hy).2 hq)⟩
  · rintro ⟨hx, hq, hleast⟩
    exact ⟨hx, (hmem hx).2 hq, fun j hj y hy hp => hleast j hj y hy ((hmem hy).1 hp)⟩

end FirstAt

/-- What is searched for is found at the first place that has it. -/
theorem find?_eq_some_iff_firstAt {β : Type} {p : β → Bool} {xs : List β} {x : β} :
    xs.find? p = some x ↔ ∃ i, FirstAt (fun y => p y = true) xs i x := by
  rw [List.find?_eq_some_iff_getElem]
  constructor
  · rintro ⟨hx, i, hi, rfl, hleast⟩
    refine ⟨i, List.getElem?_eq_getElem hi, hx, fun j hj y hy hp => ?_⟩
    obtain ⟨hlt, rfl⟩ := List.getElem?_eq_some_iff.1 hy
    simpa [hp] using hleast j hj
  · rintro ⟨i, hi, hx, hleast⟩
    obtain ⟨hlt, rfl⟩ := List.getElem?_eq_some_iff.1 hi
    refine ⟨hx, i, hlt, rfl, fun j hj => ?_⟩
    simpa using hleast j hj _ (List.getElem?_eq_getElem (hj.trans hlt))

/-- In a list that is sorted, the first member with a property is the one before which, in the order
of the list, no member has it. -/
theorem find?_eq_some_iff_of_pairwise {β : Type} {r : β → β → Prop} {p : β → Bool} {xs : List β}
    (hsorted : xs.Pairwise r) (hasymm : ∀ x y, r x y → ¬ r y x) (x : β) :
    xs.find? p = some x ↔ x ∈ xs ∧ p x = true ∧ ∀ y ∈ xs, r y x → p y = false := by
  induction hsorted with
  | nil => simp
  | @cons y ys hy _ ih =>
      cases hp : p y with
      | true =>
          rw [List.find?_cons_of_pos hp]
          constructor
          · intro h
            cases h
            refine ⟨List.mem_cons_self, hp, fun z hz hzy => ?_⟩
            rcases List.mem_cons.1 hz with rfl | hz
            · exact absurd hzy (hasymm z z hzy)
            · exact absurd hzy (hasymm x z (hy z hz))
          · rintro ⟨hx, -, hfirst⟩
            rcases List.mem_cons.1 hx with rfl | hx
            · rfl
            · have hnot := hfirst y List.mem_cons_self (hy x hx)
              rw [hp] at hnot
              cases hnot
      | false =>
          rw [List.find?_cons_of_neg (by simp [hp]), ih]
          constructor
          · rintro ⟨hx, hpx, hfirst⟩
            refine ⟨List.mem_cons_of_mem y hx, hpx, fun z hz hzx => ?_⟩
            rcases List.mem_cons.1 hz with rfl | hz
            · exact hp
            · exact hfirst z hz hzx
          · rintro ⟨hx, hpx, hfirst⟩
            rcases List.mem_cons.1 hx with rfl | hx
            · rw [hp] at hpx
              cases hpx
            · exact ⟨hx, hpx, fun z hz => hfirst z (List.mem_cons_of_mem y hz)⟩

end LinearModel
