/-!
# Storage of one axis

What an axis stores: two parallel lists, the occupied places and the values they hold, in the order
in which the places were first written, and a lookup from a place to its position in the lists. A
write to an occupied place goes through the lookup and changes a value; any other write appends a
place and enters it. `Storage.Built n` says that such writes, at places below `n`, are all that
happened. That the three parts agree is then a fact about every history (`Storage.Sound`), which
`Storage.sound_of_built` proves along the history.
-/

namespace LinearModel

/-- The occupied places and their values as parallel lists, and where a place stands in them. -/
structure Storage (α : Type) where
  index : List Nat
  data : List α
  slots : Nat → Option Nat

namespace Storage

variable {α : Type}

def empty : Storage α := ⟨[], [], fun _ => none⟩

/-- Every place of a dense list is occupied, zeros included. -/
def ofDense (xs : List α) : Storage α where
  index := List.range xs.length
  data := xs
  slots := fun i => if i < xs.length then some i else none

def occupy (s : Storage α) (i : Nat) (v : α) : Storage α where
  index := s.index ++ [i]
  data := s.data ++ [v]
  slots := fun j => if j = i then some s.index.length else s.slots j

/-- Changes the value of place `i` where it has one, and appends it with a fresh value where it has
none. -/
def write (s : Storage α) (i : Nat) (fresh : α) (change : α → α) : Storage α :=
  match s.slots i with
  | some p => { s with data := s.data.modify p change }
  | none => s.occupy i fresh

def map (f : α → α) (s : Storage α) : Storage α := { s with data := s.data.map f }

def find? (s : Storage α) (i : Nat) : Option α := (s.slots i).bind fun p => s.data[p]?

def entries (s : Storage α) : List (Nat × α) := s.index.zip s.data

/-- The values of all `n` places: zeros, over which the stored values are written one by one. -/
def toDense [Zero α] (n : Nat) (s : Storage α) : List α :=
  s.entries.foldl (fun dense e => dense.set e.1 e.2) (List.replicate n 0)

/-- The storages of an axis with `n` places: an empty one, a dense list of `n` values, and what
writes to places below `n` and changes of all values make of these. -/
inductive Built (n : Nat) : Storage α → Prop where
  | empty : Built n .empty
  | dense {xs : List α} (h : xs.length = n) : Built n (.ofDense xs)
  | write {s : Storage α} {i : Nat} (fresh : α) (change : α → α) (hi : i < n) (h : Built n s) :
      Built n (s.write i fresh change)
  | map {s : Storage α} (f : α → α) (h : Built n s) : Built n (s.map f)

/-- The three parts agree: the lists have one length, no place is listed twice, every place lies on
the axis, and the lookup finds exactly the listed places where they stand. -/
structure Sound (n : Nat) (s : Storage α) : Prop where
  length_eq : s.index.length = s.data.length
  nodup : s.index.Nodup
  lt_of_mem : ∀ i ∈ s.index, i < n
  slots_eq_some_iff : ∀ i p, s.slots i = some p ↔ s.index[p]? = some i

namespace Sound

variable {n : Nat} {s : Storage α}

theorem lt_length (h : s.Sound n) {i p : Nat} (hp : s.slots i = some p) :
    p < s.data.length := by
  obtain ⟨hlt, _⟩ := List.getElem?_eq_some_iff.1 ((h.slots_eq_some_iff i p).1 hp)
  exact h.length_eq ▸ hlt

theorem slots_eq_none_iff (h : s.Sound n) (i : Nat) : s.slots i = none ↔ i ∉ s.index := by
  constructor
  · intro hnone hmem
    obtain ⟨p, hp⟩ := List.mem_iff_getElem?.1 hmem
    simp [(h.slots_eq_some_iff i p).2 hp] at hnone
  · intro hnot
    cases hp : s.slots i with
    | none => rfl
    | some p => exact absurd (List.mem_of_getElem? ((h.slots_eq_some_iff i p).1 hp)) hnot

theorem empty : (Storage.empty : Storage α).Sound n where
  length_eq := rfl
  nodup := List.nodup_nil
  lt_of_mem := by simp [Storage.empty]
  slots_eq_some_iff := by simp [Storage.empty]

theorem dense {xs : List α} (hlen : xs.length = n) : (ofDense xs).Sound n where
  length_eq := List.length_range
  nodup := List.nodup_range
  lt_of_mem := by
    intro i hi
    exact hlen ▸ List.mem_range.1 hi
  slots_eq_some_iff := by
    intro i p
    by_cases hi : i < xs.length <;> by_cases hp : p < xs.length <;>
      simp [ofDense, hi, hp, eq_comm] <;> omega

/-- A place that is not listed yet may be appended: it stands where the lists ended. -/
theorem occupy (h : s.Sound n) {i : Nat} (hi : i < n) (hfree : s.slots i = none) (v : α) :
    (s.occupy i v).Sound n where
  length_eq := by simp [Storage.occupy, h.length_eq]
  nodup := by
    have hnot := (h.slots_eq_none_iff i).1 hfree
    refine List.nodup_append.2 ⟨h.nodup, by simp, ?_⟩
    rintro a ha b hb rfl
    exact hnot (List.mem_singleton.1 hb ▸ ha)
  lt_of_mem := by
    intro j hj
    rcases List.mem_append.1 hj with hj | hj
    · exact h.lt_of_mem j hj
    · exact List.mem_singleton.1 hj ▸ hi
  slots_eq_some_iff := by
    intro j p
    have hnot := (h.slots_eq_none_iff i).1 hfree
    by_cases hj : j = i
    · subst hj
      have hp : s.index[p]? ≠ some j := fun hp => hnot (List.mem_of_getElem? hp)
      rcases Nat.lt_trichotomy p s.index.length with hlt | rfl | hgt
      · simp only [Storage.occupy, ↓reduceIte, Option.some.injEq,
          List.getElem?_append_left hlt, hp, iff_false]
        omega
      · simp [Storage.occupy]
      · simp only [Storage.occupy, ↓reduceIte, Option.some.injEq,
          List.getElem?_append_right (Nat.le_of_lt hgt)]
        have : (p - s.index.length) ≠ 0 := by omega
        simp [this]
        omega
    · simp only [Storage.occupy, hj, ↓reduceIte, h.slots_eq_some_iff]
      rcases Nat.lt_or_ge p s.index.length with hlt | hge
      · rw [List.getElem?_append_left hlt]
      · rw [List.getElem?_append_right hge, List.getElem?_eq_none hge]
        cases hd : p - s.index.length with
        | zero => simp [Ne.symm hj]
        | succ d => simp

theorem write (h : s.Sound n) {i : Nat} (hi : i < n) (fresh : α) (change : α → α) :
    (s.write i fresh change).Sound n := by
  unfold Storage.write
  split
  · exact ⟨by simp [h.length_eq], h.nodup, h.lt_of_mem, h.slots_eq_some_iff⟩
  · next hfree => exact h.occupy hi hfree fresh

theorem map (h : s.Sound n) (f : α → α) : (s.map f).Sound n :=
  ⟨by simp [Storage.map, h.length_eq], h.nodup, h.lt_of_mem, h.slots_eq_some_iff⟩

end Sound

/-- The parts agree after every history. -/
theorem sound_of_built {n : Nat} {s : Storage α} (h : s.Built n) : s.Sound n := by
  induction h with
  | empty => exact Sound.empty
  | dense hlen => exact Sound.dense hlen
  | write fresh change hi _ ih => exact ih.write hi fresh change
  | map f _ ih => exact ih.map f

section Views

variable {n : Nat} {s : Storage α}

theorem map_fst_entries (h : s.Sound n) : s.entries.map Prod.fst = s.index :=
  List.map_fst_zip (Nat.le_of_eq h.length_eq)

theorem map_snd_entries (h : s.Sound n) : s.entries.map Prod.snd = s.data :=
  List.map_snd_zip (Nat.le_of_eq h.length_eq.symm)

theorem nodup_map_fst_entries (h : s.Sound n) : (s.entries.map Prod.fst).Nodup :=
  map_fst_entries h ▸ h.nodup

/-- Storages that list the same places with the same values are equal: the lookup follows. -/
theorem ext_of_sound {m : Nat} {t : Storage α} (hs : s.Sound n) (ht : t.Sound m)
    (hentries : s.entries = t.entries) : s = t := by
  have hindex : s.index = t.index := by
    rw [← map_fst_entries hs, hentries, map_fst_entries ht]
  have hdata : s.data = t.data := by
    rw [← map_snd_entries hs, hentries, map_snd_entries ht]
  have hslots : s.slots = t.slots := by
    funext i
    apply Option.ext
    intro p
    rw [hs.slots_eq_some_iff, ht.slots_eq_some_iff, hindex]
  cases s
  cases t
  simp_all

theorem find?_eq_some_iff (h : s.Sound n) (i : Nat) (v : α) :
    s.find? i = some v ↔ (i, v) ∈ s.entries := by
  unfold find? entries
  rw [Option.bind_eq_some_iff, List.mem_iff_getElem?]
  apply exists_congr
  intro p
  rw [h.slots_eq_some_iff, List.getElem?_zip_eq_some]

theorem isSome_find?_iff (h : s.Sound n) (i : Nat) : (s.find? i).isSome ↔ i ∈ s.index := by
  constructor
  · intro hsome
    obtain ⟨v, hv⟩ := Option.isSome_iff_exists.1 hsome
    exact map_fst_entries h ▸ List.mem_map_of_mem ((find?_eq_some_iff h i v).1 hv)
  · intro hmem
    obtain ⟨e, he, rfl⟩ := List.mem_map.1 (map_fst_entries h ▸ hmem)
    exact Option.isSome_iff_exists.2 ⟨e.2, (find?_eq_some_iff h e.1 e.2).2 he⟩

theorem index_write (h : s.Sound n) (i : Nat) (fresh : α) (change : α → α) :
    (s.write i fresh change).index = if i ∈ s.index then s.index else s.index ++ [i] := by
  unfold write
  cases hp : s.slots i with
  | none => simp [(h.slots_eq_none_iff i).1 hp, occupy]
  | some p => simp [List.mem_of_getElem? ((h.slots_eq_some_iff i p).1 hp)]

/-- A write decides the value of its place and no other. -/
theorem find?_write (h : s.Sound n) (i : Nat) (fresh : α) (change : α → α) (j : Nat) :
    (s.write i fresh change).find? j =
      if j = i then some ((s.find? i).elim fresh change) else s.find? j := by
  unfold write
  cases hp : s.slots i with
  | none =>
    by_cases hj : j = i
    · simp [find?, occupy, hj, hp, h.length_eq]
    · cases hq : s.slots j with
      | none => simp [find?, occupy, hj, hq]
      | some q => simp [find?, occupy, hj, hq, List.getElem?_append_left (h.lt_length hq)]
  | some p =>
    have hlt : p < s.data.length := h.lt_length hp
    by_cases hj : j = i
    · simp [find?, hj, hp, hlt]
    · cases hq : s.slots j with
      | none => simp [find?, hj, hq]
      | some q =>
        have hne : p ≠ q := by
          rintro rfl
          have hi := (h.slots_eq_some_iff i p).1 hp
          rw [(h.slots_eq_some_iff j p).1 hq] at hi
          exact hj (Option.some.inj hi)
        simp [find?, hj, hq, List.getElem?_modify, hne]

theorem find?_map (f : α → α) (i : Nat) : (s.map f).find? i = (s.find? i).map f := by
  cases hp : s.slots i <;> simp [find?, map, hp]

theorem find?_ofDense (xs : List α) (i : Nat) : (ofDense xs).find? i = xs[i]? := by
  by_cases hi : i < xs.length
  · simp [find?, ofDense, hi]
  · simp [find?, ofDense, hi]

theorem length_foldl_set (es : List (Nat × α)) (dense : List α) :
    (es.foldl (fun dense e => dense.set e.1 e.2) dense).length = dense.length := by
  induction es generalizing dense with
  | nil => rfl
  | cons e es ih => rw [List.foldl_cons, ih, List.length_set]

theorem getElem?_foldl_set_of_not_mem {es : List (Nat × α)} {i : Nat}
    (hi : i ∉ es.map Prod.fst) (dense : List α) :
    (es.foldl (fun dense e => dense.set e.1 e.2) dense)[i]? = dense[i]? := by
  induction es generalizing dense with
  | nil => rfl
  | cons e es ih =>
    rw [List.map_cons, List.mem_cons, not_or] at hi
    rw [List.foldl_cons, ih hi.2, List.getElem?_set_ne (Ne.symm hi.1)]

theorem getElem?_foldl_set_of_mem {es : List (Nat × α)} (hnd : (es.map Prod.fst).Nodup)
    {i : Nat} {v : α} (hmem : (i, v) ∈ es) {dense : List α} (hi : i < dense.length) :
    (es.foldl (fun dense e => dense.set e.1 e.2) dense)[i]? = some v := by
  induction es generalizing dense with
  | nil => simp at hmem
  | cons e es ih =>
    rw [List.map_cons, List.nodup_cons] at hnd
    rcases List.mem_cons.1 hmem with rfl | hmem
    · rw [List.foldl_cons, getElem?_foldl_set_of_not_mem hnd.1, List.getElem?_set_self hi]
    · exact ih hnd.2 hmem (by rwa [List.length_set])

theorem length_toDense [Zero α] (n : Nat) (s : Storage α) : (s.toDense n).length = n := by
  rw [toDense, length_foldl_set, List.length_replicate]

/-- The dense list holds at each place what the lookup finds there, and zero elsewhere. -/
theorem getElem?_toDense [Zero α] (h : s.Sound n) {i : Nat} (hi : i < n) :
    (s.toDense n)[i]? = some ((s.find? i).getD 0) := by
  cases hv : s.find? i with
  | none =>
    have hnot : i ∉ s.entries.map Prod.fst := by
      rw [map_fst_entries h, ← isSome_find?_iff h, hv]
      simp
    rw [toDense, getElem?_foldl_set_of_not_mem hnot]
    simp [hi]
  | some v =>
    exact getElem?_foldl_set_of_mem (nodup_map_fst_entries h)
      ((find?_eq_some_iff h i v).1 hv) (by rwa [List.length_replicate])

end Views

end Storage

end LinearModel
