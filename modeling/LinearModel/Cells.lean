import LinearModel.Scalar
import LinearModel.Storage

/-!
# Cells

The occupied places of one axis. `Cells α n` is a storage that writes to places below `n` have
built, so that it lists no place twice, in the order in which the places were first written. Writing
to an occupied place changes the value and keeps the order; a place stays occupied when its value
becomes zero. The dense reading is `Cells.get`: the value of an occupied place, zero elsewhere.
-/

namespace LinearModel

/-- The occupied places of an axis with `n` places, in the order of their first write. -/
structure Cells (α : Type) (n : Nat) where
  storage : Storage α
  built : storage.Built n

namespace Cells

variable {α : Type} {n : Nat}

theorem sound (c : Cells α n) : c.storage.Sound n := Storage.sound_of_built c.built

def entries (c : Cells α n) : List (Nat × α) := c.storage.entries

/-- Equal entries are all there is to equality. -/
@[ext] theorem ext {a b : Cells α n} (h : a.entries = b.entries) : a = b := by
  have hstorage := Storage.ext_of_sound a.sound b.sound h
  cases a
  cases b
  cases hstorage
  rfl

def empty : Cells α n := ⟨.empty, .empty⟩

def indices (c : Cells α n) : List Nat := c.storage.index

def values (c : Cells α n) : List α := c.storage.data

def occupied (c : Cells α n) : Nat := c.storage.index.length

/-- The position of place `i` in the storage, if it is occupied. -/
def slot? (c : Cells α n) (i : Nat) : Option Nat := c.storage.slots i

def find? (c : Cells α n) (i : Nat) : Option α := c.storage.find? i

/-- The dense reading: zero where nothing is stored. -/
def get [Zero α] (c : Cells α n) (i : Nat) : α := (c.find? i).getD 0

def cast {m : Nat} (h : n = m) (c : Cells α n) : Cells α m := ⟨c.storage, h ▸ c.built⟩

/-- Changes place `i`, or occupies it with a fresh value. A place past the end of the axis takes
nothing. -/
def upsert (c : Cells α n) (i : Nat) (fresh : α) (change : α → α) : Cells α n :=
  if h : i < n then ⟨c.storage.write i fresh change, c.built.write fresh change h⟩ else c

def put (c : Cells α n) (i : Nat) (v : α) : Cells α n := c.upsert i v fun _ => v

/-- Adds `v` to the value of place `i`; an empty place takes `v` itself. -/
def accumulate [Add α] (c : Cells α n) (i : Nat) (v : α) : Cells α n := c.upsert i v (· + v)

def map (f : α → α) (c : Cells α n) : Cells α n := ⟨c.storage.map f, c.built.map f⟩

/-- Every place occupied, zeros included. -/
def ofDense (xs : List α) : Cells α xs.length := ⟨.ofDense xs, .dense rfl⟩

def toDense [Zero α] (c : Cells α n) : List α := c.storage.toDense n

/-- Adds every cell of `other`, in its storage order. -/
def addAll [Add α] {m : Nat} (c : Cells α n) (other : Cells α m) : Cells α n :=
  other.entries.foldl (fun sum e => sum.accumulate e.1 e.2) c

@[simp] theorem entries_empty : (empty : Cells α n).entries = [] := rfl

@[simp] theorem entries_cast {m : Nat} (h : n = m) (c : Cells α n) :
    (c.cast h).entries = c.entries := rfl

@[simp] theorem entries_map (f : α → α) (c : Cells α n) :
    (c.map f).entries = c.entries.map fun e => (e.1, f e.2) := by
  show c.storage.index.zip (c.storage.data.map f) = _
  rw [List.zip_map_right]
  rfl

@[simp] theorem indices_map (f : α → α) (c : Cells α n) : (c.map f).indices = c.indices := rfl

theorem map_fst_entries (c : Cells α n) : c.entries.map Prod.fst = c.indices :=
  Storage.map_fst_entries c.sound

theorem map_snd_entries (c : Cells α n) : c.entries.map Prod.snd = c.values :=
  Storage.map_snd_entries c.sound

theorem nodup_indices (c : Cells α n) : c.indices.Nodup := c.sound.nodup

theorem nodup_map_fst_entries (c : Cells α n) : (c.entries.map Prod.fst).Nodup :=
  Storage.nodup_map_fst_entries c.sound

theorem lt_of_mem_indices (c : Cells α n) {i : Nat} (hi : i ∈ c.indices) : i < n :=
  c.sound.lt_of_mem i hi

theorem lt_of_mem_entries (c : Cells α n) {e : Nat × α} (he : e ∈ c.entries) : e.1 < n :=
  c.lt_of_mem_indices (c.map_fst_entries ▸ List.mem_map_of_mem he)

theorem find?_eq_some_iff (c : Cells α n) (i : Nat) (v : α) :
    c.find? i = some v ↔ (i, v) ∈ c.entries :=
  Storage.find?_eq_some_iff c.sound i v

theorem mem_indices_iff (c : Cells α n) (j : Nat) : j ∈ c.indices ↔ (c.find? j).isSome :=
  (Storage.isSome_find?_iff c.sound j).symm

theorem find?_eq_none_of_le (c : Cells α n) {j : Nat} (hj : n ≤ j) : c.find? j = none := by
  rw [← Option.not_isSome_iff_eq_none, ← mem_indices_iff]
  exact fun hmem => Nat.lt_irrefl n (Nat.lt_of_le_of_lt hj (c.lt_of_mem_indices hmem))

theorem indices_upsert (c : Cells α n) {i : Nat} (hi : i < n) (fresh : α) (change : α → α) :
    (c.upsert i fresh change).indices = if i ∈ c.indices then c.indices else c.indices ++ [i] := by
  unfold upsert
  rw [dif_pos hi]
  exact Storage.index_write c.sound i fresh change

theorem find?_upsert (c : Cells α n) {i : Nat} (hi : i < n) (fresh : α) (change : α → α) (j : Nat) :
    (c.upsert i fresh change).find? j =
      if j = i then some ((c.find? i).elim fresh change) else c.find? j := by
  unfold upsert
  rw [dif_pos hi]
  exact Storage.find?_write c.sound i fresh change j

theorem find?_put (c : Cells α n) {i : Nat} (hi : i < n) (v : α) (j : Nat) :
    (c.put i v).find? j = if j = i then some v else c.find? j := by
  rw [put, find?_upsert c hi]
  cases c.find? i <;> rfl

theorem get_put [Zero α] (c : Cells α n) {i : Nat} (hi : i < n) (v : α) (j : Nat) :
    (c.put i v).get j = if j = i then v else c.get j := by
  unfold get
  rw [find?_put c hi]
  split <;> rfl

@[simp] theorem find?_empty (j : Nat) : (empty : Cells α n).find? j = none := rfl

@[simp] theorem find?_map (f : α → α) (c : Cells α n) (j : Nat) :
    (c.map f).find? j = (c.find? j).map f :=
  Storage.find?_map f j

@[simp] theorem find?_ofDense (xs : List α) (j : Nat) : (ofDense xs).find? j = xs[j]? :=
  Storage.find?_ofDense xs j

theorem length_toDense [Zero α] (c : Cells α n) : c.toDense.length = n :=
  Storage.length_toDense n c.storage

/-- The dense list holds at each place the dense reading of that place. -/
theorem getElem?_toDense [Zero α] (c : Cells α n) {i : Nat} (hi : i < n) :
    c.toDense[i]? = some (c.get i) :=
  Storage.getElem?_toDense c.sound hi

theorem toDense_eq_map_range [Zero α] (c : Cells α n) :
    c.toDense = (List.range n).map c.get := by
  apply List.ext_getElem?
  intro i
  by_cases hi : i < n
  · simp [c.getElem?_toDense hi, hi]
  · rw [List.getElem?_eq_none (by rw [length_toDense]; omega),
      List.getElem?_eq_none (by simp; omega)]

theorem getD_toDense [Zero α] (c : Cells α n) (i : Nat) : c.toDense.getD i 0 = c.get i := by
  rw [List.getD_eq_getElem?_getD]
  by_cases hi : i < n
  · rw [c.getElem?_toDense hi, Option.getD_some]
  · rw [List.getElem?_eq_none (by rw [length_toDense]; omega), get,
      c.find?_eq_none_of_le (by omega)]

theorem get_of_mem_entries [Zero α] {c : Cells α n} {e : Nat × α} (he : e ∈ c.entries) :
    c.get e.1 = e.2 := by
  rw [get, (c.find?_eq_some_iff e.1 e.2).2 he, Option.getD_some]

/-- The stored values are those of the occupied places, in their order. -/
theorem values_eq_map_get [Zero α] (c : Cells α n) : c.values = c.indices.map c.get := by
  rw [← c.map_snd_entries, ← c.map_fst_entries, List.map_map]
  exact List.map_congr_left fun e he => (get_of_mem_entries he).symm

end Cells

end LinearModel
