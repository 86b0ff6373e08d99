import Mathlib
import LinearModel.Data.Records
import LinearModel.Program.Description
import LinearModel.Proofs.Order
import LinearModel.Proofs.Respelling
import LinearModel.Proofs.WrittenText

/-!
# Reading what was written

A record that was written is read back if all its numbers are finite. A number that is not finite
is written as null, which a reader meets where it expects a number, whatever else the record holds.
Reading goes through a record in order and stops at the first problem, and every problem with
written text is this one: `Json.Decodes` says when it comes up, and each reader is taken apart along
its binds.
-/

namespace LinearModel

namespace Json

/-- The digits that are written for a number are read back as the number. -/
def ReadsBack (x : Float) : Prop := readText Decode.float (Value.number x) = .ok x

/-- Null where a number is expected. -/
def nullError : ReadError := .mismatch (.invalidType .null "f64")

/-- A value is read under a condition; otherwise null is met. -/
structure Decodes {β : Type} (p : Prop) (r : Result β) (x : β) : Prop where
  ok : p → r = .ok x
  null : ¬ p → r = .error nullError

section Decodes

variable {β γ : Type} {p q : Prop} {r : Result β} {x : β} {f : β → Result γ} {y : γ}

theorem Decodes.pure (x : β) : Decodes True (Pure.pure x : Result β) x := ⟨fun _ => rfl, nofun⟩

theorem Decodes.bind (hr : Decodes p r x) (hf : Decodes q (f x) y) :
    Decodes (p ∧ q) (r >>= f) y := by
  by_cases hp : p
  · rw [hr.ok hp]
    exact ⟨fun h => hf.ok h.2, fun h => hf.null fun hq => h ⟨hp, hq⟩⟩
  · rw [hr.null hp]
    exact ⟨fun h => absurd h.1 hp, fun _ => rfl⟩

theorem Decodes.congr (h : Decodes p r x) (hpq : p ↔ q) : Decodes q r x :=
  ⟨fun hq => h.ok (hpq.2 hq), fun hq => h.null (mt hpq.1 hq)⟩

theorem Decodes.of_eq_ok (h : r = .ok x) : Decodes True r x := ⟨fun _ => h, nofun⟩

theorem decodes_float {x : Float} (hx : Number.isFinite x = true → ReadsBack x) :
    Decodes (Number.isFinite x = true) (Decode.float (Value.float x).tree) x where
  ok hfinite := by
    have hspells : Spells (Value.number x) (Value.float x).tree :=
      Value.spells_of_mem_texts List.mem_cons_self
    exact (hspells.readText_eq Decode.float).symm.trans (hx hfinite)
  null hfinite := by
    rw [Value.tree_float_of_not_finite (Bool.eq_false_iff.2 hfinite)]
    rfl

theorem decodes_index {n : Nat} (hn : n < Numeral.wordLimit) :
    Decodes True (Decode.index (Value.integer n).tree) n := by
  refine .of_eq_ok ?_
  show Decode.index (.number (Numeral.ofNatural n)) = _
  rw [Decode.index]
  simp only [value?_ofNatural hn]

theorem decodes_each {decode : Tree → Result β} (tree : β → Tree) {p : β → Prop} {xs : List β}
    (h : ∀ x ∈ xs, Decodes (p x) (decode (tree x)) x) :
    Decodes (∀ x ∈ xs, p x) (Decode.each decode (xs.map tree)) xs := by
  induction xs with
  | nil => exact (Decodes.of_eq_ok rfl).congr (by simp)
  | cons x xs ih =>
      have hx := h x List.mem_cons_self
      have hxs := ih fun y hy => h y (List.mem_cons_of_mem x hy)
      exact (hx.bind (hxs.bind (.pure (x :: xs)))).congr (by simp)

theorem decodes_list {decode : Tree → Result β} (write : β → Value) {p : β → Prop} {xs : List β}
    (h : ∀ x ∈ xs, Decodes (p x) (decode (write x).tree) x) :
    Decodes (∀ x ∈ xs, p x) (Decode.list decode (Value.array (xs.map write)).tree) xs := by
  have heach := decodes_each (fun x => (write x).tree) h
  rw [Value.tree, Value.trees_eq_map, List.map_map]
  exact (heach.bind (.pure xs)).congr (and_true _).to_iff

theorem Decodes.problem {decode : Tree → Result β} {t : Tree} (h : Decodes p (decode t) x) :
    Decodes p (Record.problem decode t) () :=
  (h.bind (.pure ())).congr (and_true p).to_iff

end Decodes

namespace Record

variable {r : Record} {before members : Members} {conditions : List Prop}

theorem decodes_ofMembers (hnames : ∀ m ∈ members, m.1 ∈ r.names)
    (hdistinct : ((before ++ members).map Prod.fst).Nodup)
    (hchecks : List.Forall₂ (fun m p => Decodes p (r.check m.1 m.2) ()) members conditions) :
    Decodes (conditions.Forall id)
      (r.ofMembers before (members.map fun m => (some m.1, m.2))) (before ++ members) := by
  induction hchecks generalizing before with
  | nil => exact (Decodes.of_eq_ok (by rw [List.append_nil]; rfl)).congr (by simp)
  | @cons m p members conditions hm _ ih =>
      obtain ⟨key, value⟩ := m
      have hkey : key ∉ before.map Prod.fst := by
        rw [List.map_append, List.nodup_append] at hdistinct
        exact fun hbefore => hdistinct.2.2 key hbefore key List.mem_cons_self rfl
      rw [List.append_cons] at hdistinct ⊢
      have hrest := ih (fun n hn => hnames n (List.mem_cons_of_mem _ hn)) hdistinct
      rw [List.map_cons, ofMembers_own (hnames _ List.mem_cons_self) hkey]
      exact (hm.bind hrest).congr (List.forall_cons id p conditions).symm

/-- A record is read from its own members in order, whatever is made of them. -/
theorem decodes_members (r : Record) (members : Members)
    (hnames : members.map Prod.fst = r.names) (hdistinct : r.names.Nodup)
    (hchecks : List.Forall₂ (fun m p => Decodes p (r.check m.1 m.2) ()) members conditions) :
    Decodes (conditions.Forall id)
      (r.members (.object (members.map fun m => (some m.1, m.2)) true)) members := by
  have hown : Decodes (conditions.Forall id)
      (r.ofMembers [] (members.map fun m => (some m.1, m.2))) members :=
    decodes_ofMembers (fun m hm => hnames ▸ List.mem_map_of_mem hm) (hnames ▸ hdistinct) hchecks
  have hmissing : r.firstMissing members = none := by
    rw [firstMissing_eq_none_iff, hnames]
    exact fun name hname => List.mem_map_of_mem hname
  rw [Record.members]
  refine (hown.bind (q := True) ?_).congr (and_true _).to_iff
  rw [hmissing]
  exact .pure members

end Record

/-- How values of a type are written and read, and the numbers and indices that they hold. -/
structure DataFormat (β : Type) where
  write : β → Value
  read : Tree → Result β
  numbers : β → List Float
  indices : β → List Nat

namespace DataFormat

variable {β : Type}

/-- The digits of all finite numbers are read back, and the indices fit a word. -/
structure Legible (f : DataFormat β) (x : β) : Prop where
  numbers : ∀ y ∈ f.numbers x, Number.isFinite y = true → ReadsBack y
  indices : ∀ n ∈ f.indices x, n < 2 ^ 64

/-- What is read from the texts that are written: the value if all its numbers are finite, and else
null where a number is expected. -/
structure RoundTrips (f : DataFormat β) (x : β) : Prop where
  back : (∀ y ∈ f.numbers x, Number.isFinite y = true) →
    ∀ text ∈ (f.write x).texts, readText f.read text = .ok x
  refused : (∃ y ∈ f.numbers x, Number.isFinite y = false) →
    ∀ text ∈ (f.write x).texts, readText f.read text = .error nullError

theorem roundTrips_of_decodes {f : DataFormat β} {x : β}
    (h : Decodes (∀ y ∈ f.numbers x, Number.isFinite y = true) (f.read (f.write x).tree) x) :
    f.RoundTrips x where
  back hfinite text htext :=
    ((Value.spells_of_mem_texts htext).readText_eq f.read).trans (h.ok hfinite)
  refused := by
    rintro ⟨y, hy, hinfinite⟩ text htext
    refine ((Value.spells_of_mem_texts htext).readText_eq f.read).trans (h.null fun hfinite => ?_)
    rw [hfinite y hy] at hinfinite
    cases hinfinite

end DataFormat

end Json

open Json

namespace Shape

def format : DataFormat Shape where
  write := write
  read := read
  numbers _ := []
  indices s := [s.rows, s.cols]

theorem roundTrips {s : Shape} (h : format.Legible s) : format.RoundTrips s := by
  have hrows : Decodes True (Decode.index (Value.integer s.rows).tree) s.rows :=
    decodes_index (h.indices s.rows (by simp [format]))
  have hcols : Decodes True (Decode.index (Value.integer s.cols).tree) s.cols :=
    decodes_index (h.indices s.cols (by simp [format]))
  have hmembers := record.decodes_members
    [("rows", (Value.integer s.rows).tree), ("cols", (Value.integer s.cols).tree)]
    rfl (by decide) (.cons hrows.problem (.cons hcols.problem .nil))
  refine DataFormat.roundTrips_of_decodes ?_
  refine (hmembers.bind (hrows.bind (hcols.bind (.pure s)))).congr ?_
  simp [format]

end Shape

namespace Bound

def format : DataFormat (Bound Float) where
  write := write
  read := read
  numbers b := [b.lower, b.upper]
  indices _ := []

theorem roundTrips {b : Bound Float} (h : format.Legible b) : format.RoundTrips b := by
  have hkind : Decodes True (BoundKind.read b.kind.write.tree) b.kind :=
    .of_eq_ok (by cases b.kind <;> rfl)
  have hlower := decodes_float (h.numbers b.lower (by simp [format]))
  have hupper := decodes_float (h.numbers b.upper (by simp [format]))
  have hmembers := record.decodes_members
    [("kind", b.kind.write.tree), ("lower", (Value.float b.lower).tree),
      ("upper", (Value.float b.upper).tree)]
    rfl (by decide) (.cons hkind.problem (.cons hlower.problem (.cons hupper.problem .nil)))
  refine DataFormat.roundTrips_of_decodes ?_
  refine (hmembers.bind (hkind.bind (hlower.bind (hupper.bind (.pure b))))).congr ?_
  simp [format]

/-- Bounds are made from two limits, or for the row of a constraint. -/
def IsMade (b : Bound Float) : Prop :=
  (∃ lower upper, b = between lower upper) ∨
    ∃ (n : Nat) (c : Constraint Float n), b = c.rowBound

/-- A kind that leaves a side open is made only if the limit of a side is not finite. -/
theorem IsMade.not_finite_of_kind {b : Bound Float} (hb : b.IsMade)
    (hkind : b.kind = .free ∨ b.kind = .lower ∨ b.kind = .upper) :
    Number.isFinite b.lower = false ∨ Number.isFinite b.upper = false := by
  rcases hb with ⟨lower, upper, rfl⟩ | ⟨n, c, rfl⟩
  · show Number.isFinite lower = false ∨ Number.isFinite upper = false
    simp only [between, kindBetween] at hkind
    cases hlower : Number.isFinite lower with
    | false => exact .inl rfl
    | true =>
        cases hupper : Number.isFinite upper with
        | false => exact .inr rfl
        | true =>
            simp only [hlower, hupper] at hkind
            split at hkind <;> simp at hkind
  · rw [Constraint.rowBound] at hkind ⊢
    cases hrelation : c.relation with
    | le =>
        left
        rw [Number.isFinite, OrderedNumber.exact_negInf]
    | ge =>
        right
        rw [Number.isFinite, OrderedNumber.exact_posInf]
    | eq => simp [hrelation] at hkind

end Bound

namespace Solution

def format : DataFormat (Solution Float) where
  write := write
  read := read
  numbers s := s.values ++ [s.objectiveValue]
  indices _ := []

theorem roundTrips {s : Solution Float} (h : format.Legible s) : format.RoundTrips s := by
  have hstatus : Decodes True (SolveStatus.read s.status.write.tree) s.status :=
    .of_eq_ok (by cases s.status <;> rfl)
  have hvalues := decodes_list Value.float fun x hx =>
    decodes_float (h.numbers x (List.mem_append_left _ hx))
  have hobjective := decodes_float (h.numbers s.objectiveValue (by simp [format]))
  have hmembers := record.decodes_members
    [("status", s.status.write.tree), ("values", (Value.array (s.values.map .float)).tree),
      ("objective_value", (Value.float s.objectiveValue).tree)]
    rfl (by decide) (.cons hstatus.problem (.cons hvalues.problem (.cons hobjective.problem .nil)))
  refine DataFormat.roundTrips_of_decodes ?_
  refine (hmembers.bind (hstatus.bind (hvalues.bind (hobjective.bind (.pure s))))).congr ?_
  simp [format, or_imp, forall_and]

end Solution

namespace CoordinateList

def format : DataFormat (CoordinateList Float) where
  write := write
  read := read
  numbers m := m.values
  indices m := m.rows ++ m.cols

theorem roundTrips {m : CoordinateList Float} (h : format.Legible m) : format.RoundTrips m := by
  have hrows := decodes_list Value.integer fun i hi =>
    decodes_index (h.indices i (List.mem_append_left _ hi))
  have hcols := decodes_list Value.integer fun j hj =>
    decodes_index (h.indices j (List.mem_append_right _ hj))
  have hvalues := decodes_list Value.float fun x hx => decodes_float (h.numbers x hx)
  have hmembers := record.decodes_members
    [("rows", (Value.array (m.rows.map .integer)).tree),
      ("cols", (Value.array (m.cols.map .integer)).tree),
      ("values", (Value.array (m.values.map .float)).tree)]
    rfl (by decide) (.cons hrows.problem (.cons hcols.problem (.cons hvalues.problem .nil)))
  refine DataFormat.roundTrips_of_decodes ?_
  refine (hmembers.bind (hrows.bind (hcols.bind (hvalues.bind (.pure m))))).congr ?_
  simp [format]

end CoordinateList

/-- Records that were written are read back if all their numbers are finite; else they are refused,
because null stands where a number is expected. So bounds with two finite limits are read back, and
those that are made with an infinite limit are not. -/
theorem written_records :
    (∀ x : Float, Number.isFinite x = false → Value.number x = "null") ∧
    (∀ s : Shape, Shape.format.Legible s → Shape.format.RoundTrips s) ∧
    (∀ b : Bound Float, Bound.format.Legible b → Bound.format.RoundTrips b) ∧
    (∀ s : Solution Float, Solution.format.Legible s → Solution.format.RoundTrips s) ∧
    (∀ m : CoordinateList Float, CoordinateList.format.Legible m →
      CoordinateList.format.RoundTrips m) ∧
    (∀ b : Bound Float, Bound.format.Legible b → b.kind = .double ∨ b.kind = .fixed →
      Number.isFinite b.lower = true → Number.isFinite b.upper = true →
        ∀ text ∈ b.write.texts, readText Bound.read text = .ok b) ∧
    (∀ b : Bound Float, Bound.format.Legible b → b.IsMade →
      (b.kind = .free ∨ b.kind = .lower ∨ b.kind = .upper) ∨
        Number.isFinite b.lower = false ∨ Number.isFinite b.upper = false →
        ∀ text ∈ b.write.texts, readText Bound.read text = .error nullError) := by
  refine ⟨fun _ => Value.number_of_isFinite_eq_false, fun _ => Shape.roundTrips,
    fun _ => Bound.roundTrips, fun _ => Solution.roundTrips, fun _ => CoordinateList.roundTrips,
    fun b hb _ hlower hupper => ?_, fun b hb hmade hsides => ?_⟩
  · exact (Bound.roundTrips hb).back (by simp [Bound.format, hlower, hupper])
  · have hinfinite : Number.isFinite b.lower = false ∨ Number.isFinite b.upper = false :=
      hsides.elim hmade.not_finite_of_kind id
    exact (Bound.roundTrips hb).refused (by simpa [Bound.format] using hinfinite)

/-- One half is written as `0.5`, which is read back. -/
theorem written_records_half :
    Shape.format.RoundTrips ⟨2, 3⟩ ∧
    Solution.format.RoundTrips ⟨.optimal, [0.5, Number.posInf], 0.5⟩ ∧
    CoordinateList.format.RoundTrips ⟨[1], [2], [0.5]⟩ ∧
    (∀ text ∈ (Bound.between 0.5 0.5 : Bound Float).write.texts,
      readText Bound.read text = .ok (.between 0.5 0.5)) ∧
    ∀ text ∈ (Bound.between 0.5 Number.posInf : Bound Float).write.texts,
      readText Bound.read text = .error nullError := by
  have hhalf : ReadsBack 0.5 := toOption_eq_some_iff.1 (by decide +kernel)
  have hinfinite : Number.isFinite (Number.posInf : Float) = false := by decide +kernel
  have hbound (upper : Float) (hupper : upper = 0.5 ∨ upper = Number.posInf) :
      Bound.format.Legible (.between 0.5 upper) := by
    refine ⟨?_, nofun⟩
    rcases hupper with rfl | rfl <;> simp [Bound.format, Bound.between, hhalf, hinfinite]
  obtain ⟨-, hshape, -, hsolution, hlist, hfinite, hopen⟩ := written_records
  refine ⟨hshape _ ⟨nofun, by decide⟩, hsolution _ ⟨?_, nofun⟩, hlist _ ⟨?_, by decide⟩,
    hfinite _ (hbound _ (.inl rfl)) ?_ ?_ ?_, hopen _ (hbound _ (.inr rfl)) ?_ ?_⟩
  · simp [Solution.format, hhalf, hinfinite]
  · simp [CoordinateList.format, hhalf]
  · decide +kernel
  · decide +kernel
  · decide +kernel
  · exact .inl ⟨_, _, rfl⟩
  · exact .inr (.inr hinfinite)

end LinearModel
