import Mathlib
import LinearModel.Proofs.Spelling

/-!
# Spellings of a record

An object is read as a record exactly if every member passes, none of the record's members comes
twice and those that must be there are (`Json.Record.Admits`). None of this depends on the order of
the members, and neither does what the record holds, which is looked up by name.

The spellings of a record may differ in more than this order (`Json.Leeway`): some values may be
spelled in several ways, and some members may be left out when they have a certain value.
`Json.Record.Respelled` is one such change of an object, and
`Json.Record.toOption_read_eq_of_respelled` says that a record is read alike after any number of
them. The answers are compared by `Except.toOption`: which problem is reported when an object is
refused does depend on the order.
-/

namespace LinearModel

namespace Json

section Results

variable {β γ : Type}

theorem toOption_bind (x : Result β) (f : β → Result γ) :
    (x >>= f).toOption = x.toOption.bind fun b => (f b).toOption := by
  cases x <;> rfl

theorem toOption_eq_some_iff {x : Result β} {b : β} : x.toOption = some b ↔ x = .ok b := by
  cases x <;> simp [Except.toOption]

theorem toOption_bind_congr {x x' : Result β} {f f' : β → Result γ}
    (hx : x.toOption = x'.toOption) (hf : ∀ b, (f b).toOption = (f' b).toOption) :
    (x >>= f).toOption = (x' >>= f').toOption := by
  rw [toOption_bind, toOption_bind, hx, funext hf]

end Results

section Lookup

variable {β : Type} {xs ys : List (String × β)}

theorem lookup_eq_some_iff_mem (hxs : (xs.map Prod.fst).Nodup) (key : String) (x : β) :
    xs.lookup key = some x ↔ (key, x) ∈ xs := by
  induction xs with
  | nil => simp
  | cons m xs ih =>
      obtain ⟨name, y⟩ := m
      obtain ⟨hname, hxs⟩ := List.nodup_cons.1 hxs
      rw [List.mem_cons, Prod.mk.injEq]
      by_cases h : key = name
      · subst h
        have hmem : (key, x) ∉ xs := fun hmem => hname (List.mem_map.2 ⟨_, hmem, rfl⟩)
        rw [List.lookup_cons_self, Option.some_inj, or_iff_left hmem, and_iff_right rfl, eq_comm]
      · rw [List.lookup_cons, beq_false_of_ne h, ih hxs, or_iff_right fun heq => h heq.1]

/-- What is found at a key does not depend on the order if every key is there once. -/
theorem lookup_eq_of_perm (hxs : (xs.map Prod.fst).Nodup) (h : xs.Perm ys) (key : String) :
    xs.lookup key = ys.lookup key := by
  have hys : (ys.map Prod.fst).Nodup := (h.map Prod.fst).nodup_iff.1 hxs
  ext x
  rw [lookup_eq_some_iff_mem hxs, lookup_eq_some_iff_mem hys, h.mem_iff]

end Lookup

namespace Record

variable (r : Record) {ms ms' : List (Option String × Tree)}

/-- The member of an object as one of the record, if it is. -/
def own? (m : Option String × Tree) : Option (String × Tree) :=
  m.1.bind fun key => if key ∈ r.names then some (key, m.2) else none

/-- The member does not stop an object from being read: its value passes the check, or the record
has no such member and passes over it. -/
def Passes (m : Option String × Tree) : Prop :=
  ∃ key, m.1 = some key ∧
    if key ∈ r.names then r.check key m.2 = .ok () else r.strict = false ∧ m.2.isComplete = true

section Members

variable {r} {key : String}

theorem own?_of_mem (hkey : key ∈ r.names) (value : Tree) :
    r.own? (some key, value) = some (key, value) := if_pos hkey

theorem own?_of_notMem (hkey : key ∉ r.names) (value : Tree) : r.own? (some key, value) = none :=
  if_neg hkey

theorem passes_iff_of_mem (hkey : key ∈ r.names) (value : Tree) :
    r.Passes (some key, value) ↔ r.check key value = .ok () := by
  simp [Passes, hkey]

theorem passes_iff_of_notMem (hkey : key ∉ r.names) (value : Tree) :
    r.Passes (some key, value) ↔ r.strict = false ∧ value.isComplete = true := by
  simp [Passes, hkey]

end Members

/-- An object with these members is read as a record. -/
structure Admits (ms : List (Option String × Tree)) : Prop where
  passes : ∀ m ∈ ms, r.Passes m
  distinct : ((ms.filterMap r.own?).map Prod.fst).Nodup
  required : ∀ name, (name, true) ∈ r.fields → name ∈ (ms.filterMap r.own?).map Prod.fst

section Steps

variable {r} {before : Members} {key : String} {value : Tree}

theorem ofMembers_own (hkey : key ∈ r.names) (hbefore : key ∉ before.map Prod.fst) :
    r.ofMembers before ((some key, value) :: ms) =
      r.check key value >>= fun _ => r.ofMembers (before ++ [(key, value)]) ms := by
  rw [ofMembers, if_pos (List.contains_iff_mem.2 hkey),
    if_neg (mt List.contains_iff_mem.1 hbefore)]

theorem ofMembers_repeated (hkey : key ∈ r.names) (hbefore : key ∈ before.map Prod.fst) :
    r.ofMembers before ((some key, value) :: ms) = .error (.mismatch (.duplicateField key)) := by
  rw [ofMembers, if_pos (List.contains_iff_mem.2 hkey), if_pos (List.contains_iff_mem.2 hbefore)]

theorem ofMembers_other (hkey : key ∉ r.names) :
    r.ofMembers before ((some key, value) :: ms) =
      if r.strict then .error (.mismatch (.unknownField key r.names))
      else if value.isComplete then r.ofMembers before ms else .error .malformed := by
  rw [ofMembers, if_neg (mt List.contains_iff_mem.1 hkey)]

end Steps

theorem ofMembers_eq_ok_iff {before found : Members} (hbefore : (before.map Prod.fst).Nodup) :
    r.ofMembers before ms = .ok found ↔ (∀ m ∈ ms, r.Passes m) ∧
      ((before ++ ms.filterMap r.own?).map Prod.fst).Nodup ∧
      found = before ++ ms.filterMap r.own? := by
  induction ms generalizing before with
  | nil => simp [ofMembers, hbefore, eq_comm]
  | cons m ms ih =>
      obtain ⟨key?, value⟩ := m
      rw [List.forall_mem_cons]
      cases key? with
      | none => simp [ofMembers, Passes]
      | some key =>
          by_cases hkey : key ∈ r.names
          · rw [List.filterMap_cons_some (own?_of_mem hkey value), passes_iff_of_mem hkey]
            by_cases hrepeated : key ∈ before.map Prod.fst
            · rw [ofMembers_repeated hkey hrepeated]
              refine iff_of_false nofun fun ⟨_, hdistinct, _⟩ => ?_
              rw [List.map_append, List.nodup_append] at hdistinct
              exact hdistinct.2.2 key hrepeated key List.mem_cons_self rfl
            · have hnext : ((before ++ [(key, value)]).map Prod.fst).Nodup := by
                rw [List.map_append]
                exact hbefore.append (List.nodup_singleton key)
                  (List.disjoint_singleton.2 hrepeated)
              rw [ofMembers_own hkey hrepeated]
              cases hcheck : r.check key value with
              | error cause => exact iff_of_false nofun fun h => nomatch h.1.1
              | ok _ =>
                  have hrest := ih hnext
                  rw [← List.append_cons] at hrest
                  rw [and_iff_right rfl]
                  exact hrest
          · rw [List.filterMap_cons_none (own?_of_notMem hkey value), passes_iff_of_notMem hkey,
              ofMembers_other hkey]
            cases hstrict : r.strict with
            | true => simp
            | false =>
                cases hcomplete : value.isComplete with
                | false => simp
                | true => simpa using ih hbefore

theorem firstMissing_eq_none_iff (found : Members) :
    r.firstMissing found = none ↔
      ∀ name, (name, true) ∈ r.fields → name ∈ found.map Prod.fst := by
  rw [firstMissing, Option.map_eq_none_iff, List.find?_eq_none]
  constructor
  · intro h name hname
    simpa using h (name, true) hname
  · rintro h ⟨name, required⟩ hname
    cases required with
    | false => simp
    | true => simpa using h name hname

theorem members_object_eq_ok_iff {closed : Bool} {found : Members} :
    r.members (.object ms closed) = .ok found ↔
      closed = true ∧ r.Admits ms ∧ found = ms.filterMap r.own? := by
  have hread (found : Members) : r.ofMembers [] ms = .ok found ↔ (∀ m ∈ ms, r.Passes m) ∧
      ((ms.filterMap r.own?).map Prod.fst).Nodup ∧ found = ms.filterMap r.own? :=
    r.ofMembers_eq_ok_iff (show (([] : Members).map Prod.fst).Nodup from List.nodup_nil)
  constructor
  · intro h
    obtain ⟨own, hown, hrest⟩ := bind_eq_ok_iff.1 h
    obtain ⟨hpasses, hdistinct, rfl⟩ := (hread own).1 hown
    split at hrest
    case isTrue => cases hrest
    case isFalse hclosed =>
      split at hrest
      case h_1 => cases hrest
      case h_2 hmissing =>
        cases hrest
        exact ⟨by simpa using hclosed,
          ⟨hpasses, hdistinct, (r.firstMissing_eq_none_iff _).1 hmissing⟩, rfl⟩
  · rintro ⟨rfl, hadmits, rfl⟩
    have hown := (hread _).2 ⟨hadmits.passes, hadmits.distinct, rfl⟩
    have hmissing := (r.firstMissing_eq_none_iff _).2 hadmits.required
    refine bind_eq_ok_iff.2 ⟨_, hown, ?_⟩
    rw [hmissing]
    rfl

variable {r}

theorem toOption_members_eq_none {closed : Bool} (h : ¬ (closed = true ∧ r.Admits ms)) :
    (r.members (.object ms closed)).toOption = none := by
  rw [Option.eq_none_iff_forall_ne_some]
  intro found hfound
  have hread := r.members_object_eq_ok_iff.1 (toOption_eq_some_iff.1 hfound)
  exact h ⟨hread.1, hread.2.1⟩

/-- Two objects are read alike if both are read as a record or none of them, and the same is made of
the members. -/
theorem toOption_read_eq {β : Type} {fill : Members → Result β}
    (hadmits : r.Admits ms ↔ r.Admits ms')
    (hfill : r.Admits ms →
      (fill (ms.filterMap r.own?)).toOption = (fill (ms'.filterMap r.own?)).toOption)
    (closed : Bool) :
    (r.members (.object ms closed) >>= fill).toOption =
      (r.members (.object ms' closed) >>= fill).toOption := by
  by_cases h : closed = true ∧ r.Admits ms
  · have hms := r.members_object_eq_ok_iff.2 ⟨h.1, h.2, rfl⟩
    have hms' := r.members_object_eq_ok_iff.2 ⟨h.1, hadmits.1 h.2, rfl⟩
    rw [hms, hms']
    exact hfill h.2
  · rw [toOption_bind, toOption_bind, toOption_members_eq_none h,
      toOption_members_eq_none fun h' => h (h'.imp_right hadmits.2)]

/-- The object has no members but those of the record, and none of them twice. -/
structure Exact (r : Record) (ms : List (Option String × Tree)) : Prop where
  own : ∀ m ∈ ms, ∃ key ∈ r.names, m.1 = some key
  distinct : (ms.map Prod.fst).Nodup

theorem map_fst_eq_map_own (h : ∀ m ∈ ms, ∃ key ∈ r.names, m.1 = some key) :
    ms.map Prod.fst = ((ms.filterMap r.own?).map Prod.fst).map some := by
  induction ms with
  | nil => rfl
  | cons m ms ih =>
      obtain ⟨⟨key, hkey, hm⟩, hms⟩ := List.forall_mem_cons.1 h
      have hown : r.own? m = some (key, m.2) := by
        rw [← own?_of_mem hkey m.2, ← hm]
      rw [List.filterMap_cons_some hown, List.map_cons, List.map_cons, List.map_cons, ih hms, hm]

theorem Admits.exact (h : r.Admits ms) (hstrict : r.strict = true) : r.Exact ms := by
  have hown : ∀ m ∈ ms, ∃ key ∈ r.names, m.1 = some key := by
    intro m hm
    obtain ⟨key, hkey, hpasses⟩ := h.passes m hm
    split at hpasses
    · exact ⟨key, ‹_›, hkey⟩
    · rw [hstrict] at hpasses
      cases hpasses.1
  refine ⟨hown, ?_⟩
  rw [map_fst_eq_map_own hown]
  exact h.distinct.map (Option.some_injective String)

theorem isComplete_of_problem_eq_ok {β : Type} {decode : Tree → Result β}
    (hdecode : Decode.Whole decode) {t : Tree} (h : problem decode t = .ok ()) :
    t.isComplete = true := by
  obtain ⟨x, hx, -⟩ := bind_eq_ok_iff.1 h
  exact hdecode t x hx

section Whole

variable (hcheck : ∀ key t, r.check key t = .ok () → t.isComplete = true)

include hcheck

theorem Passes.isComplete {m : Option String × Tree} (h : r.Passes m) : m.2.isComplete = true := by
  obtain ⟨key, -, hpasses⟩ := h
  split at hpasses
  · exact hcheck key m.2 hpasses
  · exact hpasses.2

theorem allComplete_of_ofItems_eq_ok {names : List String} {items : List Tree} {found : Members}
    (hlength : items.length ≤ names.length) (h : r.ofItems names items = .ok found) :
    Tree.allComplete items = true := by
  induction items generalizing names found with
  | nil => rfl
  | cons t items ih =>
      cases names with
      | nil => simp at hlength
      | cons name names =>
          obtain ⟨_, ht, hrest⟩ := bind_eq_ok_iff.1 h
          obtain ⟨found, hfound, -⟩ := bind_eq_ok_iff.1 hrest
          exact Bool.and_eq_true_iff.2
            ⟨hcheck name t ht, ih (Nat.le_of_succ_le_succ hlength) hfound⟩

/-- A record is read to its end if the values of its members are. -/
theorem isComplete_of_members_eq_ok {t : Tree} {found : Members} (h : r.members t = .ok found) :
    t.isComplete = true := by
  cases t with
  | object ms closed =>
      obtain ⟨rfl, hadmits, -⟩ := r.members_object_eq_ok_iff.1 h
      exact Bool.and_eq_true_iff.2 ⟨Tree.allMembersComplete_iff.2 fun m hm =>
        (hadmits.passes m hm).isComplete hcheck, rfl⟩
  | array items closed =>
      obtain ⟨own, hown, hrest⟩ := bind_eq_ok_iff.1 h
      split at hrest
      case isTrue => cases hrest
      case isFalse hshape =>
        rw [Bool.or_eq_true, not_or, decide_eq_true_iff, not_lt] at hshape
        obtain ⟨hclosed, hlength⟩ := hshape
        have hnames : items.length ≤ r.names.length := by rwa [names, List.length_map]
        exact Bool.and_eq_true_iff.2
          ⟨allComplete_of_ofItems_eq_ok hcheck hnames hown, by simpa using hclosed⟩
  | _ => cases h

end Whole

theorem Admits.perm (h : r.Admits ms) (hperm : ms.Perm ms') : r.Admits ms' where
  passes m hm := h.passes m (hperm.mem_iff.2 hm)
  distinct := (((hperm.filterMap r.own?).map Prod.fst).nodup_iff).1 h.distinct
  required name hname := ((hperm.filterMap r.own?).map Prod.fst).mem_iff.1 (h.required name hname)

end Record

/-- In what spellings of a record may differ besides the order of the members. -/
structure Leeway where
  /-- Two spellings of the value of a member. -/
  value : String → Tree → Tree → Prop
  /-- The value that a member has when it is left out. -/
  absent : String → Option Tree

/-- The leeway of a record that is spelled in one way up to the order of its members. -/
def Leeway.none : Leeway := ⟨fun _ _ _ => False, fun _ => .none⟩

/-- What is found at a name in two spellings of a record. -/
inductive Leeway.Same (l : Leeway) (name : String) : Option Tree → Option Tree → Prop
  | same (x : Option Tree) : l.Same name x x
  | value {t t' : Tree} : l.value name t t' → l.Same name (some t) (some t')
  | absent {t : Tree} : l.absent name = some t → l.Same name .none (some t)

namespace Record

/-- A change in the spelling of a record: its members stand in another order, the value of one of
them is spelled in another way, or one is added, either with the value that it has when it is left
out, or one that the record passes over. -/
inductive Respelled (r : Record) (l : Leeway) : Tree → Tree → Prop
  | reordered {ms ms' : List (Option String × Tree)} {closed : Bool} :
    ms.Perm ms' → r.Respelled l (.object ms closed) (.object ms' closed)
  | value {key : String} {t t' : Tree} {before after : List (Option String × Tree)}
    {closed : Bool} : l.value key t t' →
    r.Respelled l (.object (before ++ (some key, t) :: after) closed)
      (.object (before ++ (some key, t') :: after) closed)
  | absent {key : String} {t : Tree} {ms : List (Option String × Tree)} {closed : Bool} :
    l.absent key = some t → some key ∉ ms.map Prod.fst →
    r.Respelled l (.object ms closed) (.object ((some key, t) :: ms) closed)
  | passedOver {key : String} {t : Tree} {ms : List (Option String × Tree)} {closed : Bool} :
    r.strict = false → key ∉ r.names → t.isComplete = true →
    r.Respelled l (.object ms closed) (.object ((some key, t) :: ms) closed)

end Record

/-- The checks of the record agree with the leeway: two spellings of a value pass or none does, and
only members that need not be there may be left out. -/
structure Leeway.Fits (l : Leeway) (r : Record) : Prop where
  value {key t t'} : l.value key t t' →
    key ∈ r.names ∧ (r.check key t = .ok () ↔ r.check key t' = .ok ())
  absent {key t} : l.absent key = some t →
    key ∈ r.names ∧ (key, true) ∉ r.fields ∧ r.check key t = .ok ()

theorem Leeway.none_fits (r : Record) : Leeway.none.Fits r := ⟨nofun, nofun⟩

namespace Record

variable {r : Record} {l : Leeway} {ms ms' : List (Option String × Tree)}

theorem admits_congr (hpasses : (∀ m ∈ ms, r.Passes m) ↔ ∀ m ∈ ms', r.Passes m)
    (hkeys : (ms.filterMap r.own?).map Prod.fst = (ms'.filterMap r.own?).map Prod.fst) :
    r.Admits ms ↔ r.Admits ms' :=
  ⟨fun h => ⟨hpasses.1 h.passes, hkeys ▸ h.distinct, hkeys ▸ h.required⟩,
    fun h => ⟨hpasses.2 h.passes, hkeys ▸ h.distinct, hkeys ▸ h.required⟩⟩

section Value

variable {key : String} {t t' : Tree} {before after : List (Option String × Tree)}

/-- Another value of a member leaves the names, and so what the object is refused for. -/
theorem admits_value_iff (hkey : key ∈ r.names)
    (hcheck : r.check key t = .ok () ↔ r.check key t' = .ok ()) :
    r.Admits (before ++ (some key, t) :: after) ↔ r.Admits (before ++ (some key, t') :: after) := by
  apply admits_congr
  · simp only [List.forall_mem_append, List.forall_mem_cons, passes_iff_of_mem hkey, hcheck]
  · simp only [List.filterMap_append, List.filterMap_cons_some (own?_of_mem hkey _),
      List.map_append, List.map_cons]

theorem same_value (hkey : key ∈ r.names) (ht : l.value key t t') (name : String) :
    l.Same name (((before ++ (some key, t) :: after).filterMap r.own?).lookup name)
      (((before ++ (some key, t') :: after).filterMap r.own?).lookup name) := by
  simp only [List.filterMap_append, List.filterMap_cons_some (own?_of_mem hkey _),
    List.lookup_append, List.lookup_cons]
  cases (before.filterMap r.own?).lookup name with
  | some x => exact .same _
  | none =>
      by_cases hname : name = key
      · subst hname
        rw [beq_self_eq_true]
        exact .value ht
      · rw [beq_false_of_ne hname]
        exact .same _

end Value

section Added

variable {key : String} {t : Tree}

theorem mem_own_iff (name : String) : name ∈ (ms.filterMap r.own?).map Prod.fst ↔
    name ∈ r.names ∧ some name ∈ ms.map Prod.fst := by
  constructor
  · intro h
    obtain ⟨n, hn, rfl⟩ := List.mem_map.1 h
    obtain ⟨⟨key?, t⟩, hm, hown⟩ := List.mem_filterMap.1 hn
    obtain ⟨key, rfl, hkey⟩ := Option.bind_eq_some_iff.1 hown
    obtain ⟨hmem, ⟨⟩⟩ := Option.ite_none_right_eq_some.1 hkey
    exact ⟨hmem, List.mem_map_of_mem (f := Prod.fst) hm⟩
  · rintro ⟨hname, h⟩
    obtain ⟨⟨_, t⟩, hm, rfl⟩ := List.mem_map.1 h
    exact List.mem_map.2 ⟨(name, t), List.mem_filterMap.2 ⟨_, hm, own?_of_mem hname t⟩, rfl⟩

/-- A member with the value that it has anyway, where none of the name was, is no obstacle. -/
theorem admits_cons_iff (hkey : key ∈ r.names) (hfields : (key, true) ∉ r.fields)
    (hcheck : r.check key t = .ok ()) (hms : some key ∉ ms.map Prod.fst) :
    r.Admits ms ↔ r.Admits ((some key, t) :: ms) := by
  have hpasses : (∀ m ∈ (some key, t) :: ms, r.Passes m) ↔ ∀ m ∈ ms, r.Passes m := by
    rw [List.forall_mem_cons, passes_iff_of_mem hkey, and_iff_right hcheck]
  have hown : ((some key, t) :: ms).filterMap r.own? = (key, t) :: ms.filterMap r.own? :=
    List.filterMap_cons_some (own?_of_mem hkey t)
  have hnew : key ∉ (ms.filterMap r.own?).map Prod.fst := fun hmem =>
    hms ((mem_own_iff key).1 hmem).2
  constructor
  · intro h
    refine ⟨hpasses.2 h.passes, ?_, fun name hname => ?_⟩
    · rw [hown]
      exact List.nodup_cons.2 ⟨hnew, h.distinct⟩
    · rw [hown]
      exact List.mem_cons_of_mem key (h.required name hname)
  · intro h
    obtain ⟨hrest, hdistinct, hrequired⟩ := h
    rw [hown] at hdistinct hrequired
    refine ⟨hpasses.1 hrest, (List.nodup_cons.1 hdistinct).2, fun name hname => ?_⟩
    rcases List.mem_cons.1 (hrequired name hname) with rfl | hmem
    · exact absurd hname hfields
    · exact hmem

theorem same_cons (hkey : key ∈ r.names) (ht : l.absent key = some t)
    (hms : some key ∉ ms.map Prod.fst) (name : String) :
    l.Same name ((ms.filterMap r.own?).lookup name)
      ((((some key, t) :: ms).filterMap r.own?).lookup name) := by
  rw [List.filterMap_cons_some (own?_of_mem hkey t), List.lookup_cons]
  by_cases hname : name = key
  · subst hname
    have hlookup : (ms.filterMap r.own?).lookup name = none := by
      rw [List.lookup_eq_none_iff]
      exact fun n hn => bne_iff_ne.2 fun heq =>
        hms ((mem_own_iff name).1 (List.mem_map.2 ⟨n, hn, heq.symm⟩)).2
    rw [hlookup, beq_self_eq_true]
    exact .absent ht
  · rw [beq_false_of_ne hname]
    exact .same _

theorem admits_cons_passedOver_iff (hstrict : r.strict = false) (hkey : key ∉ r.names)
    (ht : t.isComplete = true) : r.Admits ms ↔ r.Admits ((some key, t) :: ms) := by
  apply admits_congr
  · rw [List.forall_mem_cons, passes_iff_of_notMem hkey, and_iff_right ⟨hstrict, ht⟩]
  · rw [List.filterMap_cons_none (own?_of_notMem hkey t)]

end Added

section Read

variable {β : Type} {fill : Members → Result β}

/-- A record is read alike before and after a change of its spelling if what is made of its members
depends on them by name only, and not beyond the leeway. -/
theorem Respelled.toOption_read_eq {t t' : Tree} (h : r.Respelled l t t') (hl : l.Fits r)
    (hfill : ∀ found found', (∀ name, l.Same name (found.lookup name) (found'.lookup name)) →
      (fill found).toOption = (fill found').toOption) :
    (r.members t >>= fill).toOption = (r.members t' >>= fill).toOption := by
  cases h with
  | reordered hperm =>
      refine Record.toOption_read_eq ⟨fun h => h.perm hperm, fun h => h.perm hperm.symm⟩
        (fun h => hfill _ _ fun name => ?_) _
      rw [lookup_eq_of_perm h.distinct (hperm.filterMap r.own?) name]
      exact .same _
  | value ht =>
      obtain ⟨hkey, hcheck⟩ := hl.value ht
      exact Record.toOption_read_eq (admits_value_iff hkey hcheck)
        (fun _ => hfill _ _ (same_value hkey ht)) _
  | absent ht hms =>
      obtain ⟨hkey, hfields, hcheck⟩ := hl.absent ht
      exact Record.toOption_read_eq (admits_cons_iff hkey hfields hcheck hms)
        (fun _ => hfill _ _ (same_cons hkey ht hms)) _
  | passedOver hstrict hkey ht =>
      refine Record.toOption_read_eq (admits_cons_passedOver_iff hstrict hkey ht)
        (fun _ => ?_) _
      rw [List.filterMap_cons_none (own?_of_notMem hkey _)]

/-- So it is after any number of changes, made and taken back. -/
theorem toOption_read_eq_of_respelled {t t' : Tree} (h : Relation.EqvGen (r.Respelled l) t t')
    (hl : l.Fits r)
    (hfill : ∀ found found', (∀ name, l.Same name (found.lookup name) (found'.lookup name)) →
      (fill found).toOption = (fill found').toOption) :
    (r.members t >>= fill).toOption = (r.members t' >>= fill).toOption := by
  induction h with
  | rel t t' h => exact h.toOption_read_eq hl hfill
  | refl t => rfl
  | symm t t' _ ih => exact ih.symm
  | trans t t' t'' _ _ ih ih' => exact ih.trans ih'

variable {found found' : Members} {name : String} {decode : Tree → Result β}

theorem toOption_required_eq (h : l.Same name (found.lookup name) (found'.lookup name))
    (hvalue : ∀ t t', l.value name t t' → (decode t).toOption = (decode t').toOption)
    (habsent : l.absent name = none) :
    (required found name decode).toOption = (required found' name decode).toOption := by
  unfold required
  generalize found.lookup name = x at h
  generalize found'.lookup name = y at h
  cases h with
  | same x => rfl
  | value ht => exact hvalue _ _ ht
  | absent ht => rw [habsent] at ht; cases ht

theorem toOption_optional_eq {b : β} (h : l.Same name (found.lookup name) (found'.lookup name))
    (hvalue : ∀ t t', l.value name t t' → (decode t).toOption = (decode t').toOption)
    (habsent : ∀ t, l.absent name = some t → decode t = .ok b) :
    (optional found name decode b).toOption = (optional found' name decode b).toOption := by
  unfold optional
  generalize found.lookup name = x at h
  generalize found'.lookup name = y at h
  cases h with
  | same x => rfl
  | value ht => exact hvalue _ _ ht
  | absent ht => exact congrArg Except.toOption (habsent _ ht).symm

end Read

end Record

end Json

end LinearModel
