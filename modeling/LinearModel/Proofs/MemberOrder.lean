import Mathlib
import LinearModel.ProblemFile
import LinearModel.Proofs.Respelling

/-!
# Members in any order

How a problem file and its constraints may be respelled (`ProblemFile.leeway`,
`FileConstraint.leeway`), and that reading them does not see it. Both are strict: what is accepted
has no members but the known ones, and each once (`ProblemFile.Exact`). The records of shapes,
bounds, solutions and coordinate lists need all their members, but pass over others.

All this is first said of trees, and then of the texts that spell them
(`members_in_any_order`).
-/

namespace LinearModel

open Json

namespace Json.Decode

variable {β : Type} {decode : Tree → Result β}

/-- An item that is read alike may take the place of another. -/
theorem toOption_each_eq {t t' : Tree} (h : (decode t).toOption = (decode t').toOption)
    (before after : List Tree) :
    (each decode (before ++ t :: after)).toOption =
      (each decode (before ++ t' :: after)).toOption := by
  induction before with
  | nil => exact toOption_bind_congr h fun _ => rfl
  | cons u before ih => exact toOption_bind_congr rfl fun _ => toOption_bind_congr ih fun _ => rfl

theorem toOption_list_eq {t t' : Tree} (h : (decode t).toOption = (decode t').toOption)
    (before after : List Tree) (closed : Bool) :
    (list decode (.array (before ++ t :: after) closed)).toOption =
      (list decode (.array (before ++ t' :: after) closed)).toOption :=
  toOption_bind_congr (toOption_each_eq h before after) fun _ => rfl

theorem exists_eq_ok_of_each_eq_ok {ts : List Tree} {xs : List β} (h : each decode ts = .ok xs)
    {t : Tree} (ht : t ∈ ts) : ∃ x, decode t = .ok x := by
  induction ts generalizing xs with
  | nil => cases ht
  | cons u ts ih =>
      obtain ⟨x, hx, hrest⟩ := bind_eq_ok_iff.1 h
      obtain ⟨xs, hxs, -⟩ := bind_eq_ok_iff.1 hrest
      rcases List.mem_cons.1 ht with rfl | ht
      · exact ⟨x, hx⟩
      · exact ih hxs ht

end Json.Decode

namespace FileConstraint

/-- A constraint without a name may as well have null for one. -/
def leeway : Leeway where
  value _ _ _ := False
  absent
    | "name" => some .null
    | _ => none

theorem leeway_fits : leeway.Fits record where
  value := nofun
  absent {key t} h := by
    unfold leeway at h
    dsimp at h
    split at h
    · cases h
      exact ⟨by decide, by decide, rfl⟩
    · cases h

theorem toOption_read_eq {t t' : Tree} (h : record.Respelled leeway t t') :
    (read t).toOption = (read t').toOption := by
  refine h.toOption_read_eq leeway_fits fun found found' hsame => ?_
  refine toOption_bind_congr (Record.toOption_optional_eq (hsame _) nofun
    (by rintro t ⟨⟩; rfl)) fun name => ?_
  refine toOption_bind_congr (Record.toOption_required_eq (hsame _) nofun rfl)
    fun coefficients => ?_
  refine toOption_bind_congr (Record.toOption_required_eq (hsame _) nofun rfl) fun relation => ?_
  exact toOption_bind_congr (Record.toOption_required_eq (hsame _) nofun rfl) fun rhs => rfl

theorem isComplete_of_check_eq_ok (key : String) (t : Tree) (h : record.check key t = .ok ()) :
    t.isComplete = true := by
  unfold record at h
  dsimp at h
  split at h
  · exact Record.isComplete_of_problem_eq_ok (Decode.whole_optional Decode.whole_string) h
  · exact Record.isComplete_of_problem_eq_ok (Decode.whole_list Decode.whole_float) h
  · exact Record.isComplete_of_problem_eq_ok (Decode.whole_choice _ _) h
  · exact Record.isComplete_of_problem_eq_ok Decode.whole_float h

theorem whole_read : Decode.Whole read := by
  intro t c h
  obtain ⟨found, hfound, -⟩ := bind_eq_ok_iff.1 h
  exact Record.isComplete_of_members_eq_ok isComplete_of_check_eq_ok hfound

end FileConstraint

namespace ProblemFile

/-- Two lists of constraints that differ in the spelling of one. -/
inductive ConstraintsRespelled : Tree → Tree → Prop
  | one {t t' : Tree} {before after : List Tree} {closed : Bool} :
    FileConstraint.record.Respelled FileConstraint.leeway t t' →
    ConstraintsRespelled (.array (before ++ t :: after) closed)
      (.array (before ++ t' :: after) closed)

/-- The constraints of a file may be respelled one by one, and all parts but the objective may be
left out: not minimizing, no names and bounds, and no integers, binaries and constraints. -/
def leeway : Leeway where
  value key t t' := key = "constraints" ∧ ConstraintsRespelled t t'
  absent
    | "minimize" => some (.bool false)
    | "variables" | "lower_bounds" | "upper_bounds" => some .null
    | "integer" | "binary" | "constraints" => some (.array [] true)
    | _ => none

theorem toOption_constraints_eq {t t' : Tree} (h : ConstraintsRespelled t t') :
    (Decode.list FileConstraint.read t).toOption =
      (Decode.list FileConstraint.read t').toOption := by
  cases h with
  | one h => exact Decode.toOption_list_eq (FileConstraint.toOption_read_eq h) _ _ _

theorem leeway_fits : leeway.Fits record where
  value := by
    rintro _ t t' ⟨rfl, h⟩
    have hproblem : (record.check "constraints" t).toOption =
        (record.check "constraints" t').toOption :=
      toOption_bind_congr (toOption_constraints_eq h) fun _ => rfl
    refine ⟨by decide, ?_⟩
    rw [← toOption_eq_some_iff, hproblem, toOption_eq_some_iff]
  absent {key t} h := by
    unfold leeway at h
    dsimp at h
    split at h
    all_goals cases h
    all_goals exact ⟨by decide, by decide, rfl⟩

theorem toOption_read_eq {t t' : Tree} (h : Relation.EqvGen (record.Respelled leeway) t t') :
    (read t).toOption = (read t').toOption := by
  have hother {name : String} (hname : name ≠ "constraints") {β : Type}
      (decode : Tree → Result β) (t t' : Tree) (ht : leeway.value name t t') :
      (decode t).toOption = (decode t').toOption := absurd ht.1 hname
  refine Record.toOption_read_eq_of_respelled h leeway_fits fun found found' hsame => ?_
  refine toOption_bind_congr (Record.toOption_optional_eq (hsame _) (hother (by decide) _)
    (by rintro t ⟨⟩; rfl)) fun minimize => ?_
  refine toOption_bind_congr (Record.toOption_required_eq (hsame _) (hother (by decide) _) rfl)
    fun objective => ?_
  refine toOption_bind_congr (Record.toOption_optional_eq (hsame _) (hother (by decide) _)
    (by rintro t ⟨⟩; rfl)) fun names => ?_
  refine toOption_bind_congr (Record.toOption_optional_eq (hsame _) (hother (by decide) _)
    (by rintro t ⟨⟩; rfl)) fun lowerBounds => ?_
  refine toOption_bind_congr (Record.toOption_optional_eq (hsame _) (hother (by decide) _)
    (by rintro t ⟨⟩; rfl)) fun upperBounds => ?_
  refine toOption_bind_congr (Record.toOption_optional_eq (hsame _) (hother (by decide) _)
    (by rintro t ⟨⟩; rfl)) fun integer => ?_
  refine toOption_bind_congr (Record.toOption_optional_eq (hsame _) (hother (by decide) _)
    (by rintro t ⟨⟩; rfl)) fun binary => ?_
  exact toOption_bind_congr (Record.toOption_optional_eq (hsame _)
    (fun t t' ht => toOption_constraints_eq ht.2) (by rintro t ⟨⟩; rfl)) fun constraints => rfl

/-- Neither the file nor one of its constraints has a member that they do not know, or one twice. -/
structure Exact (t : Tree) : Prop where
  file : ∀ ms closed, t = .object ms closed → record.Exact ms
  constraint : ∀ ms closed items closed', t = .object ms closed →
    (some "constraints", .array items closed') ∈ ms →
    ∀ es closed'', .object es closed'' ∈ items → FileConstraint.record.Exact es

theorem exact_of_read_eq_ok {t : Tree} {file : ProblemFile} (h : read t = .ok file) : Exact t := by
  obtain ⟨found, hfound, -⟩ := bind_eq_ok_iff.1 h
  constructor
  · rintro ms closed rfl
    exact (record.members_object_eq_ok_iff.1 hfound).2.1.exact rfl
  · rintro ms closed items closed' rfl hmem es closed'' hes
    have hpasses := (record.members_object_eq_ok_iff.1 hfound).2.1.passes _ hmem
    have hcheck :
        Record.problem (Decode.list FileConstraint.read) (.array items closed') = .ok () :=
      (Record.passes_iff_of_mem (by decide) _).1 hpasses
    obtain ⟨xs, hlist, -⟩ := bind_eq_ok_iff.1 hcheck
    obtain ⟨_, heach, -⟩ := bind_eq_ok_iff.1 hlist
    obtain ⟨x, hread⟩ := Decode.exists_eq_ok_of_each_eq_ok heach hes
    obtain ⟨found', hfound', -⟩ := bind_eq_ok_iff.1 hread
    exact (FileConstraint.record.members_object_eq_ok_iff.1 hfound').2.1.exact rfl

theorem isComplete_of_check_eq_ok (key : String) (t : Tree) (h : record.check key t = .ok ()) :
    t.isComplete = true := by
  have hbounds : Decode.Whole readBounds :=
    Decode.whole_optional (Decode.whole_list (Decode.whole_optional Decode.whole_float))
  unfold record at h
  dsimp at h
  split at h
  · exact Record.isComplete_of_problem_eq_ok Decode.whole_bool h
  · exact Record.isComplete_of_problem_eq_ok (Decode.whole_list Decode.whole_float) h
  · exact Record.isComplete_of_problem_eq_ok
      (Decode.whole_optional (Decode.whole_list Decode.whole_string)) h
  · exact Record.isComplete_of_problem_eq_ok hbounds h
  · exact Record.isComplete_of_problem_eq_ok hbounds h
  · exact Record.isComplete_of_problem_eq_ok (Decode.whole_list Decode.whole_index) h
  · exact Record.isComplete_of_problem_eq_ok (Decode.whole_list Decode.whole_index) h
  · exact Record.isComplete_of_problem_eq_ok (Decode.whole_list FileConstraint.whole_read) h

theorem whole_read : Decode.Whole read := by
  intro t file h
  obtain ⟨found, hfound, -⟩ := bind_eq_ok_iff.1 h
  exact Record.isComplete_of_members_eq_ok isComplete_of_check_eq_ok hfound

end ProblemFile

section PassedOver

variable {t t' : Tree}

theorem Shape.toOption_read_eq (h : Relation.EqvGen (Shape.record.Respelled .none) t t') :
    (Shape.read t).toOption = (Shape.read t').toOption := by
  refine Record.toOption_read_eq_of_respelled h (Leeway.none_fits _) fun found found' hsame => ?_
  refine toOption_bind_congr (Record.toOption_required_eq (hsame _) nofun rfl) fun rows => ?_
  exact toOption_bind_congr (Record.toOption_required_eq (hsame _) nofun rfl) fun cols => rfl

theorem Bound.toOption_read_eq (h : Relation.EqvGen (Bound.record.Respelled .none) t t') :
    (Bound.read t).toOption = (Bound.read t').toOption := by
  refine Record.toOption_read_eq_of_respelled h (Leeway.none_fits _) fun found found' hsame => ?_
  refine toOption_bind_congr (Record.toOption_required_eq (hsame _) nofun rfl) fun kind => ?_
  refine toOption_bind_congr (Record.toOption_required_eq (hsame _) nofun rfl) fun lower => ?_
  exact toOption_bind_congr (Record.toOption_required_eq (hsame _) nofun rfl) fun upper => rfl

theorem Solution.toOption_read_eq (h : Relation.EqvGen (Solution.record.Respelled .none) t t') :
    (Solution.read t).toOption = (Solution.read t').toOption := by
  refine Record.toOption_read_eq_of_respelled h (Leeway.none_fits _) fun found found' hsame => ?_
  refine toOption_bind_congr (Record.toOption_required_eq (hsame _) nofun rfl) fun status => ?_
  refine toOption_bind_congr (Record.toOption_required_eq (hsame _) nofun rfl) fun values => ?_
  exact toOption_bind_congr (Record.toOption_required_eq (hsame _) nofun rfl) fun objective => rfl

theorem CoordinateList.toOption_read_eq
    (h : Relation.EqvGen (CoordinateList.record.Respelled .none) t t') :
    (CoordinateList.read t).toOption = (CoordinateList.read t').toOption := by
  refine Record.toOption_read_eq_of_respelled h (Leeway.none_fits _) fun found found' hsame => ?_
  refine toOption_bind_congr (Record.toOption_required_eq (hsame _) nofun rfl) fun rows => ?_
  refine toOption_bind_congr (Record.toOption_required_eq (hsame _) nofun rfl) fun cols => ?_
  exact toOption_bind_congr (Record.toOption_required_eq (hsame _) nofun rfl) fun values => rfl

end PassedOver

/-- Texts of a problem file that differ in the order of the members, of the file and of its
constraints, or in members that are left out where the other text has their default, are read alike,
so that they are made into the same program; and no text is accepted with a member that is unknown
or comes twice. Texts of the other records are read alike if they differ in the order of the members
or in members that the record does not know. -/
theorem members_in_any_order :
    (∀ text text' t t', Spells text t → Spells text' t' →
      Relation.EqvGen (ProblemFile.record.Respelled ProblemFile.leeway) t t' →
      (ProblemFile.parse text).toOption = (ProblemFile.parse text').toOption) ∧
    (∀ text file, ProblemFile.parse text = .ok file →
      ∃ t, Spells text t ∧ ProblemFile.Exact t) ∧
    ∀ text text' t t', Spells text t → Spells text' t' →
      (Relation.EqvGen (Shape.record.Respelled .none) t t' →
        (readText Shape.read text).toOption = (readText Shape.read text').toOption) ∧
      (Relation.EqvGen (Bound.record.Respelled .none) t t' →
        (readText Bound.read text).toOption = (readText Bound.read text').toOption) ∧
      (Relation.EqvGen (Solution.record.Respelled .none) t t' →
        (readText Solution.read text).toOption = (readText Solution.read text').toOption) ∧
      (Relation.EqvGen (CoordinateList.record.Respelled .none) t t' →
        (readText CoordinateList.read text).toOption =
          (readText CoordinateList.read text').toOption) := by
  refine ⟨fun text text' t t' ht ht' h => ?_, fun text file h => ?_,
    fun text text' t t' ht ht' => ?_⟩
  · rw [ProblemFile.parse, ProblemFile.parse, ht.readText_eq, ht'.readText_eq]
    exact ProblemFile.toOption_read_eq h
  · obtain ⟨t, ht, hread⟩ := exists_spells_of_readText_eq_ok ProblemFile.whole_read h
    exact ⟨t, ht, ProblemFile.exact_of_read_eq_ok hread⟩
  · simp only [ht.readText_eq, ht'.readText_eq]
    exact ⟨Shape.toOption_read_eq, Bound.toOption_read_eq, Solution.toOption_read_eq,
      CoordinateList.toOption_read_eq⟩

/-- What is left out is read as its default, wherever that stands: the two texts are one file, with
nothing but an objective. -/
theorem members_in_any_order_default_last :
    (ProblemFile.parse "\x7b\"objective\":[1]\x7d").toOption =
        some ⟨false, [1], none, none, none, [], [], []⟩ ∧
      (ProblemFile.parse "\x7b\"objective\":[1],\"minimize\":false\x7d").toOption =
        some ⟨false, [1], none, none, none, [], [], []⟩ := by
  have hone : Spells "\x7b\"objective\":[1]\x7d"
      (.object [(some "objective", .array [.number ⟨false, ['1'], [], none⟩] true)] true) :=
    ⟨rfl, by decide⟩
  have htwo : Spells "\x7b\"objective\":[1],\"minimize\":false\x7d"
      (.object [(some "objective", .array [.number ⟨false, ['1'], [], none⟩] true),
        (some "minimize", .bool false)] true) :=
    ⟨rfl, by decide⟩
  have hread : (ProblemFile.parse "\x7b\"objective\":[1]\x7d").toOption =
      some ⟨false, [1], none, none, none, [], [], []⟩ := by
    rw [ProblemFile.parse, hone.readText_eq]
    decide +kernel
  have hsame := members_in_any_order.1 _ _ _ _ hone htwo (.trans _ _ _
    (.rel _ _ (.absent rfl (by decide))) (.rel _ _ (.reordered (List.Perm.swap _ _ _))))
  exact ⟨hread, hsame.symm.trans hread⟩

end LinearModel
