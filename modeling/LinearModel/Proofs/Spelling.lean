import Mathlib
import LinearModel.Json.Decode

/-!
# How a tree is spelled

The tokens that a tree stands for (`Json.Tree.spelling`), as far as it makes sense to its end, and
the texts that spell it (`Json.Spells`). Reading a text and spelling a tree are inverse to each
other: the document of a text is a complete tree with nothing behind it exactly if the text spells
that tree. A text therefore spells one tree at most, and what is read from it can be said of the
tree.
-/

namespace LinearModel

namespace Json

namespace Tree

mutual

/-- The tokens of a tree that makes sense to its end; another one has no spelling of its own. -/
def spelling : Tree → List Token
  | null => [.null]
  | bool b => [.bool b]
  | number n => [.number n]
  | string text => [.string text]
  | array items _ => .openArray :: itemsSpelling items
  | object members _ => .openObject :: membersSpelling members
  | broken | oddObject _ => []

/-- The tokens of the items of an array up to the bracket that closes it. -/
def itemsSpelling : List Tree → List Token
  | [] => [.closeArray]
  | [t] => t.spelling ++ [.closeArray]
  | t :: u :: rest => t.spelling ++ .comma :: itemsSpelling (u :: rest)

def membersSpelling : List (Option String × Tree) → List Token
  | [] => [.closeObject]
  | [(key, t)] => .string key :: .colon :: (t.spelling ++ [.closeObject])
  | (key, t) :: m :: rest =>
    .string key :: .colon :: (t.spelling ++ .comma :: membersSpelling (m :: rest))

end

theorem allComplete_iff {ts : List Tree} :
    allComplete ts = true ↔ ∀ t ∈ ts, t.isComplete = true := by
  induction ts with
  | nil => simp [allComplete]
  | cons t ts ih => rw [allComplete, Bool.and_eq_true, ih, List.forall_mem_cons]

theorem allMembersComplete_iff {ms : List (Option String × Tree)} :
    allMembersComplete ms = true ↔ ∀ m ∈ ms, m.2.isComplete = true := by
  induction ms with
  | nil => simp [allMembersComplete]
  | cons m ms ih => rw [allMembersComplete, Bool.and_eq_true, ih, List.forall_mem_cons]

/-- The items of an array are spelled with commas between them. -/
theorem itemsSpelling_eq (ts : List Tree) :
    itemsSpelling ts = [Token.comma].intercalate (ts.map spelling) ++ [.closeArray] := by
  induction ts with
  | nil => rfl
  | cons t ts ih =>
      cases ts with
      | nil => simp [itemsSpelling]
      | cons u ts => rw [itemsSpelling, ih]; simp

theorem membersSpelling_eq (ms : List (Option String × Tree)) :
    membersSpelling ms =
      [Token.comma].intercalate (ms.map fun m => .string m.1 :: .colon :: m.2.spelling) ++
        [.closeObject] := by
  induction ms with
  | nil => rfl
  | cons m ms ih =>
      cases ms with
      | nil => simp [membersSpelling]
      | cons n ms => rw [membersSpelling, ih]; simp

theorem spelling_eq_cons {t : Tree} (h : t.isComplete = true) :
    ∃ head tail, t.spelling = head :: tail ∧ head ≠ .closeArray := by
  cases t with
  | broken => cases h
  | oddObject key => cases h
  | _ => exact ⟨_, _, rfl, nofun⟩

section Steps

variable {fuel : Nat} {t : Tree} {key : Option String} {tokens rest : List Token}

theorem items_of_closeArray (h : value fuel tokens = (t, .closeArray :: rest)) :
    items (fuel + 1) tokens = ([t], true, rest) := by
  rw [items, h]

theorem items_of_comma (h : value fuel tokens = (t, .comma :: rest)) :
    items (fuel + 1) tokens =
      (t :: (items fuel rest).1, (items fuel rest).2.1, (items fuel rest).2.2) := by
  rw [items, h]

theorem members_of_closeObject (h : value fuel tokens = (t, .closeObject :: rest)) :
    members (fuel + 1) (.string key :: .colon :: tokens) = ([(key, t)], true, rest) := by
  rw [members, h]

theorem members_of_comma (h : value fuel tokens = (t, .comma :: rest)) :
    members (fuel + 1) (.string key :: .colon :: tokens) =
      ((key, t) :: (members fuel rest).1, (members fuel rest).2.1, (members fuel rest).2.2) := by
  rw [members, h]

theorem value_openArray {head : Token} (h : head ≠ .closeArray) :
    value (fuel + 1) (.openArray :: head :: tokens) =
      (.array (items fuel (head :: tokens)).1 (items fuel (head :: tokens)).2.1,
        (items fuel (head :: tokens)).2.2) := by
  rw [value]
  exact fun _ h' => h (List.cons.inj h').1

theorem value_openObject :
    value (fuel + 1) (.openObject :: .string key :: tokens) =
      (.object (members fuel (.string key :: tokens)).1 (members fuel (.string key :: tokens)).2.1,
        (members fuel (.string key :: tokens)).2.2) := by
  rw [value]

end Steps

theorem itemsSpelling_eq_cons {t : Tree} (h : t.isComplete = true) (others : List Tree) :
    ∃ head tail, itemsSpelling (t :: others) = head :: tail ∧ head ≠ .closeArray := by
  obtain ⟨head, tail, hspelling, hhead⟩ := spelling_eq_cons h
  cases others with
  | nil => exact ⟨head, tail ++ [.closeArray], by rw [itemsSpelling, hspelling]; rfl, hhead⟩
  | cons u others =>
      exact ⟨head, tail ++ .comma :: itemsSpelling (u :: others),
        by rw [itemsSpelling, hspelling]; rfl, hhead⟩

theorem membersSpelling_eq_cons (m : Option String × Tree)
    (others : List (Option String × Tree)) :
    ∃ tail, membersSpelling (m :: others) = .string m.1 :: tail := by
  cases others with
  | nil => exact ⟨_, membersSpelling.eq_2 m.1 m.2⟩
  | cons n others => exact ⟨_, membersSpelling.eq_3 m.1 m.2 n others⟩

theorem length_spelling_pos {t : Tree} (h : t.isComplete = true) : 0 < t.spelling.length := by
  obtain ⟨head, tail, hspelling, -⟩ := spelling_eq_cons h
  simp [hspelling]

/-- With so many steps a spelling that is not too long is read to its end, whatever stands behind
it. Twice as many steps as there are tokens suffice: one for each level that a token opens and one
for each item. -/
structure ReadsSpelling (fuel : Nat) : Prop where
  value {t} : t.isComplete = true → 2 * t.spelling.length ≤ fuel + 1 →
    ∀ rest, value fuel (t.spelling ++ rest) = (t, rest)
  items {t others} : allComplete (t :: others) = true →
    2 * (itemsSpelling (t :: others)).length ≤ fuel + 1 →
    ∀ rest, items fuel (itemsSpelling (t :: others) ++ rest) = (t :: others, true, rest)
  members {m others} : allMembersComplete (m :: others) = true →
    2 * (membersSpelling (m :: others)).length ≤ fuel + 1 →
    ∀ rest, members fuel (membersSpelling (m :: others) ++ rest) = (m :: others, true, rest)

namespace ReadsSpelling

variable {fuel : Nat}

theorem value_succ (h : ReadsSpelling fuel) {t : Tree} (ht : t.isComplete = true)
    (hfuel : 2 * t.spelling.length ≤ fuel + 1 + 1) (rest : List Token) :
    Tree.value (fuel + 1) (t.spelling ++ rest) = (t, rest) := by
  cases t with
  | broken => cases ht
  | oddObject key => cases ht
  | array items closed =>
      obtain ⟨hall, rfl⟩ := Bool.and_eq_true_iff.1 ht
      cases items with
      | nil => rfl
      | cons t others =>
          rw [spelling, List.length_cons] at hfuel
          have hitems := h.items hall (by omega) rest
          obtain ⟨head, tail, hhead, hne⟩ :=
            itemsSpelling_eq_cons (Bool.and_eq_true_iff.1 hall).1 others
          rw [hhead, List.cons_append] at hitems
          rw [spelling, hhead, List.cons_append, List.cons_append, value_openArray hne, hitems]
  | object members closed =>
      obtain ⟨hall, rfl⟩ := Bool.and_eq_true_iff.1 ht
      cases members with
      | nil => rfl
      | cons m others =>
          rw [spelling, List.length_cons] at hfuel
          have hmembers := h.members hall (by omega) rest
          obtain ⟨tail, hhead⟩ := membersSpelling_eq_cons m others
          rw [hhead, List.cons_append] at hmembers
          rw [spelling, hhead, List.cons_append, List.cons_append, value_openObject, hmembers]
  | _ => rfl

theorem items_succ (h : ReadsSpelling fuel) {t : Tree} {others : List Tree}
    (hall : allComplete (t :: others) = true)
    (hfuel : 2 * (itemsSpelling (t :: others)).length ≤ fuel + 1 + 1) (rest : List Token) :
    Tree.items (fuel + 1) (itemsSpelling (t :: others) ++ rest) = (t :: others, true, rest) := by
  obtain ⟨ht, hothers⟩ := Bool.and_eq_true_iff.1 hall
  cases others with
  | nil =>
      rw [itemsSpelling, List.length_append, List.length_singleton] at hfuel
      rw [itemsSpelling, List.append_assoc]
      exact items_of_closeArray (h.value ht (by omega) _)
  | cons u others =>
      rw [itemsSpelling, List.length_append, List.length_cons] at hfuel
      rw [itemsSpelling, List.append_assoc, List.cons_append,
        items_of_comma (h.value ht (by omega) _), h.items hothers (by omega) rest]

theorem members_succ (h : ReadsSpelling fuel) {m : Option String × Tree}
    {others : List (Option String × Tree)} (hall : allMembersComplete (m :: others) = true)
    (hfuel : 2 * (membersSpelling (m :: others)).length ≤ fuel + 1 + 1) (rest : List Token) :
    Tree.members (fuel + 1) (membersSpelling (m :: others) ++ rest) = (m :: others, true, rest) := by
  obtain ⟨key, t⟩ := m
  obtain ⟨ht, hothers⟩ := Bool.and_eq_true_iff.1 hall
  cases others with
  | nil =>
      rw [membersSpelling, List.length_cons, List.length_cons, List.length_append,
        List.length_singleton] at hfuel
      rw [membersSpelling, List.cons_append, List.cons_append, List.append_assoc]
      exact members_of_closeObject (h.value ht (by omega) _)
  | cons m others =>
      rw [membersSpelling, List.length_cons, List.length_cons, List.length_append,
        List.length_cons] at hfuel
      rw [membersSpelling, List.cons_append, List.cons_append, List.append_assoc, List.cons_append,
        members_of_comma (h.value ht (by omega) _), h.members hothers (by omega) rest]

end ReadsSpelling

theorem readsSpelling (fuel : Nat) : ReadsSpelling fuel := by
  induction fuel with
  | zero =>
      refine ⟨fun ht hfuel => ?_, fun {t others} hall hfuel => ?_, fun {m others} _ hfuel => ?_⟩
      · have hpos := length_spelling_pos ht
        omega
      · obtain ⟨head, tail, hspelling, -⟩ :=
          itemsSpelling_eq_cons (Bool.and_eq_true_iff.1 hall).1 others
        rw [hspelling, List.length_cons] at hfuel
        omega
      · obtain ⟨tail, hspelling⟩ := membersSpelling_eq_cons m others
        rw [hspelling, List.length_cons] at hfuel
        omega
  | succ fuel ih => exact ⟨ih.value_succ, ih.items_succ, ih.members_succ⟩

/-- What is read with so many steps is spelled by the tokens that were taken, if it is complete. -/
structure SpellsReading (fuel : Nat) : Prop where
  value {tokens t rest} : value fuel tokens = (t, rest) → t.isComplete = true →
    tokens = t.spelling ++ rest
  items {tokens ts rest} : items fuel tokens = (ts, true, rest) → allComplete ts = true →
    ts ≠ [] ∧ tokens = itemsSpelling ts ++ rest
  members {tokens ms rest} : members fuel tokens = (ms, true, rest) →
    allMembersComplete ms = true → ms ≠ [] ∧ tokens = membersSpelling ms ++ rest

namespace SpellsReading

variable {fuel : Nat}

theorem value_succ (h : SpellsReading fuel) {tokens rest : List Token} {t : Tree}
    (hread : Tree.value (fuel + 1) tokens = (t, rest)) (ht : t.isComplete = true) :
    tokens = t.spelling ++ rest := by
  simp only [Tree.value] at hread
  split at hread
  case h_6 tokens _ =>
    cases hread
    obtain ⟨hall, hclosed⟩ := Bool.and_eq_true_iff.1 ht
    obtain ⟨-, hspelling⟩ := h.items (Prod.ext rfl (Prod.ext hclosed rfl)) hall
    exact congrArg (Token.openArray :: ·) hspelling
  case h_8 key tokens =>
    cases hread
    obtain ⟨hall, hclosed⟩ := Bool.and_eq_true_iff.1 ht
    obtain ⟨-, hspelling⟩ := h.members (Prod.ext rfl (Prod.ext hclosed rfl)) hall
    exact congrArg (Token.openObject :: ·) hspelling
  all_goals cases hread
  -- what remains is a single token, an empty array or object, or a tree that breaks off
  all_goals first | rfl | cases ht

theorem items_succ (h : SpellsReading fuel) {tokens rest : List Token} {ts : List Tree}
    (hread : Tree.items (fuel + 1) tokens = (ts, true, rest)) (hts : allComplete ts = true) :
    ts ≠ [] ∧ tokens = itemsSpelling ts ++ rest := by
  obtain ⟨⟨t, behind⟩, hvalue⟩ : ∃ read, Tree.value fuel tokens = read := ⟨_, rfl⟩
  simp only [Tree.items, hvalue] at hread
  split at hread
  case h_1 behind =>
    obtain ⟨⟨others, closed, behind'⟩, hitems⟩ : ∃ read, Tree.items fuel behind = read := ⟨_, rfl⟩
    simp only [hitems, Prod.mk.injEq] at hread
    obtain ⟨rfl, rfl, rfl⟩ := hread
    obtain ⟨ht, hothers⟩ := Bool.and_eq_true_iff.1 hts
    obtain ⟨hne, rfl⟩ := h.items hitems hothers
    obtain ⟨u, others, rfl⟩ := List.exists_cons_of_ne_nil hne
    refine ⟨List.cons_ne_nil _ _, ?_⟩
    rw [h.value hvalue ht, itemsSpelling, List.append_assoc, List.cons_append]
  case h_2 behind =>
    cases hread
    refine ⟨List.cons_ne_nil _ _, ?_⟩
    rw [h.value hvalue (Bool.and_eq_true_iff.1 hts).1, itemsSpelling, List.append_assoc]
    rfl
  case h_3 => cases hread

theorem members_succ (h : SpellsReading fuel) {tokens rest : List Token}
    {ms : List (Option String × Tree)} (hread : Tree.members (fuel + 1) tokens = (ms, true, rest))
    (hms : allMembersComplete ms = true) : ms ≠ [] ∧ tokens = membersSpelling ms ++ rest := by
  rw [Tree.members.eq_def] at hread
  dsimp only at hread
  split at hread
  case h_1 key tokens =>
    obtain ⟨⟨t, behind⟩, hvalue⟩ : ∃ read, Tree.value fuel tokens = read := ⟨_, rfl⟩
    simp only [hvalue] at hread
    split at hread
    case h_1 behind =>
      obtain ⟨⟨others, closed, behind'⟩, hmembers⟩ : ∃ read, Tree.members fuel behind = read :=
        ⟨_, rfl⟩
      simp only [hmembers, Prod.mk.injEq] at hread
      obtain ⟨rfl, rfl, rfl⟩ := hread
      obtain ⟨ht, hothers⟩ := Bool.and_eq_true_iff.1 hms
      obtain ⟨hne, rfl⟩ := h.members hmembers hothers
      obtain ⟨m, others, rfl⟩ := List.exists_cons_of_ne_nil hne
      refine ⟨List.cons_ne_nil _ _, ?_⟩
      rw [h.value hvalue ht, membersSpelling, List.cons_append, List.cons_append,
        List.append_assoc, List.cons_append]
    case h_2 behind =>
      cases hread
      refine ⟨List.cons_ne_nil _ _, ?_⟩
      rw [h.value hvalue (Bool.and_eq_true_iff.1 hms).1, membersSpelling, List.cons_append,
        List.cons_append, List.append_assoc]
      rfl
    case h_3 => cases hread
  all_goals cases hread

end SpellsReading

theorem spellsReading (fuel : Nat) : SpellsReading fuel := by
  induction fuel with
  | zero =>
      refine ⟨fun hread ht => ?_, fun hread _ => ?_, fun hread _ => ?_⟩
      · cases hread
        cases ht
      · cases hread
      · cases hread
  | succ fuel ih => exact ⟨ih.value_succ, ih.items_succ, ih.members_succ⟩

end Tree

/-- The text is one value that makes sense, blanks apart: its tokens are those of the tree. -/
structure Spells (text : String) (t : Tree) : Prop where
  complete : t.isComplete = true
  tokens : Json.tokens text = t.spelling

theorem spells_iff (text : String) (t : Tree) :
    Spells text t ↔ t.isComplete = true ∧ Document.ofText text = ⟨t, false⟩ := by
  constructor
  · intro h
    have hvalue : Tree.value (2 * (tokens text).length + 1) (tokens text) = (t, []) := by
      have hread := (Tree.readsSpelling (2 * t.spelling.length + 1)).value h.complete (by omega) []
      rwa [List.append_nil, ← h.tokens] at hread
    exact ⟨h.complete, by simp only [Document.ofText, hvalue]; rfl⟩
  · rintro ⟨hcomplete, hdocument⟩
    refine ⟨hcomplete, ?_⟩
    simp only [Document.ofText, Document.mk.injEq, Bool.not_eq_false', List.isEmpty_iff]
      at hdocument
    obtain ⟨htree, hrest⟩ := hdocument
    have hspelling := (Tree.spellsReading _).value (Prod.ext htree hrest) hcomplete
    rwa [List.append_nil] at hspelling

/-- Blanks between tokens do not matter. -/
example : Spells "\x7b \"rows\": 1\x7d"
    (.object [(some "rows", .number ⟨false, ['1'], [], none⟩)] true) :=
  ⟨rfl, by decide⟩

/-- What is read from a text that spells a tree is what is read off the tree. -/
theorem Spells.readText_eq {text : String} {t : Tree} (h : Spells text t) {β : Type}
    (decode : Tree → Result β) : readText decode text = decode t := by
  rw [readText, ((spells_iff text t).1 h).2]
  exact bind_pure (decode t)

theorem bind_eq_ok_iff {β γ : Type} {x : Result β} {f : β → Result γ} {c : γ} :
    x >>= f = .ok c ↔ ∃ b, x = .ok b ∧ f b = .ok c := by
  cases x with
  | error cause => exact iff_of_false nofun nofun
  | ok b => exact ⟨fun h => ⟨b, rfl, h⟩, by rintro ⟨_, ⟨⟩, h⟩; exact h⟩

namespace Decode

variable {β : Type}

/-- Whatever is read off a tree is read to its end: only complete trees are accepted. -/
def Whole (decode : Tree → Result β) : Prop := ∀ t x, decode t = .ok x → t.isComplete = true

theorem whole_float : Whole float := by
  intro t x h
  cases t with
  | number n => rfl
  | _ => cases h

theorem whole_index : Whole index := by
  intro t x h
  cases t with
  | number n => rfl
  | _ => cases h

theorem whole_bool : Whole bool := by
  intro t x h
  cases t with
  | bool b => rfl
  | _ => cases h

theorem whole_string : Whole string := by
  intro t x h
  cases t with
  | string text => rfl
  | _ => cases h

variable {decode : Tree → Result β}

theorem whole_optional (h : Whole decode) : Whole (optional decode) := by
  intro t x hread
  unfold optional at hread
  split at hread
  · rfl
  · cases hdecode : decode t with
    | error cause => rw [hdecode] at hread; cases hread
    | ok y => exact h t y hdecode

theorem allComplete_of_each_eq_ok (h : Whole decode) {ts : List Tree} {xs : List β}
    (hread : each decode ts = .ok xs) : Tree.allComplete ts = true := by
  induction ts generalizing xs with
  | nil => rfl
  | cons t ts ih =>
      obtain ⟨x, hx, hrest⟩ := bind_eq_ok_iff.1 hread
      obtain ⟨xs, hxs, -⟩ := bind_eq_ok_iff.1 hrest
      exact Bool.and_eq_true_iff.2 ⟨h t x hx, ih hxs⟩

theorem whole_list (h : Whole decode) : Whole (list decode) := by
  intro t x hread
  cases t with
  | array items closed =>
      obtain ⟨xs, hxs, hclosed⟩ := bind_eq_ok_iff.1 hread
      cases closed with
      | false => cases hclosed
      | true => exact Bool.and_eq_true_iff.2 ⟨allComplete_of_each_eq_ok h hxs, rfl⟩
  | _ => cases hread

theorem whole_choice (names : List String) (named : String → Option β) :
    Whole (choice names named) := by
  intro t x hread
  unfold choice at hread
  split at hread
  · rfl
  · obtain ⟨y, -, hvalue⟩ := bind_eq_ok_iff.1 hread
    split at hvalue
    · split at hvalue
      case isTrue hempty =>
        obtain ⟨hothers, hclosed⟩ := Bool.and_eq_true_iff.1 hempty
        rw [List.isEmpty_iff.1 hothers, hclosed]
        rfl
      case isFalse => cases hvalue
    · cases hvalue
  · cases hread
  · cases hread

end Decode

/-- A text from which something is read spells the tree that it is read off. -/
theorem exists_spells_of_readText_eq_ok {β : Type} {decode : Tree → Result β}
    (hdecode : Decode.Whole decode) {text : String} {x : β} (h : readText decode text = .ok x) :
    ∃ t, Spells text t ∧ decode t = .ok x := by
  obtain ⟨y, hy, hrest⟩ := bind_eq_ok_iff.1 h
  split at hrest
  case isTrue => cases hrest
  case isFalse htrailing =>
    cases hrest
    refine ⟨(Document.ofText text).tree, (spells_iff _ _).2 ⟨hdecode _ _ hy, ?_⟩, hy⟩
    rw [← Bool.eq_false_iff.2 htrailing]

end Json

end LinearModel
