import Mathlib
import LinearModel.Proofs.WrittenNumbers

/-!
# Written text

The text that is written for a value spells a tree (`Json.Value.tree`), whether it is written with
blanks or without. Text is cut into tokens from its start (`Json.Lexes`). What is written between
brackets and quotes is cut in the same way whatever stands behind it (`Json.Cuts`), and a numeral
as long as it ends there (`Json.Yields`).
-/

namespace LinearModel

namespace Json

open Scan

/-- The characters are cut into the tokens. -/
def Lexes (cs : List Char) (ts : List Token) : Prop :=
  ∀ fuel, cs.length ≤ fuel → tokensUpTo fuel cs = ts

theorem Lexes.tokens_eq {text : String} {ts : List Token} (h : Lexes text.toList ts) :
    tokens text = ts :=
  h text.length String.length_toList.le

/-- The characters are cut into the tokens, whatever stands behind them. -/
def Cuts (cs : List Char) (ts : List Token) : Prop :=
  ∀ rest us, Lexes rest us → Lexes (cs ++ rest) (ts ++ us)

/-- The characters are cut into the tokens, unless what stands behind them goes on with a
numeral. -/
def Yields (cs : List Char) (ts : List Token) : Prop :=
  ∀ rest us, Ends rest → Lexes rest us → Lexes (cs ++ rest) (ts ++ us)

section Cut

variable {cs ds : List Char} {ts us : List Token} {t : Token} {c : Char}

theorem lexes_nil : Lexes [] [] := by
  intro fuel _
  cases fuel <;> rfl

theorem Lexes.blank (hc : isBlank c = true) (h : Lexes cs ts) : Lexes (c :: cs) ts := by
  intro fuel hfuel
  cases fuel with
  | zero => cases hfuel
  | succ fuel =>
      rw [← h (fuel + 1) (Nat.le_of_succ_le hfuel), tokensUpTo, tokensUpTo,
        List.dropWhile_cons_of_pos hc]

theorem Lexes.token (hc : isBlank c = false) (ht : token? (c :: cs) = some (t, ds))
    (hlength : ds.length ≤ cs.length) (h : Lexes ds ts) : Lexes (c :: cs) (t :: ts) := by
  intro fuel hfuel
  cases fuel with
  | zero => cases hfuel
  | succ fuel =>
      rw [tokensUpTo, List.dropWhile_cons_of_neg (by simp [hc])]
      simp only [ht]
      rw [h fuel (hlength.trans (Nat.le_of_succ_le_succ hfuel))]

theorem Cuts.yields (h : Cuts cs ts) : Yields cs ts := fun rest us _ => h rest us

theorem Cuts.append (h : Cuts cs ts) (h' : Cuts ds us) : Cuts (cs ++ ds) (ts ++ us) := by
  intro rest vs hrest
  rw [List.append_assoc, List.append_assoc]
  exact h _ _ (h' rest vs hrest)

theorem Cuts.append_yields (h : Cuts cs ts) (h' : Yields ds us) : Yields (cs ++ ds) (ts ++ us) := by
  intro rest vs hends hrest
  rw [List.append_assoc, List.append_assoc]
  exact h _ _ (h' rest vs hends hrest)

/-- There is a first character, and no numeral goes on with it. -/
def Halts (cs : List Char) : Prop := ∃ c ds, cs = c :: ds ∧ Stops c

theorem Halts.ends (h : Halts cs) (rest : List Char) : Ends (cs ++ rest) := by
  obtain ⟨c, ds, rfl, hc⟩ := h
  rintro _ ⟨⟩
  exact hc

theorem Yields.append_cuts (h : Yields cs ts) (hhalts : Halts ds) (h' : Cuts ds us) :
    Cuts (cs ++ ds) (ts ++ us) := by
  intro rest vs hrest
  rw [List.append_assoc, List.append_assoc]
  exact h _ _ (hhalts.ends rest) (h' rest vs hrest)

theorem cuts_blanks (h : ∀ c ∈ cs, isBlank c = true) : Cuts cs [] := by
  intro rest us hrest
  induction cs with
  | nil => exact hrest
  | cons c cs ih =>
      exact (ih fun b hb => h b (List.mem_cons_of_mem c hb)).blank (h c List.mem_cons_self)

/-- A token that is scanned whole, whatever stands behind it. -/
theorem cuts_token (hc : isBlank c = false)
    (ht : ∀ rest, token? (c :: (cs ++ rest)) = some (t, rest)) : Cuts (c :: cs) [t] := by
  intro rest us hrest
  exact hrest.token hc (ht rest) (by simp)

theorem isBlank_of_isDigit (hc : isDigit c = true) : isBlank c = false := by
  cases hblank : isBlank c with
  | false => rfl
  | true =>
      simp only [isBlank, Bool.or_eq_true, decide_eq_true_eq] at hblank
      rcases hblank with ((rfl | rfl) | rfl) | rfl <;> exact absurd hc (by decide)

theorem Numeral.exists_text_eq_cons {n : Numeral} (hn : n.WellFormed) :
    ∃ c cs, n.text = c :: cs ∧ isBlank c = false := by
  rw [Numeral.text]
  cases n.negative with
  | true => exact ⟨'-', _, rfl, rfl⟩
  | false =>
      obtain ⟨c, cs, hwhole⟩ := List.exists_cons_of_ne_nil hn.whole.1
      rw [hwhole]
      exact ⟨c, _, rfl, isBlank_of_isDigit (hn.whole.2 c (hwhole ▸ List.mem_cons_self))⟩

theorem yields_numeral {n : Numeral} (hn : n.WellFormed) : Yields n.text [.number n] := by
  intro rest us hends hrest
  have htoken := Numeral.token?_text hn hends
  obtain ⟨c, cs, htext, hc⟩ := Numeral.exists_text_eq_cons hn
  rw [htext] at htoken ⊢
  exact hrest.token hc htoken (by simp)

end Cut

/-! ### Strings -/

namespace Value

theorem pieces_escape {c d : Char} (hd : shortEscape? d = some c) (cs : List Char) :
    pieces ('\\' :: d :: cs) = (pieces cs).map fun q => (.char c :: q.1, q.2) := by
  have hu : d ≠ 'u' := by
    rintro rfl
    cases hd
  rw [pieces, hd]
  · cases pieces cs <;> rfl
  · exact fun _ _ _ _ _ h _ => hu h

theorem pieces_plain {c : Char} (hquote : c ≠ '"') (hslash : c ≠ '\\') (hcontrol : ¬ c.toNat < 0x20)
    (cs : List Char) : pieces (c :: cs) = (pieces cs).map fun q => (.char c :: q.1, q.2) := by
  rw [pieces, if_neg (not_or.2 ⟨hslash, hcontrol⟩)]
  · cases pieces cs <;> rfl
  · exact hquote
  · exact fun _ _ _ _ _ h _ => hslash h
  · exact fun _ _ h _ => hslash h

theorem hexUnit?_hexDigit {n : Nat} (hn : n < 0x20) :
    hexUnit? '0' '0' (hexDigit (n / 16)) (hexDigit (n % 16)) = some n := by
  revert n
  decide

theorem pieces_control {c : Char} (hcontrol : c.toNat < 0x20) (cs : List Char) :
    pieces ('\\' :: 'u' :: '0' :: '0' :: hexDigit (c.toNat / 16) :: hexDigit (c.toNat % 16) :: cs) =
      (pieces cs).map fun q => (.unit c.toNat :: q.1, q.2) := by
  rw [pieces, hexUnit?_hexDigit hcontrol]
  cases pieces cs <;> rfl

theorem characters?_control {c : Char} (hcontrol : c.toNat < 0x20) (ps : List Piece) :
    characters? (.unit c.toNat :: ps) = (characters? ps).map (c :: ·) := by
  have hleading : isLeading c.toNat = false :=
    Bool.and_eq_false_iff.2 (.inl (decide_eq_false (Nat.not_le_of_lt (hcontrol.trans (by decide)))))
  have htrailing : isTrailing c.toNat = false :=
    Bool.and_eq_false_iff.2 (.inl (decide_eq_false (Nat.not_le_of_lt (hcontrol.trans (by decide)))))
  cases ps with
  | nil => simp [characters?, hleading, htrailing]
  | cons p ps => cases p <;> simp [characters?, hleading, htrailing]

/-- An escaped character is one piece of a string, which spells the character. -/
theorem exists_piece (c : Char) : ∃ p,
    (∀ cs, pieces (escaped c ++ cs) = (pieces cs).map fun q => (p :: q.1, q.2)) ∧
      ∀ ps, characters? (p :: ps) = (characters? ps).map (c :: ·) := by
  have hchar (ps : List Piece) : characters? (.char c :: ps) = (characters? ps).map (c :: ·) := rfl
  -- escapes by a letter come first, then those by a number; all else stands for itself
  rw [escaped]
  split_ifs with hquote hslash hback hfeed hline hreturn htab hcontrol
  · exact ⟨.char c, pieces_escape (by rw [hquote]; rfl), hchar⟩
  · exact ⟨.char c, pieces_escape (by rw [hslash]; rfl), hchar⟩
  · exact ⟨.char c, pieces_escape (by rw [hback]; rfl), hchar⟩
  · exact ⟨.char c, pieces_escape (by rw [hfeed]; rfl), hchar⟩
  · exact ⟨.char c, pieces_escape (by rw [hline]; rfl), hchar⟩
  · exact ⟨.char c, pieces_escape (by rw [hreturn]; rfl), hchar⟩
  · exact ⟨.char c, pieces_escape (by rw [htab]; rfl), hchar⟩
  · exact ⟨.unit c.toNat, pieces_control hcontrol, characters?_control hcontrol⟩
  · exact ⟨.char c, pieces_plain hquote hslash hcontrol, hchar⟩

theorem exists_pieces (cs rest : List Char) : ∃ ps,
    pieces (cs.flatMap escaped ++ '"' :: rest) = some (ps, rest) ∧ characters? ps = some cs := by
  induction cs with
  | nil => exact ⟨[], rfl, rfl⟩
  | cons c cs ih =>
      obtain ⟨p, hpiece, hcharacter⟩ := exists_piece c
      obtain ⟨ps, hpieces, hcharacters⟩ := ih
      refine ⟨p :: ps, ?_, ?_⟩
      · rw [List.flatMap_cons, List.append_assoc, hpiece, hpieces]
        rfl
      · rw [hcharacter, hcharacters]
        rfl

/-- A string is read back, whatever its characters. -/
theorem cuts_quoted (s : String) : Cuts (quoted s).toList [.string (some s)] := by
  rw [quoted, String.toList_ofList]
  refine cuts_token (c := '"') rfl fun rest => ?_
  obtain ⟨ps, hpieces, hcharacters⟩ := exists_pieces s.toList rest
  show string? (s.toList.flatMap escaped ++ ['"'] ++ rest) = _
  rw [List.append_assoc, List.singleton_append, string?, hpieces, Option.map_some]
  simp [hcharacters]

/-! ### Brackets -/

theorem cuts_lineBreak (level : Nat) : Cuts (lineBreak level).toList [] := by
  refine cuts_blanks fun c hc => ?_
  rw [lineBreak, String.toList_append, List.mem_append] at hc
  rcases hc with hc | hc
  · rw [List.mem_singleton.1 hc]
    rfl
  · rw [String.toList_ofList] at hc
    rw [List.eq_of_mem_replicate hc]
    rfl

theorem halts_lineBreak (level : Nat) (s : String) : Halts (lineBreak level ++ s).toList := by
  rw [lineBreak, String.append_assoc, String.toList_append]
  exact ⟨'\n', _, rfl, by decide⟩

/-- Texts that are cut into a token each, the second of which ends a numeral. -/
structure Brackets (opening closing : String) (o c : Token) : Prop where
  opens : Cuts opening.toList [o]
  closes : Cuts closing.toList [c]
  halts : Halts closing.toList

theorem brackets_array : Brackets "[" "]" .openArray .closeArray where
  opens := cuts_token (c := '[') rfl fun _ => rfl
  closes := cuts_token (c := ']') rfl fun _ => rfl
  halts := ⟨']', [], rfl, by decide⟩

theorem brackets_object : Brackets "\x7b" "\x7d" .openObject .closeObject where
  opens := cuts_token (c := '\x7b') rfl fun _ => rfl
  closes := cuts_token (c := '\x7d') rfl fun _ => rfl
  halts := ⟨'\x7d', [], rfl, by decide⟩

theorem cuts_comma : Cuts ",".toList [.comma] := cuts_token (c := ',') rfl fun _ => rfl

theorem cuts_colon : Cuts ":".toList [.colon] := cuts_token (c := ':') rfl fun _ => rfl

section Block

variable {β : Type} {text : β → String} {spelling : β → List Token} {o c : Token}
  {opening closing separator : String} {vs : List β}

/-- Parts between separators, up to what closes them. -/
theorem cuts_intercalate (hseparator : Cuts separator.toList [.comma])
    (hhalts : Halts separator.toList) (hclosing : Cuts closing.toList [c])
    (hhalts' : Halts closing.toList) (hvs : ∀ v ∈ vs, Yields (text v).toList (spelling v)) :
    Cuts (separator.intercalate (vs.map text) ++ closing).toList
      ([Token.comma].intercalate (vs.map spelling) ++ [c]) := by
  induction vs with
  | nil => simpa using hclosing
  | cons v vs ih =>
      have hv := hvs v List.mem_cons_self
      cases vs with
      | nil => simpa using hv.append_cuts hhalts' hclosing
      | cons w vs =>
          have hrest := ih fun u hu => hvs u (List.mem_cons_of_mem v hu)
          -- a part ends where the separator behind it begins
          have hhead : Halts (separator.toList ++
              (separator.intercalate ((w :: vs).map text) ++ closing).toList) := by
            obtain ⟨d, ds, hseparator, hd⟩ := hhalts
            rw [hseparator]
            exact ⟨d, _, rfl, hd⟩
          simpa using hv.append_cuts hhead (hseparator.append hrest)

theorem Brackets.cuts_compact (h : Brackets opening closing o c)
    (hvs : ∀ v ∈ vs, Yields (text v).toList (spelling v)) :
    Cuts (opening ++ ",".intercalate (vs.map text) ++ closing).toList
      (o :: ([Token.comma].intercalate (vs.map spelling) ++ [c])) := by
  rw [String.append_assoc, String.toList_append]
  exact h.opens.append
    (cuts_intercalate cuts_comma ⟨',', [], rfl, by decide⟩ h.closes h.halts hvs)

/-- The line breaks that are written belong to the brackets and to the separators. -/
theorem Brackets.cuts_block (h : Brackets opening closing o c) (level : Nat)
    (hvs : ∀ v ∈ vs, Yields (text v).toList (spelling v)) :
    Cuts (block level opening closing (vs.map text)).toList
      (o :: ([Token.comma].intercalate (vs.map spelling) ++ [c])) := by
  cases vs with
  | nil =>
      show Cuts (opening ++ closing).toList _
      rw [String.toList_append]
      exact h.opens.append h.closes
  | cons v vs =>
      have hopening : Cuts (opening ++ lineBreak (level + 1)).toList [o] := by
        rw [String.toList_append]
        exact h.opens.append (cuts_lineBreak _)
      have hseparator : Cuts ("," ++ lineBreak (level + 1)).toList [.comma] := by
        rw [String.toList_append]
        exact cuts_comma.append (cuts_lineBreak _)
      have hclosing : Cuts (lineBreak level ++ closing).toList [c] := by
        rw [String.toList_append]
        exact (cuts_lineBreak _).append h.closes
      have hparts := cuts_intercalate hseparator
        ⟨',', (lineBreak (level + 1)).toList, by rw [String.toList_append]; rfl, by decide⟩
        hclosing (halts_lineBreak level closing) hvs
      rw [block, if_neg (by simp), String.append_assoc, String.append_assoc, String.toList_append]
      exact hopening.append hparts

end Block

/-! ### Values -/

mutual

/-- The tree that a written value spells. -/
def tree : Value → Tree
  | null => .null
  | bool b => .bool b
  | integer n => .number (Numeral.ofNatural n)
  | float x => (Document.ofText (number x)).tree
  | string s => .string (some s)
  | array items => .array (trees items) true
  | object members => .object (memberTrees members) true

def trees : List Value → List Tree
  | [] => []
  | v :: rest => tree v :: trees rest

def memberTrees : List (String × Value) → List (Option String × Tree)
  | [] => []
  | (name, v) :: rest => (some name, tree v) :: memberTrees rest

end

theorem trees_eq_map (vs : List Value) : trees vs = vs.map tree := by
  induction vs with
  | nil => rfl
  | cons v vs ih => rw [trees, ih, List.map_cons]

theorem memberTrees_eq_map (ms : List (String × Value)) :
    memberTrees ms = ms.map fun m => (some m.1, m.2.tree) := by
  induction ms with
  | nil => rfl
  | cons m ms ih => rw [memberTrees, ih, List.map_cons]

theorem compactItems_eq_map (vs : List Value) : compactItems vs = vs.map compact := by
  induction vs with
  | nil => rfl
  | cons v vs ih => rw [compactItems, ih, List.map_cons]

theorem compactMembers_eq_map (ms : List (String × Value)) :
    compactMembers ms = ms.map fun m => quoted m.1 ++ ":" ++ m.2.compact := by
  induction ms with
  | nil => rfl
  | cons m ms ih => rw [compactMembers, ih, List.map_cons]

theorem indentedItems_eq_map (level : Nat) (vs : List Value) :
    indentedItems level vs = vs.map (indented level) := by
  induction vs with
  | nil => rfl
  | cons v vs ih => rw [indentedItems, ih, List.map_cons]

theorem indentedMembers_eq_map (level : Nat) (ms : List (String × Value)) :
    indentedMembers level ms = ms.map fun m => quoted m.1 ++ ": " ++ m.2.indented level := by
  induction ms with
  | nil => rfl
  | cons m ms ih => rw [indentedMembers, ih, List.map_cons]

/-- What holds of a value if it holds of its parts. -/
theorem induction {P : Value → Prop} (null : P .null) (bool : ∀ b, P (.bool b))
    (integer : ∀ n, P (.integer n)) (float : ∀ x, P (.float x)) (string : ∀ s, P (.string s))
    (array : ∀ vs, (∀ v ∈ vs, P v) → P (.array vs))
    (object : ∀ ms, (∀ m ∈ ms, P m.2) → P (.object ms)) (v : Value) : P v := by
  refine @Value.rec P (fun vs => ∀ v ∈ vs, P v) (fun ms => ∀ m ∈ ms, P m.2) (fun m => P m.2)
    null bool integer float string array object ?_ ?_ ?_ ?_ ?_ v
  · nofun
  · exact fun v vs hv hvs => List.forall_mem_cons.2 ⟨hv, hvs⟩
  · nofun
  · exact fun m ms hm hms => List.forall_mem_cons.2 ⟨hm, hms⟩
  · exact fun _ _ hv => hv

/-! ### The text of a value spells its tree -/

theorem spells_of_yields {text : String} {t : Tree} (ht : t.isComplete = true)
    (h : Yields text.toList t.spelling) : Spells text t := by
  refine ⟨ht, ?_⟩
  have hlexes := h [] [] nofun lexes_nil
  rw [List.append_nil, List.append_nil] at hlexes
  exact hlexes.tokens_eq

theorem tree_float_of_numeral {x : Float} {n : Numeral} (hn : n.WellFormed)
    (htext : (number x).toList = n.text) : (float x).tree = .number n := by
  have hspells : Spells (number x) (.number n) :=
    spells_of_yields rfl (htext ▸ yields_numeral hn)
  rw [tree, ((spells_iff _ _).1 hspells).2]

theorem tree_float_of_not_finite {x : Float} (hx : Number.isFinite x = false) :
    (float x).tree = .null := by
  have hspells : Spells "null" .null := ⟨rfl, by decide⟩
  rw [tree, number_of_isFinite_eq_false hx, ((spells_iff _ _).1 hspells).2]

theorem cuts_null : Cuts "null".toList [.null] := cuts_token (c := 'n') rfl fun _ => rfl

theorem yields_number (x : Float) :
    (float x).tree.isComplete = true ∧ Yields (number x).toList (float x).tree.spelling := by
  cases hx : Number.isFinite x with
  | true =>
      obtain ⟨n, hn, htext⟩ := exists_numeral_of_isFinite hx
      rw [tree_float_of_numeral hn htext, htext]
      exact ⟨rfl, yields_numeral hn⟩
  | false =>
      rw [tree_float_of_not_finite hx, number_of_isFinite_eq_false hx]
      exact ⟨rfl, cuts_null.yields⟩

theorem isComplete_tree (v : Value) : v.tree.isComplete = true := by
  induction v using Value.induction with
  | float x => exact (yields_number x).1
  | array vs ih =>
      rw [tree, trees_eq_map, Tree.isComplete, Bool.and_true, Tree.allComplete_iff]
      exact List.forall_mem_map.2 ih
  | object ms ih =>
      rw [tree, memberTrees_eq_map, Tree.isComplete, Bool.and_true, Tree.allMembersComplete_iff]
      exact List.forall_mem_map.2 ih
  | _ => rfl

theorem cuts_bool (b : Bool) : Cuts (toString b).toList [.bool b] := by
  cases b with
  | true => exact cuts_token (c := 't') rfl fun _ => rfl
  | false => exact cuts_token (c := 'f') rfl fun _ => rfl

theorem yields_integer (n : Nat) :
    Yields (toString n).toList [.number (Numeral.ofNatural n)] := by
  rw [toList_toString_nat]
  exact yields_numeral (Numeral.wellFormed_ofNatural n)

theorem spelling_array (vs : List Value) : (array vs).tree.spelling =
    .openArray ::
      ([Token.comma].intercalate (vs.map fun v => v.tree.spelling) ++ [.closeArray]) := by
  rw [tree, trees_eq_map, Tree.spelling, Tree.itemsSpelling_eq, List.map_map]
  rfl

/-- The tokens of a member of an object. -/
def memberSpelling (m : String × Value) : List Token :=
  .string (some m.1) :: .colon :: m.2.tree.spelling

theorem spelling_object (ms : List (String × Value)) : (object ms).tree.spelling =
    .openObject :: ([Token.comma].intercalate (ms.map memberSpelling) ++ [.closeObject]) := by
  rw [tree, memberTrees_eq_map, Tree.spelling, Tree.membersSpelling_eq, List.map_map]
  rfl

theorem yields_compact (v : Value) : Yields v.compact.toList v.tree.spelling := by
  induction v using Value.induction with
  | null => exact cuts_null.yields
  | bool b => exact (cuts_bool b).yields
  | integer n => exact yields_integer n
  | float x => exact (yields_number x).2
  | string s => exact (cuts_quoted s).yields
  | array vs ih =>
      rw [spelling_array, compact, compactItems_eq_map]
      exact (brackets_array.cuts_compact ih).yields
  | object ms ih =>
      rw [spelling_object, compact, compactMembers_eq_map]
      refine (brackets_object.cuts_compact fun m hm => ?_).yields
      rw [String.toList_append, String.toList_append]
      exact ((cuts_quoted m.1).append cuts_colon).append_yields (ih m hm)

theorem yields_indented (v : Value) (level : Nat) :
    Yields (v.indented level).toList v.tree.spelling := by
  induction v using Value.induction generalizing level with
  | null => exact cuts_null.yields
  | bool b => exact (cuts_bool b).yields
  | integer n => exact yields_integer n
  | float x => exact (yields_number x).2
  | string s => exact (cuts_quoted s).yields
  | array vs ih =>
      rw [spelling_array, indented, indentedItems_eq_map]
      exact (brackets_array.cuts_block level fun v hv => ih v hv (level + 1)).yields
  | object ms ih =>
      rw [spelling_object, indented, indentedMembers_eq_map]
      refine (brackets_object.cuts_block level fun m hm => ?_).yields
      have hblank : Cuts [' '] [] := cuts_blanks fun c hc => List.mem_singleton.1 hc ▸ rfl
      have hcolon : Cuts ": ".toList [.colon] := cuts_colon.append hblank
      rw [String.toList_append, String.toList_append]
      exact ((cuts_quoted m.1).append hcolon).append_yields (ih m hm (level + 1))

/-- The texts that are written for a value. -/
def texts (v : Value) : List String := [v.compact, v.pretty]

/-- Every text that is written for a value spells its tree. -/
theorem spells_of_mem_texts {v : Value} {text : String} (h : text ∈ v.texts) :
    Spells text v.tree := by
  simp only [texts, List.mem_cons, List.not_mem_nil, or_false] at h
  rcases h with rfl | rfl
  · exact spells_of_yields v.isComplete_tree v.yields_compact
  · exact spells_of_yields v.isComplete_tree (v.yields_indented 0)

end Value

end Json

end LinearModel
