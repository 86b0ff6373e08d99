import Mathlib
import LinearModel.Json.Value
import LinearModel.Proofs.Spelling

/-!
# Written numbers

A number without a finite value is written as null, and every other number as a numeral. The
scanner takes a numeral whole and stops behind it (`Numeral.token?_text`), as long as what stands
there could not go on with it (`Json.Ends`).
-/

namespace LinearModel

namespace Json

open Scan

/-- No numeral goes on with the character. -/
abbrev Stops (c : Char) : Prop := isDigit c = false ∧ c ≠ '.' ∧ c ≠ 'e' ∧ c ≠ 'E'

def Ends (cs : List Char) : Prop := ∀ c ∈ cs.head?, Stops c

namespace Scan

variable {ds rest : List Char}

theorem digits_append (hds : ∀ c ∈ ds, isDigit c = true)
    (hrest : ∀ c ∈ rest.head?, isDigit c = false) : digits (ds ++ rest) = (ds, rest) := by
  have hstop : rest.takeWhile isDigit = [] ∧ rest.dropWhile isDigit = rest := by
    cases rest with
    | nil => exact ⟨rfl, rfl⟩
    | cons c rest =>
        have hc := hrest c rfl
        simp [hc]
  rw [digits, List.span_eq_takeWhile_dropWhile, List.takeWhile_append_of_pos hds,
    List.dropWhile_append_of_pos hds, hstop.1, hstop.2, List.append_nil]

theorem token?_digit {c : Char} (hc : isDigit c = true) (cs : List Char) :
    token? (c :: cs) = unsigned? false (c :: cs) := by
  unfold token?
  split
  all_goals first
    | rfl
    | (next heq => cases heq; exact absurd hc (by decide))

end Scan

namespace Numeral

/-- The digits of a numeral: there are some wherever some are needed, and no zero leads others. -/
structure WellFormed (n : Numeral) : Prop where
  whole : n.whole ≠ [] ∧ ∀ c ∈ n.whole, isDigit c = true
  leading : n.whole.head? = some '0' → n.whole.length = 1
  fraction : ∀ c ∈ n.fraction, isDigit c = true
  exponent : ∀ negative ds, n.exponent = some (negative, ds) →
    ds ≠ [] ∧ ∀ c ∈ ds, isDigit c = true

def fractionText : List Char → List Char
  | [] => []
  | ds => '.' :: ds

def exponentText : Option (Bool × List Char) → List Char
  | none => []
  | some (negative, ds) => 'e' :: (if negative then '-' else '+') :: ds

/-- How a numeral is spelled, with a sign in front of its exponent. -/
def text (n : Numeral) : List Char :=
  (if n.negative then ['-'] else []) ++
    (n.whole ++ (fractionText n.fraction ++ exponentText n.exponent))

section Scan

variable {rest : List Char}

theorem exponent?_text (hrest : Ends rest) {exponent : Option (Bool × List Char)}
    (hexponent : ∀ negative ds, exponent = some (negative, ds) →
      ds ≠ [] ∧ ∀ c ∈ ds, isDigit c = true) :
    exponent? (exponentText exponent ++ rest) = some (exponent, rest) := by
  cases exponent with
  | none =>
      cases rest with
      | nil => rfl
      | cons c rest =>
          obtain ⟨-, -, he, hE⟩ := hrest c rfl
          simp [exponentText, exponent?, he, hE]
  | some e =>
      obtain ⟨negative, ds⟩ := e
      obtain ⟨hne, hds⟩ := hexponent negative ds rfl
      have hdigits := digits_append hds fun c hc => (hrest c hc).1
      cases negative <;> simp [exponentText, exponent?, exponentSign, hdigits, hne]

theorem fraction?_text {fraction : List Char} (hfraction : ∀ c ∈ fraction, isDigit c = true)
    (hrest : ∀ c ∈ rest.head?, isDigit c = false ∧ c ≠ '.') :
    fraction? (fractionText fraction ++ rest) = some (fraction, rest) := by
  cases fraction with
  | nil =>
      show fraction? rest = some ([], rest)
      unfold fraction?
      split
      · exact absurd rfl (hrest '.' rfl).2
      · rfl
  | cons d ds =>
      have hdigits := digits_append hfraction fun c hc => (hrest c hc).1
      rw [List.cons_append] at hdigits
      simp [fractionText, fraction?, hdigits]

theorem head?_exponentText (hrest : Ends rest) (exponent : Option (Bool × List Char)) :
    ∀ c ∈ (exponentText exponent ++ rest).head?, isDigit c = false ∧ c ≠ '.' := by
  cases exponent with
  | none => exact fun c hc => ⟨(hrest c hc).1, (hrest c hc).2.1⟩
  | some e =>
      rintro _ ⟨⟩
      decide

theorem head?_fractionText {fraction : List Char}
    (hrest : ∀ c ∈ rest.head?, isDigit c = false ∧ c ≠ '.') :
    ∀ c ∈ (fractionText fraction ++ rest).head?, isDigit c = false := by
  cases fraction with
  | nil => exact fun c hc => (hrest c hc).1
  | cons d ds =>
      rintro _ ⟨⟩
      decide

theorem unsigned?_text {n : Numeral} (hn : n.WellFormed) (hrest : Ends rest) :
    unsigned? n.negative
        (n.whole ++ (fractionText n.fraction ++ exponentText n.exponent) ++ rest) =
      some (.number n, rest) := by
  have hexponent := head?_exponentText hrest n.exponent
  have hleading : ¬ (1 < n.whole.length ∧ n.whole.head? = some '0') :=
    fun h => absurd (hn.leading h.2) h.1.ne'
  simp only [unsigned?, List.append_assoc,
    digits_append hn.whole.2 (head?_fractionText hexponent),
    fraction?_text hn.fraction hexponent]
  simp [hn.whole.1, hleading, exponent?_text hrest hn.exponent]

/-- A numeral is scanned whole. -/
theorem token?_text {n : Numeral} (hn : n.WellFormed) (hrest : Ends rest) :
    token? (n.text ++ rest) = some (.number n, rest) := by
  rw [← unsigned?_text hn hrest, text]
  cases hnegative : n.negative with
  | true => rfl
  | false =>
      obtain ⟨hne, hdigits⟩ := hn.whole
      obtain ⟨c, cs, hwhole⟩ := List.exists_cons_of_ne_nil hne
      rw [hwhole]
      exact token?_digit (hdigits c (hwhole ▸ List.mem_cons_self)) _

end Scan

end Numeral

/-! ## The numerals that are written -/

theorem isDigit_of_mem_toDigits {n : Nat} {c : Char} (hc : c ∈ Nat.toDigits 10 n) :
    isDigit c = true :=
  Nat.isDigit_of_mem_toDigits (by decide) (by decide) hc

theorem head?_toDigits {n : Nat} (hn : 0 < n) : (Nat.toDigits 10 n).head? ≠ some '0' := by
  induction n using Nat.base_induction 10 (by decide) with
  | single m hm =>
      rw [Nat.toDigits_of_lt_base hm, List.head?_cons, ne_eq, Option.some.injEq,
        Nat.digitChar_eq_zero]
      exact hn.ne'
  | digit m k hk hm ih =>
      rw [← Nat.toDigits_append_toDigits (by decide) hm hk,
        List.head?_append_of_ne_nil _ Nat.toDigits_ne_nil]
      exact ih hm

/-- The digits of a number are whole digits of a numeral: no zero leads others. -/
theorem Numeral.wellFormed_of_toDigits {n : Numeral} (k : Nat)
    (hwhole : n.whole = Nat.toDigits 10 k)
    (hfraction : ∀ c ∈ n.fraction, isDigit c = true) (hexponent : n.exponent = none) :
    n.WellFormed where
  whole := by
    rw [hwhole]
    exact ⟨Nat.toDigits_ne_nil, fun _ => isDigit_of_mem_toDigits⟩
  leading := by
    rw [hwhole]
    intro h
    rcases Nat.eq_zero_or_pos k with rfl | hk
    · rfl
    · exact absurd h (head?_toDigits hk)
  fraction := hfraction
  exponent := by
    rw [hexponent]
    nofun

/-- A natural number as a numeral. -/
def Numeral.ofNatural (k : Nat) : Numeral := ⟨false, Nat.toDigits 10 k, [], none⟩

theorem Numeral.wellFormed_ofNatural (k : Nat) : (Numeral.ofNatural k).WellFormed :=
  wellFormed_of_toDigits k rfl nofun rfl

theorem toList_toString_nat (k : Nat) : (toString k).toList = (Numeral.ofNatural k).text := by
  show k.repr.toList = Nat.toDigits 10 k ++ ([] ++ [])
  rw [Nat.toList_repr, List.append_nil, List.append_nil]

theorem value?_ofNatural {k : Nat} (hk : k < Numeral.wordLimit) :
    (Numeral.ofNatural k).value? = some (.unsigned k) := by
  have hdigits : Numeral.ofDigits (Nat.toDigits 10 k) = k := Nat.ofDigitChars_ten_toDigits
  simp [Numeral.value?, Numeral.ofNatural, hdigits, hk]

end Json

namespace Decimal

open Json Scan

theorem toList_padded_one (k : Nat) : (padded 1 k).toList = Nat.toDigits 10 k := by
  have hlength : 1 - (Nat.toDigits 10 k).length = 0 :=
    Nat.sub_eq_zero_of_le Nat.length_toDigits_pos
  simp [padded, hlength]

theorem isDigit_of_mem_padded {width k : Nat} {c : Char} (hc : c ∈ (padded width k).toList) :
    isDigit c = true := by
  rw [padded, String.toList_ofList, List.mem_append] at hc
  rcases hc with hc | hc
  · rw [List.eq_of_mem_replicate hc]
    decide
  · exact isDigit_of_mem_toDigits hc

theorem toList_padded_ne_nil (width k : Nat) : (padded width k).toList ≠ [] := by
  rw [padded, String.toList_ofList]
  exact List.append_ne_nil_of_right_ne_nil _ Nat.toDigits_ne_nil

/-- The text is that of a numeral that makes sense, apart from its sign. -/
def IsNumeral (s : String) : Prop :=
  ∀ negative : Bool, ∃ n : Numeral, n.WellFormed ∧
    n.text = (if negative then ['-'] else []) ++ s.toList

theorem isNumeral_positional (d : Decimal) : IsNumeral (d.positional true) := by
  intro negative
  by_cases hexponent : 0 ≤ d.exponent
  · refine ⟨⟨negative, Nat.toDigits 10 (d.digits * Nat.pow 10 d.exponent.toNat), ['0'], none⟩,
      Numeral.wellFormed_of_toDigits _ rfl (fun c hc => ?_) rfl, ?_⟩
    · rw [List.mem_singleton.1 hc]
      decide
    · rw [positional, if_pos hexponent, String.toList_append, toList_padded_one]
      rfl
  · have hne := toList_padded_ne_nil (-d.exponent).toNat
      (d.digits % Nat.pow 10 (-d.exponent).toNat)
    obtain ⟨c, cs, hfraction⟩ := List.exists_cons_of_ne_nil hne
    refine ⟨⟨negative, Nat.toDigits 10 (d.digits / Nat.pow 10 (-d.exponent).toNat), c :: cs, none⟩,
      Numeral.wellFormed_of_toDigits _ rfl (fun b hb => isDigit_of_mem_padded (hfraction ▸ hb)) rfl,
      ?_⟩
    rw [positional, if_neg hexponent]
    simp only [String.toList_append, toList_padded_one, hfraction, List.append_assoc]
    simp [Numeral.text, Numeral.fractionText, Numeral.exponentText]

theorem isNumeral_scientific (d : Decimal) : IsNumeral d.scientific := by
  intro negative
  have hne : Nat.toDigits 10 d.digits ≠ [] := Nat.toDigits_ne_nil
  obtain ⟨c, cs, hdigits⟩ := List.exists_cons_of_ne_nil hne
  have hall : ∀ b ∈ c :: cs, isDigit b = true := fun b hb =>
    isDigit_of_mem_toDigits (hdigits ▸ hb)
  refine ⟨⟨negative, [c], cs, some (decide (d.exponent + cs.length < 0),
    Nat.toDigits 10 (d.exponent + cs.length).natAbs)⟩, ⟨?_, ?_, ?_, ?_⟩, ?_⟩
  · exact ⟨List.cons_ne_nil c [], fun b hb => hall b (List.mem_singleton.1 hb ▸ List.mem_cons_self)⟩
  · exact fun _ => rfl
  · exact fun b hb => hall b (List.mem_cons_of_mem c hb)
  · rintro _ _ ⟨⟩
    exact ⟨Nat.toDigits_ne_nil, fun _ => isDigit_of_mem_toDigits⟩
  · have hsign : (if d.exponent + cs.length < 0 then "-" else "+").toList =
        [if d.exponent + cs.length < 0 then '-' else '+'] := by split <;> rfl
    have hfraction : (if cs.isEmpty then "" else "." ++ String.ofList cs).toList =
        Numeral.fractionText cs := by
      cases cs <;> simp [Numeral.fractionText]
    simp only [scientific, hdigits, String.toList_append, hsign, hfraction]
    simp [Numeral.text, Numeral.exponentText]

namespace Layout

theorem isNumeral_writeDecimal (d : Decimal) : IsNumeral (data.writeDecimal d) := by
  rw [writeDecimal]
  split
  · exact isNumeral_positional d
  · exact isNumeral_scientific d

end Layout

end Decimal

namespace Json.Value

open Decimal Layout

theorem isNumeral_zero : IsNumeral "0.0" := by
  intro negative
  refine ⟨⟨negative, ['0'], ['0'], none⟩, Numeral.wellFormed_of_toDigits 0 rfl (fun c hc => ?_) rfl,
    rfl⟩
  rw [List.mem_singleton.1 hc]
  decide

theorem exists_toList_minus (sign : Float.Model.UnpackedFloat.Sign) :
    ∃ negative : Bool, (write.minus sign).toList = if negative then ['-'] else [] := by
  cases sign with
  | positive => exact ⟨false, rfl⟩
  | negative => exact ⟨true, rfl⟩

/-- A number is written as a numeral or as null, according to whether it is finite. -/
theorem number_cases (x : Float) :
    (Number.isFinite x = true ∧ ∃ n : Numeral, n.WellFormed ∧ (number x).toList = n.text) ∨
      (Number.isFinite x = false ∧ number x = "null") := by
  have hwritten {s : String} (hs : IsNumeral s) (sign : Float.Model.UnpackedFloat.Sign) :
      ∃ n : Numeral, n.WellFormed ∧ (write.minus sign ++ s).toList = n.text := by
    obtain ⟨negative, hminus⟩ := exists_toList_minus sign
    obtain ⟨n, hn, htext⟩ := hs negative
    exact ⟨n, hn, by rw [htext, String.toList_append, hminus]⟩
  rw [number, write, Number.isFinite, show Number.exact x = Binary64.exact x from rfl,
    Binary64.exact]
  cases x.toModel.unpack with
  | notANumber => exact .inr ⟨rfl, rfl⟩
  | infinity sign => cases sign <;> exact .inr ⟨rfl, rfl⟩
  | zero sign => exact .inl ⟨rfl, hwritten isNumeral_zero sign⟩
  | finite sign m e hm => exact .inl ⟨rfl, hwritten (isNumeral_writeDecimal _) sign⟩

theorem exists_numeral_of_isFinite {x : Float} (hx : Number.isFinite x = true) :
    ∃ n : Numeral, n.WellFormed ∧ (number x).toList = n.text := by
  rcases number_cases x with ⟨-, h⟩ | ⟨hinfinite, -⟩
  · exact h
  · rw [hx] at hinfinite
    cases hinfinite

theorem number_of_isFinite_eq_false {x : Float} (hx : Number.isFinite x = false) :
    number x = "null" := by
  rcases number_cases x with ⟨hfinite, -⟩ | ⟨-, h⟩
  · rw [hx] at hfinite
    cases hfinite
  · exact h

end Json.Value

end LinearModel
