import TelemetryRelay.Json.Printer
import TelemetryRelay.Proofs.Json.Accuracy

/-!
# How decimals are written

A document writes a decimal in one of three forms: with a zero behind the point, with the point
between or before its digits, or with an exponent. Each is a numeral of the grammar (`Shows`) whose
digits and power of ten are those of the decimal, and reading it scales the digits in one go.

* `Literal.Writes.number?`: what the numeral of a decimal is read as, if its digits fit.
* `magnitude_shows`: **every decimal that is written for a double is a numeral**, of the decimal that
  `written` gives.
-/

namespace TelemetryRelay.Json

open Decimal

variable {cs : List Char} {negative : Bool} {l : Literal} {n : Numeral}

/-! ### Numerals with a fraction or an exponent -/

/-- The exponent of a numeral, with its sign. -/
def Literal.written (l : Literal) : ℤ :=
  match l.exponent with
  | none => 0
  | some (downwards, ds) => if downwards then -(value ds : ℤ) else value ds

/-- A numeral with a fraction or an exponent stands for a decimal. -/
structure Literal.Writes (l : Literal) (n : Numeral) : Prop where
  real : l.fraction ≠ [] ∨ l.exponent ≠ none
  digits : onto (value l.whole) l.fraction = n.coefficient
  power : l.written - l.fraction.length = n.exponent
  small : l.written.natAbs ≤ greatestExponent

theorem Literal.real?_eq (hsmall : l.written.natAbs ≤ greatestExponent) (significand : ℕ)
    (shift : ℤ) : l.real? significand shift =
      (scaled (Float.ofNat significand) (shift + l.written)).map (signed l.negative) := by
  unfold Literal.real?
  unfold Literal.written at hsmall ⊢
  cases hexp : l.exponent with
  | none =>
    dsimp only
    rw [add_zero]
  | some p =>
    obtain ⟨downwards, ds⟩ := p
    rw [hexp] at hsmall
    dsimp only at hsmall ⊢
    have hbound : ¬ greatestExponent < value ds := by
      split at hsmall <;> omega
    rw [if_neg hbound]
    congr 2
    split
    · exact sub_eq_add_neg _ _
    · rfl

/-- If the digits fit, none is skipped, and the number is scaled in one go. -/
theorem Literal.Writes.number? (h : l.Writes n) (hfit : n.coefficient ≤ uint64Max) :
    l.number? = ((scaled (Float.ofNat n.coefficient) n.exponent).map (signed l.negative)).map
      .real := by
  obtain ⟨hreal, hdigits, hpower, hsmall⟩ := h
  have hwhole : value l.whole ≤ uint64Max := Nat.le_trans (le_onto _ l.fraction) (hdigits ▸ hfit)
  have hfirst : fitDigits 0 l.whole = (value l.whole, []) := fitDigits_of_le hwhole
  have hrest : fitDigits (value l.whole) l.fraction = (n.coefficient, []) := by
    rw [← hdigits]
    exact fitDigits_of_le (hdigits ▸ hfit)
  have hplain : ¬ (l.fraction.isEmpty && l.exponent.isNone && ([] : List Char).isEmpty) = true := by
    simp only [Bool.and_eq_true, List.isEmpty_iff, Option.isNone_iff_eq_none]
    rintro ⟨⟨hf, he⟩, -⟩
    exact hreal.elim (absurd hf) (absurd he)
  unfold Literal.number?
  rw [hfirst]
  dsimp only
  rw [if_neg hplain, hrest, Literal.real?_eq hsmall]
  congr 3
  rw [← hpower, List.length_nil, Nat.sub_zero, Nat.cast_zero, zero_sub, neg_add_eq_sub]

/-! ### How decimals are written -/

/-- The power of ten of the first digit. -/
def leading (n : Numeral) : ℤ := n.exponent + ((digits n.coefficient).length - 1 : ℕ)

/-- The decimal that the digits of a document's text stand for: a whole number is written with a
zero behind its point. -/
def written (n : Numeral) : Numeral :=
  if documentStyle.positional (leading n) ∧ 0 ≤ n.exponent then
    ⟨n.coefficient * 10 ^ (n.exponent.toNat + 1), -1⟩
  else n

/-- The decimals that are written: zero has the power zero. -/
structure Plain (n : Numeral) : Prop where
  zero : n.coefficient = 0 → n.exponent = 0
  small : (leading n).natAbs ≤ greatestExponent

/-- Only the digits of zero begin with a zero. -/
theorem Plain.head (h : Plain n) (hc : (digits n.coefficient).head? = some '0') :
    n.exponent = 0 ∧ (digits n.coefficient).length = 1 := by
  have h0 := eq_zero_of_head? hc
  refine ⟨h.zero h0, ?_⟩
  rw [h0, digits, if_pos (by decide), List.length_singleton]

theorem isDigit_of_mem_zeros {k : ℕ} : ∀ c ∈ List.replicate k '0', isDigit c = true := by
  intro c hc
  rw [List.eq_of_mem_replicate hc]
  rfl

/-- A text is a numeral of a sign and a decimal. -/
def Shows (negative : Bool) (cs : List Char) (n : Numeral) : Prop :=
  ∃ l, MagnitudeText negative cs l ∧ l.negative = negative ∧ l.Writes n

theorem shows_fraction {whole fraction : List Char} (hwhole : Digits whole)
    (hzero : whole.head? = some '0' → whole.length = 1) (hfraction : Digits fraction)
    (hdigits : onto (value whole) fraction = n.coefficient)
    (hpower : -(fraction.length : ℤ) = n.exponent) : Shows negative (whole ++ '.' :: fraction) n := by
  have htext := @MagnitudeText.mk negative _ _ _ _ _ hwhole hzero (.digits hfraction) .absent
  rw [List.append_nil] at htext
  exact ⟨_, htext, rfl, .inl hfraction.1, hdigits, (zero_sub _).trans hpower, Nat.zero_le _⟩

/-- A whole number, with a zero behind the point. -/
theorem whole_shows (h : Plain n) (hk : 0 ≤ n.exponent) :
    Shows negative (positionalText (digits n.coefficient) n.exponent true)
      ⟨n.coefficient * 10 ^ (n.exponent.toNat + 1), -1⟩ := by
  have hwhole : Digits (digits n.coefficient ++ List.replicate n.exponent.toNat '0') :=
    ⟨List.append_ne_nil_of_left_ne_nil (digits_ne_nil _) _, fun c hc =>
      (List.mem_append.1 hc).elim (isDigit_of_mem_digits _ c) (isDigit_of_mem_zeros c)⟩
  unfold positionalText
  rw [if_pos hk, if_pos rfl]
  refine shows_fraction hwhole (fun hc => ?_) ⟨List.cons_ne_nil _ _, isDigit_of_mem_zeros (k := 1)⟩
    ?_ rfl
  · rw [List.head?_append_of_ne_nil _ (digits_ne_nil _)] at hc
    obtain ⟨hexp, hlen⟩ := h.head hc
    rw [List.length_append, hlen, hexp]
    rfl
  · show onto (onto 0 _) (List.replicate 1 '0') = _
    rw [onto_zeros, onto_append, onto_zeros, Nat.mul_assoc, ← Nat.pow_add]
    congr 1
    exact value_digits _

/-- A fraction. -/
theorem fraction_shows (h : Plain n) (hk : n.exponent < 0) :
    Shows negative (positionalText (digits n.coefficient) n.exponent true) n := by
  have hdigit := isDigit_of_mem_digits n.coefficient
  have hne := digits_ne_nil n.coefficient
  have hvalue : onto 0 (digits n.coefficient) = n.coefficient := value_digits _
  have hhead := fun hc => h.head hc
  obtain ⟨places, hplaces⟩ : ∃ m, m = (-n.exponent).toNat := ⟨_, rfl⟩
  unfold positionalText
  dsimp only
  rw [if_neg (by omega), ← hplaces]
  generalize digits n.coefficient = cs at *
  split
  · next hlen =>
    -- all digits stand behind the point
    show Shows negative (['0'] ++ '.' :: (List.replicate (places - cs.length) '0' ++ cs)) n
    refine shows_fraction ⟨List.cons_ne_nil _ _, isDigit_of_mem_zeros (k := 1)⟩ (fun _ => rfl)
      ⟨List.append_ne_nil_of_right_ne_nil _ hne, fun c hc =>
        (List.mem_append.1 hc).elim (isDigit_of_mem_zeros c) (hdigit c)⟩ ?_ ?_
    · show onto (onto 0 (List.replicate 1 '0')) _ = _
      simp only [onto_append, onto_zeros, Nat.zero_mul]
      exact hvalue
    · rw [List.length_append, List.length_replicate]
      omega
  · next hlen =>
    -- the point stands between the digits
    refine shows_fraction
      ⟨by rw [Ne, List.take_eq_nil_iff]; exact not_or.2 ⟨by omega, hne⟩,
        fun c hc => hdigit c (List.mem_of_mem_take hc)⟩ (fun hc => ?_)
      ⟨by rw [Ne, List.drop_eq_nil_iff]; omega, fun c hc => hdigit c (List.mem_of_mem_drop hc)⟩
      ?_ ?_
    · rw [List.head?_take, if_neg (by omega)] at hc
      have := (hhead hc).1
      omega
    · show onto (onto 0 (cs.take _)) (cs.drop _) = _
      rw [← onto_append, List.take_append_drop]
      exact hvalue
    · rw [List.length_drop]
      omega

/-- The exponent of a decimal is written with its sign. -/
theorem exponentText_signed (p : ℤ) :
    ExponentText ('e' :: (if p < 0 then '-' else '+') :: digits p.natAbs)
      (some (decide (p < 0), digits p.natAbs)) := by
  have hpower : Digits (digits p.natAbs) := ⟨digits_ne_nil _, isDigit_of_mem_digits _⟩
  by_cases hneg : p < 0
  · rw [if_pos hneg, decide_eq_true hneg]
    exact .minus (.inl rfl) hpower
  · rw [if_neg hneg, decide_eq_false hneg]
    exact .plus (.inl rfl) hpower

theorem written_signed (p : ℤ) (whole fraction : List Char) :
    Literal.written ⟨negative, whole, fraction, some (decide (p < 0), digits p.natAbs)⟩ = p := by
  unfold Literal.written
  dsimp only
  rw [value_digits]
  split
  · next hneg =>
    have := of_decide_eq_true hneg
    omega
  · next hneg =>
    have := of_decide_eq_false (Bool.eq_false_iff.2 hneg)
    omega

/-- A decimal with an exponent. -/
theorem exponent_shows (h : Plain n) :
    Shows negative (exponentText (digits n.coefficient) (leading n)) n := by
  have hdigit := isDigit_of_mem_digits n.coefficient
  have hvalue : onto 0 (digits n.coefficient) = n.coefficient := value_digits _
  have hsmall := h.small
  obtain ⟨p, hp⟩ : ∃ p, p = leading n := ⟨_, rfl⟩
  have hlead : p = n.exponent + ((digits n.coefficient).length - 1 : ℕ) := hp
  rw [← hp] at hsmall ⊢
  obtain ⟨d, ds, hds⟩ := List.exists_cons_of_ne_nil (digits_ne_nil n.coefficient)
  rw [hds] at hdigit hvalue hlead ⊢
  have hwhole : Digits [d] :=
    ⟨List.cons_ne_nil _ _, List.forall_mem_singleton.2 (hdigit d List.mem_cons_self)⟩
  -- there is no point behind a single digit
  obtain ⟨text, htext, hfraction⟩ : ∃ text, exponentText (d :: ds) p =
      [d] ++ (text ++ 'e' :: (if p < 0 then '-' else '+') :: digits p.natAbs) ∧
        FractionText text ds := by
    cases ds with
    | nil => exact ⟨[], rfl, .absent⟩
    | cons d' ds =>
      exact ⟨'.' :: d' :: ds, rfl, .digits ⟨List.cons_ne_nil _ _, fun c hc =>
        hdigit c (List.mem_cons_of_mem _ hc)⟩⟩
  rw [htext]
  refine ⟨_, .mk hwhole (fun _ => rfl) hfraction (exponentText_signed p), rfl,
    ⟨.inr nofun, hvalue, ?_, ?_⟩⟩
  · rw [written_signed, hlead]
    dsimp only
    rw [List.length_cons, Nat.add_sub_cancel, add_sub_cancel_right]
  · rw [written_signed]
    exact hsmall

/-- **How a decimal is written in a document.** -/
theorem magnitude_shows (h : Plain n) : Shows negative (documentStyle.magnitude n) (written n) := by
  unfold FloatStyle.magnitude
  dsimp only
  split
  · next hpos =>
    by_cases hk : 0 ≤ n.exponent
    · rw [written, if_pos ⟨hpos, hk⟩]
      exact whole_shows h hk
    · rw [written, if_neg (fun h => hk h.2)]
      exact fraction_shows h (by omega)
  · next hpos =>
    rw [written, if_neg (fun h => hpos h.1)]
    exact exponent_shows h

end TelemetryRelay.Json
