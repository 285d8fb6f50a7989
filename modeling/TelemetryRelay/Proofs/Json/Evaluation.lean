import TelemetryRelay.Proofs.Decimal.Arithmetic
import TelemetryRelay.Proofs.Decimal.Digits
import TelemetryRelay.Proofs.Json.Lexical

/-!
# The numbers of numerals

* `numberText_integer_iff`: **the numerals of whole numbers are the digits of the numbers of 64
  bits**, without a fraction, an exponent or a leading zero, and not the negative zero.
* `scaled_finite`, `NumberText.finite`: **the double of a numeral is finite.**
-/

namespace TelemetryRelay.Json

open Decimal

variable {cs rest : List Char} {acc i j n : ℕ} {e : ℤ} {negative : Bool} {l : Literal}

/-! ### Powers of ten -/

/-- **A power of ten in the range of doubles becomes the nearest double.** -/
theorem tenTo_eq (hn : n ≤ 308) :
    ∃ k, k < infinitePlace ∧ Nearest (10 ^ n) k ∧ tenTo n = floatAt false k := by
  obtain ⟨k, hk, h⟩ := ofScientific_eq 1 (show n ≤ 2048 by omega)
  rw [Nat.cast_one, one_mul] at hk
  exact ⟨k, hk.finite (pow_le_greatest hn), hk, h⟩

/-- Multiplication by a power of ten. -/
theorem mul_tenTo (hi : i < infinitePlace) (hn : n ≤ 308) :
    ∃ j k, Nearest (10 ^ n) j ∧ Nearest (gridValue i * gridValue j) k ∧
      floatAt false i * tenTo n = floatAt false k := by
  obtain ⟨j, hj, hten, h⟩ := tenTo_eq hn
  obtain ⟨k, hk, hprod⟩ := mul_floatAt hi hj
  exact ⟨j, k, hten, hk, by rw [h, hprod]⟩

/-- Division by a power of ten; the quotient is finite. -/
theorem div_tenTo (hi : i < infinitePlace) (hn : n ≤ 308) :
    ∃ j k, Nearest (10 ^ n) j ∧ Nearest (gridValue i / gridValue j) k ∧ k < infinitePlace ∧
      floatAt false i / tenTo n = floatAt false k := by
  obtain ⟨j, hj, hten, h⟩ := tenTo_eq hn
  have hone := hten.one_le (one_le_pow₀ (by norm_num))
  have hj0 : j ≠ 0 := by
    rintro rfl
    rw [gridValue_zero] at hone
    linarith
  obtain ⟨k, hk, hquot⟩ := div_floatAt hi hj hj0
  have hle := hk.le_of_le (div_le_self (gridValue_nonneg i) hone)
  exact ⟨j, k, hten, hk, by omega, by rw [h, hquot]⟩

/-- A double is infinite past the greatest finite one. -/
theorem isInfinite_floatAt : isInfinite (floatAt negative i) = decide (infinitePlace ≤ i) := by
  by_cases hi : infinitePlace ≤ i
  · rw [floatAt_infinite hi, decide_eq_true hi]
    cases negative <;> decide +kernel
  · have hup : (1 / 0 : Float) = floatAt false infinitePlace := by decide +kernel
    have hdown : (-1 / 0 : Float) = floatAt true infinitePlace := by decide +kernel
    have hless : i < infinitePlace := by omega
    rw [isInfinite, hup, hdown, beq_infinite_floatAt hless, beq_infinite_floatAt hless,
      decide_eq_false hi]
    rfl

/-! ### Scaling -/

theorem scaled_up (he : 0 ≤ e) (he' : e ≤ 308) (f : Float) :
    scaled f e = if isInfinite (f * tenTo e.natAbs) then none else some (f * tenTo e.natAbs) := by
  rw [scaled, if_pos (by omega), if_pos he]

theorem scaled_down (he : e < 0) (he' : -308 ≤ e) (f : Float) :
    scaled f e = some (f / tenTo e.natAbs) := by
  rw [scaled, if_pos (by omega), if_neg (by omega)]

/-- Far below, the power is divided out in steps. -/
theorem scaled_far (he : e < -308) {f : Float} (hf : (f == 0) = false) :
    scaled f e = scaled (f / tenTo 308) (e + 308) := by
  rw [scaled, if_neg (by omega), hf, if_neg Bool.false_ne_true, if_neg (by omega)]

/-- **A scaled double is finite.** -/
theorem scaled_finite {x : Float} (hi : i < infinitePlace) (h : scaled (floatAt false i) e = some x) :
    ∃ k, k < infinitePlace ∧ x = floatAt false k := by
  obtain ⟨f, hf⟩ : ∃ f, f = floatAt false i := ⟨_, rfl⟩
  rw [← hf] at h
  induction f, e using scaled.induct generalizing i with
  | case1 f e hle hpos product =>
    rename_i hinf
    rw [scaled_up hpos (by omega), if_pos hinf] at h
    cases h
  | case2 f e hle hpos product =>
    rename_i hinf
    rw [scaled_up hpos (by omega), if_neg hinf] at h
    cases h
    change ¬ isInfinite (f * tenTo e.natAbs) = true at hinf
    obtain ⟨-, k, -, -, hk⟩ := mul_tenTo hi hle
    rw [hf, hk, isInfinite_floatAt, decide_eq_true_iff] at hinf
    exact ⟨k, by omega, by rw [hf, hk]⟩
  | case3 f e hle hneg =>
    rw [scaled_down (by omega) (by omega)] at h
    cases h
    obtain ⟨-, k, -, -, hless, hk⟩ := div_tenTo hi hle
    exact ⟨k, hless, by rw [hf, hk]⟩
  | case4 f e hle h0 =>
    rw [scaled, if_neg hle, if_pos h0] at h
    cases h
    exact ⟨i, hi, hf⟩
  | case5 f e hle h0 hpos =>
    rw [scaled, if_neg hle, if_neg h0, if_pos hpos] at h
    cases h
  | case6 f e hle h0 hneg ih =>
    rw [scaled_far (by omega) (Bool.eq_false_iff.2 h0)] at h
    obtain ⟨-, k, -, -, hless, hk⟩ := div_tenTo hi (show 308 ≤ 308 by decide)
    exact ih hless h (by rw [hf, hk])

/-! ### Digits that fit -/

theorem fitDigits_le (h : acc ≤ uint64Max) (cs : List Char) : (fitDigits acc cs).1 ≤ uint64Max := by
  induction cs generalizing acc with
  | nil => exact h
  | cons c rest ih =>
    rw [fitDigits]
    split
    · next hnext => exact ih hnext
    · exact h

/-- Digits fit if their number does. -/
theorem fitDigits_of_le (h : onto acc cs ≤ uint64Max) : fitDigits acc cs = (onto acc cs, []) := by
  induction cs generalizing acc with
  | nil => rfl
  | cons c rest ih =>
    have hnext : 10 * acc + (digit? c).getD 0 ≤ uint64Max := Nat.le_trans (le_onto _ rest) h
    rw [fitDigits, if_pos hnext, ih h]
    rfl

theorem fitDigits_eq_nil (h : (fitDigits acc cs).2 = []) : (fitDigits acc cs).1 = onto acc cs := by
  induction cs generalizing acc with
  | nil => rfl
  | cons c rest ih =>
    rw [fitDigits] at h ⊢
    split at h
    · next hnext =>
      rw [if_pos hnext]
      exact ih h
    · cases h

/-! ### Whole numbers -/

/-- A numeral without fraction and exponent is nothing but digits. -/
theorem MagnitudeText.whole (h : MagnitudeText negative cs l) (hf : l.fraction = [])
    (he : l.exponent = none) : cs = l.whole ∧ l.negative = negative ∧ digits (value l.whole) = l.whole := by
  obtain ⟨hwhole, hzero, hfraction, hexponent⟩ := h
  dsimp only at hf he
  subst hf he
  cases hexponent
  cases hfraction with
  | digits h => exact absurd rfl h.1
  | absent =>
    rw [List.append_nil, List.append_nil]
    exact ⟨rfl, rfl, digits_value hwhole.2 hwhole.1 hzero⟩

theorem magnitudeText_digits (n : ℕ) :
    MagnitudeText negative (digits n) ⟨negative, digits n, [], none⟩ := by
  have hzero : (digits n).head? = some '0' → (digits n).length = 1 := fun h => by
    rw [eq_zero_of_head? h, digits, if_pos (by decide), List.length_singleton]
  have h := @MagnitudeText.mk negative _ _ _ _ _ ⟨digits_ne_nil n, isDigit_of_mem_digits n⟩ hzero
    .absent .absent
  rwa [List.append_nil, List.append_nil] at h

/-- Which numerals stand for a whole number. -/
theorem Literal.number?_integer_iff {k : ℤ} : l.number? = some (.integer k) ↔
    l.fraction = [] ∧ l.exponent = none ∧ value l.whole ≤ uint64Max ∧
      (l.negative = false ∧ k = value l.whole ∨
        l.negative = true ∧ k = -value l.whole ∧ value l.whole ≠ 0 ∧ int64Min ≤ k) := by
  have hfit := fitDigits_le (Nat.zero_le uint64Max) l.whole
  constructor
  · intro h
    unfold Literal.number? at h
    dsimp only at h
    split at h
    · next hplain =>
      simp only [Bool.and_eq_true, List.isEmpty_iff, Option.isNone_iff_eq_none] at hplain
      obtain ⟨⟨hf, he⟩, hnil⟩ := hplain
      have hvalue : (fitDigits 0 l.whole).1 = value l.whole := fitDigits_eq_nil hnil
      rw [hvalue] at hfit h
      refine ⟨hf, he, hfit, ?_⟩
      split at h
      · next hpos =>
        cases h
        exact .inl ⟨by simpa using hpos, rfl⟩
      · next hneg =>
        split at h
        · cases h
        · next hlow =>
          cases h
          rw [not_or, not_lt] at hlow
          exact .inr ⟨by simpa using hneg, rfl, hlow.1, hlow.2⟩
    · obtain ⟨x, -, hx⟩ := Option.map_eq_some_iff.1 h
      cases hx
  · rintro ⟨hf, he, hle, hsign⟩
    have hall : fitDigits 0 l.whole = (value l.whole, []) := fitDigits_of_le hle
    unfold Literal.number?
    rw [hall, hf, he]
    dsimp only
    rcases hsign with ⟨hneg, rfl⟩ | ⟨hneg, rfl, h0, hlow⟩
    · rw [hneg]
      rfl
    · have hsmall : ¬ (value l.whole = 0 ∨ -(value l.whole : ℤ) < int64Min) := by
        rw [not_or, not_lt]
        exact ⟨h0, hlow⟩
      rw [hneg]
      exact if_neg hsmall

/-- **The numerals of whole numbers are the digits of the numbers of 64 bits**, signed or not. -/
theorem numberText_integer_iff {k : ℤ} : NumberText cs (.integer k) ↔
    cs = Decimal.ofInt k ∧ int64Min ≤ k ∧ k ≤ uint64Max := by
  constructor
  · rintro ⟨l, htext, hl⟩
    obtain ⟨hf, he, hle, hsign⟩ := Literal.number?_integer_iff.1 hl
    cases htext with
    | plain h =>
      obtain ⟨rfl, hneg, hdigits⟩ := h.whole hf he
      rw [hneg] at hsign
      obtain ⟨-, rfl⟩ | ⟨hsign, -⟩ := hsign
      · rw [Decimal.ofInt, if_neg (by omega), Int.natAbs_natCast, hdigits]
        exact ⟨rfl, by unfold int64Min; omega, by omega⟩
      · cases hsign
    | minus h =>
      obtain ⟨rfl, hneg, hdigits⟩ := h.whole hf he
      rw [hneg] at hsign
      obtain ⟨hsign, -⟩ | ⟨-, rfl, h0, hlow⟩ := hsign
      · cases hsign
      · rw [Decimal.ofInt, if_pos (by omega), Int.natAbs_neg, Int.natAbs_natCast, hdigits]
        exact ⟨rfl, hlow, by omega⟩
  · rintro ⟨rfl, hlow, hhigh⟩
    unfold Decimal.ofInt
    split
    · next hneg =>
      refine ⟨_, .minus (magnitudeText_digits k.natAbs), Literal.number?_integer_iff.2 ?_⟩
      dsimp only
      rw [value_digits]
      unfold int64Min uint64Max at *
      exact ⟨rfl, rfl, by omega, .inr ⟨rfl, by omega, by omega, by omega⟩⟩
    · next hpos =>
      refine ⟨_, .plain (magnitudeText_digits k.natAbs), Literal.number?_integer_iff.2 ?_⟩
      dsimp only
      rw [value_digits]
      exact ⟨rfl, rfl, by omega, .inl ⟨rfl, by omega⟩⟩

theorem isFinite_ofNat (hn : n ≤ uint64Max) : isFinite (Float.ofNat n) = true := by
  obtain ⟨k, hk, -, h⟩ := ofNat_eq hn
  rw [h]
  exact isFinite_floatAt hk

theorem isFinite_neg {x : Float} (h : isFinite x = true) : isFinite (-x) = true := by
  rw [← floatAt_place h, neg_floatAt (isFinite_iff.1 h)]
  exact isFinite_floatAt (isFinite_iff.1 h)

theorem isFinite_ofInt_neg (hn : n ≤ uint64Max) : isFinite (Float.ofInt (-(n : ℤ))) = true := by
  cases n with
  | zero => exact isFinite_ofNat hn
  | succ n => exact isFinite_neg (isFinite_ofNat hn)

theorem isFinite_signed {x : Float} (h : isFinite x = true) : isFinite (signed negative x) = true := by
  unfold signed
  split
  · exact isFinite_neg h
  · exact h

/-- The double of a numeral with a fraction, an exponent or digits that did not fit. -/
theorem Literal.real?_finite {significand : ℕ} {shift : ℤ} {x : Float}
    (hfit : significand ≤ uint64Max) (h : l.real? significand shift = some x) :
    isFinite x = true := by
  have hscaled : ∀ {e : ℤ} {x : Float},
      (scaled (Float.ofNat significand) e).map (signed l.negative) = some x →
        isFinite x = true := by
    intro e x h
    obtain ⟨y, hy, rfl⟩ := Option.map_eq_some_iff.1 h
    obtain ⟨i, hi, -, hnat⟩ := ofNat_eq hfit
    rw [hnat] at hy
    obtain ⟨k, hk, rfl⟩ := scaled_finite hi hy
    exact isFinite_signed (isFinite_floatAt hk)
  unfold Literal.real? at h
  split at h
  · exact hscaled h
  · dsimp only at h
    split at h
    · split at h
      · cases h
      · cases h
        exact isFinite_signed (isFinite_ofNat (Nat.zero_le _))
    · exact hscaled h

/-- **What a numeral stands for is finite.** -/
theorem Literal.number?_finite {n : Number} (h : l.number? = some n) :
    isFinite n.toFloat = true := by
  have hfit := fitDigits_le (Nat.zero_le uint64Max) l.whole
  unfold Literal.number? at h
  dsimp only at h
  split at h
  · split at h
    · cases h
      exact isFinite_ofNat hfit
    · split at h
      · cases h
        exact isFinite_neg (isFinite_ofNat hfit)
      · next hlow =>
        cases h
        exact isFinite_ofInt_neg hfit
  · obtain ⟨x, hx, rfl⟩ := Option.map_eq_some_iff.1 h
    exact Literal.real?_finite (fitDigits_le hfit _) hx

theorem NumberText.finite {n : Number} (h : NumberText cs n) : isFinite n.toFloat = true := by
  obtain ⟨l, -, hl⟩ := h
  exact Literal.number?_finite hl

end TelemetryRelay.Json
