import TelemetryRelay.Proofs.Decimal.Arithmetic
import TelemetryRelay.Proofs.Decimal.Shortest

/-!
# The error of a few roundings

A number and a power of ten are rounded before they are multiplied or divided. The exact product or
quotient of the rounded ones differs from that of the numbers by two parts in `2^53` at most. A
quotient by `10^308` that is rounded once more is no further off: the double of that power is off by
a tenth of one part only, and its digits are such that the number and its quotient do not both have
digits near the least, where rounding loses most.

* `Within.mul`, `Within.div`: the error of a product and of a quotient.
* `Within.far`: **the error of a rounded quotient by `10^308`** in the normal range.
* `shift_far`: its error below that range.
* `near_far`, `near_shifted`: how far off the place is once that quotient is divided again.
-/

namespace TelemetryRelay.Decimal

variable {a b c i k : ℕ} {d p s t x y : ℚ}

/-! ### The normal range -/

/-- The least doubles with all digits beside a power of ten, and what is lost of that power in one
rounding. -/
theorem least_normal : gridValue (leadingBit + 1) ≤ 5 / 2 * 10 ^ (-308 : ℤ) ∧
    5 / 2 * (10 : ℚ) ^ (-308 : ℤ) ≤ gridValue (2 * leadingBit - 1) ∧
    4 * 10 ^ (-308 : ℤ) * roundoff ≤ gap 0 := by
  have hfirst : 2 * (leadingBit + 1) * up (-1072) (-308) ≤ 5 * down (-1072) (-308) := by
    decide +kernel
  have hlast : 5 * down (-1072) (-308) ≤ 2 * (2 * leadingBit - 1) * up (-1072) (-308) := by
    decide +kernel
  have hlost : 4 * down (-1072) (-308) ≤ 2 * leadingBit * up (-1072) (-308) := by
    decide +kernel
  rw [up_le_iff] at hfirst
  rw [down_le_iff] at hlast hlost
  have hs : significand (leadingBit + 1) = leadingBit + 1 := by decide
  have hs' : significand (2 * leadingBit - 1) = 2 * leadingBit - 1 := by decide
  have hp : lastPlace (leadingBit + 1) = -1072 - 2 := by decide
  have hp' : lastPlace (2 * leadingBit - 1) = -1072 - 2 := by decide
  have hp0 : lastPlace 0 = -1072 - 2 := by decide
  unfold gridValue gap
  rw [hs, hs', hp, hp', hp0]
  generalize (2 : ℚ) ^ (-1072 - 2 : ℤ) = unit at *
  generalize (10 : ℚ) ^ (-308 : ℤ) = ten at *
  norm_num [leadingBit] at hfirst hlast hlost ⊢
  unfold roundoff
  exact ⟨by linarith, by linarith, by linarith⟩

theorem leadingBit_lt (h : 1 ≤ gridValue a) : leadingBit < a := by
  by_contra hle
  have hmono := gridValue_strictMono.monotone (show a ≤ leadingBit + 1 by omega)
  have hten : (10 : ℚ) ^ (-308 : ℤ) ≤ 10 ^ (-1 : ℤ) := zpow_le_zpow_right₀ (by norm_num) (by norm_num)
  rw [zpow_neg_one] at hten
  linarith [least_normal.1]

/-- What is no less than one is rounded in the normal range. -/
theorem Nearest.normal (h : Nearest s a) (hs : 1 ≤ s) : leadingBit < a := leadingBit_lt (h.one_le hs)

/-! ### Products and quotients -/

/-- The error of a product. -/
theorem Within.mul (hs : Nearest s a) (ht : Nearest t b) (ha : leadingBit < a) (hb : leadingBit < b)
    (hs0 : 0 ≤ s) (ht0 : 0 ≤ t) : Within (s * t) (gridValue a * gridValue b) := by
  obtain ⟨hs1, hs2⟩ := hs.relative ha
  obtain ⟨ht1, ht2⟩ := ht.relative hb
  have hu := roundoff_pos
  have hga := gridValue_nonneg a
  have hgb := gridValue_nonneg b
  have hlow := mul_le_mul hs1 ht1 ht0 (by positivity)
  have hhigh := mul_le_mul hs2 ht2 (by positivity) (by positivity)
  have hst : 0 ≤ s * t := mul_nonneg hs0 ht0
  have hab : 0 ≤ gridValue a * gridValue b := mul_nonneg hga hgb
  unfold roundoff at hlow hhigh
  constructor <;> unfold roundoff <;> linarith

/-- The quotient of two rounded numbers and that of the numbers themselves. -/
theorem quotient_bounds (hs : Nearest s a) (ht : Nearest t b) (ha : leadingBit < a)
    (hb : leadingBit < b) (hs0 : 0 ≤ s) (ht0 : 0 < t) :
    s / t ≤ gridValue a / gridValue b * (1 + 2 * roundoff) ∧
      gridValue a / gridValue b ≤ s / t * (1 + 2 * roundoff) := by
  obtain ⟨hs1, hs2⟩ := hs.relative ha
  obtain ⟨ht1, ht2⟩ := ht.relative hb
  have hu := roundoff_pos
  have hga := gridValue_nonneg a
  have hgb : 0 < gridValue b := gridValue_zero ▸ gridValue_strictMono (by omega)
  constructor
  · rw [div_le_iff₀ ht0]
    calc s ≤ gridValue a * (1 + roundoff) := hs1
      _ = gridValue a / gridValue b * (gridValue b * (1 + roundoff)) := by
        rw [← mul_assoc, div_mul_cancel₀ _ hgb.ne']
      _ ≤ gridValue a / gridValue b * (t * (1 + 2 * roundoff)) :=
        mul_le_mul_of_nonneg_left ht2 (by positivity)
      _ = gridValue a / gridValue b * (1 + 2 * roundoff) * t := by ring
  · rw [div_le_iff₀ hgb]
    refine le_of_mul_le_mul_right ?_ (show 0 < 1 + roundoff by linarith)
    calc gridValue a * (1 + roundoff) ≤ s * (1 + 2 * roundoff) := hs2
      _ = s / t * (1 + 2 * roundoff) * t := by
        rw [mul_right_comm, div_mul_cancel₀ _ ht0.ne']
      _ ≤ s / t * (1 + 2 * roundoff) * (gridValue b * (1 + roundoff)) :=
        mul_le_mul_of_nonneg_left ht1 (by positivity)
      _ = s / t * (1 + 2 * roundoff) * gridValue b * (1 + roundoff) := by ring

/-- The error of a quotient. -/
theorem Within.div (hs : Nearest s a) (ht : Nearest t b) (ha : leadingBit < a) (hb : leadingBit < b)
    (hs0 : 0 ≤ s) (ht0 : 0 < t) : Within (s / t) (gridValue a / gridValue b) := by
  obtain ⟨hlow, hhigh⟩ := quotient_bounds hs ht ha hb hs0 ht0
  have hst : 0 ≤ s / t := by positivity
  have hab : 0 ≤ gridValue a / gridValue b := div_nonneg (gridValue_nonneg a) (gridValue_nonneg b)
  unfold roundoff at hlow hhigh
  constructor <;> unfold roundoff <;> linarith

theorem Within.div_const (h : Within d t) (hp : 0 < p) : Within (d / p) (t / p) := by
  obtain ⟨hlow, hhigh⟩ := h
  constructor
  · rw [div_mul_eq_mul_div]
    gcongr
  · rw [div_mul_eq_mul_div]
    gcongr

/-! ### Quotients by the greatest power -/

/-- The digits of the double nearest to `10^308`. -/
def farDigits : ℚ := 5010420900022432

/-- The double nearest to `10^308`. -/
theorem gridValue_far (hb : Nearest (10 ^ 308) b) : gridValue b = farDigits * 2 ^ (971 : ℤ) := by
  have hplace : place (Float.ofScientific 1 false 308) = 9214871658872686752 := by decide +kernel
  obtain ⟨k, hten, hfloat⟩ := ofScientific_eq 1 (show 308 ≤ 2048 by decide)
  rw [Nat.cast_one, one_mul] at hten
  have hk := hten.finite (pow_le_greatest (le_refl 308))
  rw [hfloat, place_floatAt, min_eq_left hk.le] at hplace
  have hs : significand 9214871658872686752 = 5010420900022432 := by decide
  have hp : lastPlace 9214871658872686752 = 971 := by decide
  rw [hb.unique hten, hplace, gridValue, gap, hs, hp, farDigits, Nat.cast_ofNat]

/-- How far that double is from the power. -/
theorem far_bounds (hb : Nearest (10 ^ 308) b) :
    10 ^ 308 ≤ gridValue b ∧ gridValue b ≤ 10 ^ 308 * (1 + roundoff / 10) := by
  have hlow : 1 * down 973 308 ≤ 5010420900022432 * up 973 308 := by decide +kernel
  have hhigh : 5010420900022432 * 90071992547409920 * up 973 308 ≤ 90071992547409921 * down 973 308 := by
    decide +kernel
  have hpow : (10 : ℚ) ^ (308 : ℤ) = 10 ^ 308 := zpow_natCast 10 308
  rw [down_le_iff, hpow] at hlow
  rw [up_le_iff, hpow] at hhigh
  rw [gridValue_far hb]
  generalize (10 : ℚ) ^ 308 = ten at *
  rw [show (973 : ℤ) - 2 = 971 by norm_num] at hlow hhigh
  generalize (2 : ℚ) ^ (971 : ℤ) = two at *
  push_cast at hlow hhigh
  unfold roundoff farDigits
  exact ⟨by linarith, by linarith⟩

/-- Rounding a number below a power of two changes it by half of the gaps there at most. -/
theorem Nearest.absolute_of_le (h : Nearest x c) (hx : 0 ≤ x) (hk : x ≤ gridValue (k + 1)) :
    x ≤ gridValue c + gap k / 2 ∧ gridValue c ≤ x + gap k / 2 := by
  have hle := h.le_of_le hk
  rcases Nat.lt_or_ge k c with hlt | hge
  · -- the power of two itself
    obtain rfl : c = k + 1 := by omega
    have hbelow := h.below k rfl
    have hstep := gridValue_succ k
    exact ⟨by linarith [gap_pos k], by linarith⟩
  · obtain ⟨h1, h2⟩ := h.absolute hx
    have := gap_mono hge
    exact ⟨by linarith, by linarith⟩

/-- Half of the gap below a power of two. -/
theorem exists_power {t : ℤ} (ht : -1073 ≤ t) :
    ∃ k, gridValue (k + 1) = 2 ^ (t + 52) ∧ gap k / 2 = 2 ^ (t - 2) := by
  obtain ⟨m, rfl⟩ : ∃ m : ℕ, t = m - 1073 := ⟨(t + 1073).toNat, by omega⟩
  have hs : significand ((m + 2) * leadingBit - 1 + 1) = leadingBit := by
    unfold significand leadingBit
    omega
  have hp : lastPlace ((m + 2) * leadingBit - 1 + 1) = m - 1073 := by
    unfold lastPlace leadingBit
    omega
  have hp' : lastPlace ((m + 2) * leadingBit - 1) = m - 1073 - 1 := by
    unfold lastPlace leadingBit
    omega
  refine ⟨(m + 2) * leadingBit - 1, ?_, ?_⟩
  · rw [gridValue, gap, hs, hp, zpow_add₀ (by norm_num), mul_comm]
    norm_num [leadingBit]
  · rw [gap, hp', show (m : ℤ) - 1073 - 1 = m - 1073 - 2 + 1 by ring, zpow_add_one₀ (by norm_num),
      mul_div_cancel_right₀ _ (by norm_num)]

/-- The quotient by the double of the greatest power is rounded once more: what is lost, by the power
of two that bounds the quotient. -/
theorem Nearest.far_absolute {t : ℤ} (hb : Nearest (10 ^ 308) b)
    (hx : Nearest (x / gridValue b) c) (hx0 : 0 ≤ x) (ht : -1073 ≤ t)
    (hle : x ≤ farDigits * 2 ^ (t + 1023)) :
    x ≤ gridValue c * gridValue b + farDigits * 2 ^ (t + 969) ∧
      gridValue c * gridValue b ≤ x + farDigits * 2 ^ (t + 969) := by
  have hgb := gridValue_far hb
  obtain ⟨k, hk, hgap⟩ := exists_power ht
  have hpos : 0 < gridValue b := (pow_pos (by norm_num) 308).trans_le (far_bounds hb).1
  have hbound : x / gridValue b ≤ gridValue (k + 1) := by
    rw [div_le_iff₀ hpos, hk, hgb]
    calc x ≤ farDigits * 2 ^ (t + 1023) := hle
      _ = 2 ^ (t + 52) * (farDigits * 2 ^ (971 : ℤ)) := by
        rw [mul_left_comm, ← zpow_add₀ (by norm_num), show t + 52 + 971 = t + 1023 by ring]
  have hlost : gap k / 2 * gridValue b = farDigits * 2 ^ (t + 969) := by
    rw [hgap, hgb, mul_left_comm, ← zpow_add₀ (by norm_num), show t - 2 + 971 = t + 969 by ring]
  obtain ⟨h1, h2⟩ := hx.absolute_of_le (div_nonneg hx0 hpos.le) hbound
  have h1 := mul_le_mul_of_nonneg_right h1 hpos.le
  have h2 := mul_le_mul_of_nonneg_right h2 hpos.le
  rw [add_mul, hlost, div_mul_cancel₀ _ hpos.ne'] at h1 h2
  exact ⟨h1, h2⟩

/-- A number that is not small has no small gap. -/
theorem lt_lastPlace {m : ℚ} {n : ℤ} (h : 3 ≤ gridValue a) (hm : significand a ≤ m)
    (hn : m * 2 ^ n < 3) : n < lastPlace a := by
  by_contra hle
  have hpow : (2 : ℚ) ^ lastPlace a ≤ 2 ^ n := zpow_le_zpow_right₀ (by norm_num) (not_lt.1 hle)
  have hm0 : 0 ≤ m := le_trans (Nat.cast_nonneg _) hm
  have hval : gridValue a ≤ m * 2 ^ n := mul_le_mul hm hpow (gap_pos a).le hm0
  linarith

/-- The quotient of a number by the double of the greatest power and its error, in gaps. The digits
of the quotient are near the least only if those of the number are not. -/
theorem Nearest.far_gaps (ha : 3 ≤ gridValue a) (hb : Nearest (10 ^ 308) b)
    (hx : Nearest (gridValue a / gridValue b) c) : ∃ r : ℚ,
    (r = farDigits * roundoff ∧ farDigits ≤ (significand a : ℚ) ∨
      r = farDigits * roundoff / 2) ∧
    (significand a - r) * gap a ≤ gridValue c * gridValue b ∧
      gridValue c * gridValue b ≤ (significand a + r) * gap a := by
  have hga := gridValue_nonneg a
  have hw := gap_pos a
  have hval : gridValue a = significand a * gap a := rfl
  have hm : (significand a : ℚ) ≤ 9007199254740992 := by
    have := significand_lt a
    unfold leadingBit at this
    exact_mod_cast (show significand a ≤ 9007199254740992 by omega)
  have hpow : ∀ n : ℤ, (2 : ℚ) ^ (lastPlace a + n) = gap a * 2 ^ n := fun n =>
    zpow_add₀ (by norm_num) _ _
  rcases le_or_gt farDigits (significand a : ℚ) with hge | hlt
  · have hplace := lt_lastPlace ha hm (show _ * 2 ^ (-52 : ℤ) < 3 by norm_num)
    obtain ⟨h1, h2⟩ := hb.far_absolute hx hga (show -1073 ≤ lastPlace a - 1022 by omega) (by
      rw [show lastPlace a - 1022 + 1023 = lastPlace a + 1 by ring, hpow, hval, zpow_one]
      unfold farDigits
      linarith [mul_le_mul_of_nonneg_right hm hw.le])
    rw [show lastPlace a - 1022 + 969 = lastPlace a + (-53) by ring, hpow, hval] at h1 h2
    refine ⟨_, .inl ⟨rfl, hge⟩, ?_⟩
    unfold roundoff
    norm_num at h1 h2 ⊢
    constructor <;> linarith
  · have hplace := lt_lastPlace ha hlt.le (show _ * 2 ^ (-51 : ℤ) < 3 by norm_num [farDigits])
    obtain ⟨h1, h2⟩ := hb.far_absolute hx hga (show -1073 ≤ lastPlace a - 1023 by omega) (by
      rw [show lastPlace a - 1023 + 1023 = lastPlace a by ring, hval]
      exact mul_le_mul_of_nonneg_right hlt.le hw.le)
    rw [show lastPlace a - 1023 + 969 = lastPlace a + (-54) by ring, hpow, hval] at h1 h2
    refine ⟨_, .inr rfl, ?_⟩
    unfold roundoff
    norm_num at h1 h2 ⊢
    constructor <;> linarith

/-- **The error of a quotient by the greatest power that is rounded once more.** The power is rounded
by a small part of the roundoff, so no more is lost than in two roundings. -/
theorem Within.far (hs : Nearest s a) (hs0 : 0 ≤ s) (hla : leadingBit < a) (ha : 3 ≤ gridValue a)
    (hb : Nearest (10 ^ 308) b) (hx : Nearest (gridValue a / gridValue b) c) :
    Within (s / 10 ^ 308) (gridValue c) := by
  obtain ⟨hten, hten'⟩ := far_bounds hb
  obtain ⟨r, hr, hlow, hhigh⟩ := Nearest.far_gaps ha hb hx
  obtain ⟨hs1, hs2⟩ := hs.absolute hs0
  have hval : gridValue a = significand a * gap a := rfl
  have hw := gap_pos a
  have hgc := gridValue_nonneg c
  have hm : (4503599627370496 : ℚ) ≤ significand a := by
    exact_mod_cast le_significand hla.le
  have hpos : (0 : ℚ) < 10 ^ 308 := by positivity
  generalize (10 : ℚ) ^ 308 = ten at *
  generalize (significand a : ℚ) = m at *
  rw [hval] at hs1 hs2
  constructor
  · -- in gaps of the number
    have hgaps : (m + 1 / 2) * ((1 - 2 * roundoff) * (1 + roundoff / 10)) ≤ m - r := by
      unfold roundoff farDigits at hr
      unfold roundoff
      rcases hr with ⟨rfl, hm'⟩ | rfl <;> linarith
    have hgaps := mul_le_mul_of_nonneg_right hgaps hw.le
    have hup := mul_le_mul_of_nonneg_left hten' hgc
    have hc0 : 0 ≤ (1 - 2 * roundoff) * (1 + roundoff / 10) := by norm_num [roundoff]
    have hs1 := mul_le_mul_of_nonneg_right hs1 hc0
    rw [div_mul_eq_mul_div, div_le_iff₀ hpos]
    refine le_of_mul_le_mul_right ?_ (show 0 < 1 + roundoff / 10 by norm_num [roundoff])
    linarith
  · have hgaps : m + r ≤ (m - 1 / 2) * (1 + 2 * roundoff + roundoff ^ 2) := by
      unfold roundoff farDigits at hr
      unfold roundoff
      rcases hr with ⟨rfl, hm'⟩ | rfl <;> linarith
    have hgaps := mul_le_mul_of_nonneg_right hgaps hw.le
    have hup := mul_le_mul_of_nonneg_left hten hgc
    have hc0 : 0 ≤ 1 + 2 * roundoff + roundoff ^ 2 := by norm_num [roundoff]
    have hs2 := mul_le_mul_of_nonneg_right hs2 hc0
    rw [div_mul_eq_mul_div, le_div_iff₀ hpos]
    linarith

/-- The error of a quotient that is rounded below the normal range. -/
theorem shift_far (hlow : y ≤ x * (1 + 2 * roundoff)) (hhigh : x ≤ y * (1 + 2 * roundoff))
    (hx : Nearest x c) (hx0 : 0 ≤ x) (hy : y ≤ 2 * 10 ^ (-308 : ℤ)) :
    gridValue c ≤ y + 2 * gap 0 ∧ y ≤ gridValue c + 2 * gap 0 := by
  obtain ⟨-, hlast, hlost⟩ := least_normal
  have hten : (0 : ℚ) < 10 ^ (-308 : ℤ) := by positivity
  have hsmall : x ≤ 5 / 2 * 10 ^ (-308 : ℤ) := by
    unfold roundoff at hhigh
    linarith
  have hc : c ≤ 2 * leadingBit - 1 := hx.le_of_le (hsmall.trans hlast)
  have hgap : gap c = gap 0 := by
    have hp : lastPlace c = lastPlace 0 := by
      unfold lastPlace leadingBit at *
      omega
    rw [gap, hp, gap]
  obtain ⟨hc1, hc2⟩ := hx.absolute hx0
  rw [hgap] at hc1 hc2
  unfold roundoff at hlow hhigh hlost
  constructor <;> linarith

/-! ### Two quotients in a row -/

section Far

variable (hs : Nearest s a) (hb : Nearest (10 ^ 308) b) (hc : Nearest (gridValue a / gridValue b) c)
  (hk : Nearest (gridValue c / p) k) (hd : Nearest (s / 10 ^ 308 / p) i)

include hs hb hc hk hd

/-- If the first quotient has all its digits, its error is that of two roundings. -/
theorem near_far (hs3 : 3 ≤ s) (hp : 0 < p) : Near i k := by
  have ha3 : 3 ≤ gridValue a := by
    obtain ⟨l, hl⟩ := exists_gridValue (show 3 < 2 * leadingBit by decide)
    rw [Nat.cast_ofNat] at hl
    rw [← hl] at hs3 ⊢
    exact gridValue_strictMono.monotone (hs.ge_of_le hs3)
  have hfar := Within.far hs (by linarith) (hs.normal (by linarith)) ha3 hb hc
  exact hd.near hk (hfar.div_const hp)

/-- It may have lost digits, but then they are worth less than a double. -/
theorem near_shifted (hs1 : 1 ≤ s) (hs2 : s ≤ 2) (hp : 2 ≤ p) : Near i k := by
  have hp0 : 0 < p := by linarith
  have hsmall : s / 10 ^ 308 ≤ 2 * 10 ^ (-308 : ℤ) := by
    rw [zpow_neg, ← div_eq_mul_inv, zpow_ofNat]
    gcongr
  obtain ⟨hlow, hhigh⟩ := quotient_bounds hs hb (hs.normal hs1)
    (hb.normal (one_le_pow₀ (by norm_num))) (by linarith) (pow_pos (by norm_num) 308)
  obtain ⟨hup, hdown⟩ := shift_far hlow hhigh hc
    (div_nonneg (gridValue_nonneg a) (gridValue_nonneg b)) hsmall
  clear hlow hhigh hsmall hb
  generalize s / 10 ^ 308 = y at *
  have hgap : 2 * gap 0 / p ≤ gap 0 := by
    rw [div_le_iff₀ hp0]
    linarith [mul_le_mul_of_nonneg_left hp (gap_pos 0).le]
  have hup := div_le_div_of_nonneg_right hup hp0.le
  have hdown := div_le_div_of_nonneg_right hdown hp0.le
  rw [add_div] at hup hdown
  exact ⟨hd.le_of_shift hk (by linarith), hk.le_of_shift hd (by linarith)⟩

end Far

end TelemetryRelay.Decimal
