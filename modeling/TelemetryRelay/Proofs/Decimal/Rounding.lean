import Mathlib
import TelemetryRelay.Proofs.Decimal.Grid
import TelemetryRelay.Proofs.Decimal.Order

/-!
# Rounding to doubles

The result of an operation is computed with an extended mantissa, a natural number and two bits that
say where the exact result lies between it and the next (`Stands`), and is then rounded and packed.

* `roundWithAccuracy_eq`: **rounding gives the double at the place that the exact result is nearest
  to**.
* `pack_toNat`: the bits of a double are its sign and its place, or the place of infinity.
-/

namespace TelemetryRelay.Decimal

open Float.Model Float.Model.UnpackedFloat

/-! ### Extended mantissas -/

/-- The numbers that an extended mantissa stands for. -/
def Stands (em : ExtendedMantissa) (x : ℚ) : Prop :=
  match em.roundBit, em.stickyBit with
  | false, false => x = em.mantissa
  | false, true => em.mantissa < x ∧ 2 * x < 2 * em.mantissa + 1
  | true, false => 2 * x = 2 * em.mantissa + 1
  | true, true => 2 * em.mantissa + 1 < 2 * x ∧ x < em.mantissa + 1

variable {em : ExtendedMantissa} {x : ℚ}

theorem Stands.bounds (h : Stands em x) : em.mantissa ≤ x ∧ x < em.mantissa + 1 := by
  obtain ⟨m, r, s⟩ := em
  cases r <;> cases s <;> simp only [Stands] at h <;> constructor <;> linarith

/-- Shifting to the right halves the number. -/
theorem Stands.shiftRightOne (h : Stands em x) : Stands em.shiftRightOne (x / 2) := by
  obtain ⟨m, r, s⟩ := em
  obtain ⟨n, rfl | rfl⟩ : ∃ n, m = 2 * n ∨ m = 2 * n + 1 := ⟨m / 2, by omega⟩
  · have hdiv : 2 * n / 2 = n := by omega
    have hmod : 2 * n % 2 = 0 := by omega
    cases r <;> cases s <;> simp [Stands, ExtendedMantissa.shiftRightOne, hdiv, hmod] at h ⊢ <;>
      first | linarith | constructor <;> linarith
  · have hdiv : (2 * n + 1) / 2 = n := by omega
    have hmod : (2 * n + 1) % 2 = 1 := by omega
    cases r <;> cases s <;> simp [Stands, ExtendedMantissa.shiftRightOne, hdiv, hmod] at h ⊢ <;>
      first | linarith | constructor <;> linarith

theorem Stands.shiftRight (h : Stands em x) (n : ℕ) : Stands (em >>> n) (x / 2 ^ n) := by
  show Stands (n.repeat ExtendedMantissa.shiftRightOne em) _
  induction n with
  | zero => simpa [Nat.repeat] using h
  | succ n ih =>
    rw [Nat.repeat, pow_succ, ← div_div]
    exact ih.shiftRightOne

/-- A number is rounded to a natural number, and halfway between two to the even one. -/
structure RoundsTo (x : ℚ) (r : ℕ) : Prop where
  below : 2 * (r : ℚ) ≤ 2 * x + 1
  above : 2 * x ≤ 2 * r + 1
  even_below : 2 * (r : ℚ) = 2 * x + 1 → Even r
  even_above : 2 * x = 2 * (r : ℚ) + 1 → Even r

theorem Stands.roundsTo (h : Stands em x) : RoundsTo x em.roundedMantissa := by
  obtain ⟨m, r, s⟩ := em
  cases r <;> cases s <;>
    simp only [Stands, ExtendedMantissa.roundedMantissa, ExtendedMantissa.accuracy,
      Accuracy.roundToNearestEven] at h ⊢
  · subst h
    exact ⟨by linarith, by linarith, fun h => by linarith, fun h => by linarith⟩
  · exact ⟨by linarith, by linarith, fun h => by linarith, fun h => by linarith⟩
  · -- halfway
    have heven : Even (m + m % 2) := by
      rw [Nat.even_iff]
      omega
    have hle : ((m + m % 2 : ℕ) : ℚ) ≤ m + 1 := by
      exact_mod_cast (by omega : m + m % 2 ≤ m + 1)
    have hge : (m : ℚ) ≤ (m + m % 2 : ℕ) := by
      exact_mod_cast (by omega : m ≤ m + m % 2)
    exact ⟨by linarith, by linarith, fun _ => heven, fun _ => heven⟩
  · refine ⟨?_, ?_, fun h => ?_, fun h => ?_⟩ <;> push_cast at * <;> linarith

/-- Rounding does not go past a natural number. -/
theorem RoundsTo.le_of_lt {r n : ℕ} (h : RoundsTo x r) (hx : x < n) : r ≤ n := by
  have hr : 2 * (r : ℚ) < 2 * n + 1 := by linarith [h.below]
  have hr : 2 * r < 2 * n + 1 := by exact_mod_cast hr
  omega

theorem RoundsTo.ge_of_le {r n : ℕ} (h : RoundsTo x r) (hx : n ≤ x) : n ≤ r := by
  have hr : 2 * (n : ℚ) ≤ 2 * r + 1 := by linarith [h.above]
  have hr : 2 * n ≤ 2 * r + 1 := by exact_mod_cast hr
  omega

/-! ### Rounding to a double -/

/-- What fits has 53 binary digits at most. -/
theorem log2_le {m : ℕ} (hm : m < 2 * leadingBit) : m.log2 ≤ 52 := by
  by_cases h0 : m = 0
  · rw [h0, Nat.log2_zero]
    omega
  · have := (Nat.log2_lt (k := 53) h0).2 (by unfold leadingBit at hm; omega)
    omega

/-- The double at a place, taken apart; past the greatest it does not fit and is packed as
infinity. -/
def unpackedAt (sign : Sign) (i : ℕ) : UnpackedFloat :=
  if h : significand i = 0 then .zero sign
  else .finite sign (significand i) (lastPlace i) (Nat.pos_of_ne_zero h)

/-- The target of a shift: all digits fit, and none is worth less than the last place of all. -/
theorem targetExponent_eq (m : ℕ) (e : ℤ) :
    Format.targetExponent .binary64 (totalExponent m e) = max ((m.log2 : ℤ) + e - 52) (-1074) := by
  have hmin : Format.minExponent .binary64 = -1074 := by decide
  have hbits : (Format.mantissaBits .binary64 : ℤ) = 53 := by decide
  rw [Format.targetExponent, hmin, hbits, totalExponent]
  congr 1
  ring

/-- The place of `r` units of `2^t`, where `t` is no less than the last place of all. -/
def placeOf (r : ℕ) (t : ℤ) : ℕ := (t + 1074).toNat * leadingBit + r

section PlaceOf

variable {r : ℕ} {t : ℤ}

/-- A rounded mantissa has all digits, or the least exponent. One that got a digit more is half as
large at the next exponent. -/
theorem placeOf_eq (ht : -1074 ≤ t) (hr : r ≤ 2 * leadingBit) (hfull : -1074 < t → leadingBit ≤ r) :
    significand (placeOf r t) = r ∧ lastPlace (placeOf r t) = t ∧ r < 2 * leadingBit ∨
      significand (placeOf r t) = leadingBit ∧ lastPlace (placeOf r t) = t + 1 ∧
        r = 2 * leadingBit := by
  obtain ⟨n, rfl⟩ : ∃ n : ℕ, t = n - 1074 := ⟨(t + 1074).toNat, by omega⟩
  unfold placeOf significand lastPlace leadingBit at *
  have hn : ((n : ℤ) - 1074 + 1074).toNat = n := by omega
  rw [hn]
  omega

theorem gridValue_placeOf (ht : -1074 ≤ t) (hr : r ≤ 2 * leadingBit)
    (hfull : -1074 < t → leadingBit ≤ r) : gridValue (placeOf r t) = r * 2 ^ t := by
  unfold gridValue gap
  rcases placeOf_eq ht hr hfull with ⟨hs, hp, -⟩ | ⟨hs, hp, rfl⟩
  · rw [hs, hp]
  · rw [hs, hp, zpow_add_one₀ (by norm_num)]
    push_cast
    ring

theorem even_placeOf : Even (placeOf r t) ↔ Even r := by
  unfold placeOf leadingBit
  rw [Nat.even_iff, Nat.even_iff]
  omega

/-- Rounding to a unit of the right exponent rounds to the grid. -/
theorem nearest_placeOf {y : ℚ} (h : RoundsTo y r) (ht : -1074 ≤ t) (hr : r ≤ 2 * leadingBit)
    (hfull : -1074 < t → leadingBit ≤ r) (hy : -1074 < t → (leadingBit : ℚ) ≤ y) :
    Nearest (y * 2 ^ t) (placeOf r t) := by
  have hpow : (0 : ℚ) < 2 ^ t := by positivity
  have hval := gridValue_placeOf ht hr hfull
  -- the middle above is at least half a unit up, the middle below at least half a unit down
  have hgap : (2 : ℚ) ^ t ≤ gap (placeOf r t) := by
    refine zpow_le_zpow_right₀ (by norm_num) ?_
    rcases placeOf_eq ht hr hfull with ⟨-, hp, -⟩ | ⟨-, hp, -⟩ <;> rw [hp]
    omega
  have hbelow : ∀ j, j + 1 = placeOf r t →
      gap j = 2 ^ t ∨ gridValue j + gridValue (placeOf r t) < 2 * (y * 2 ^ t) := by
    intro j hj
    by_cases hsame : lastPlace j = t
    · exact .inl (by rw [gap, hsame])
    · have hleast : -1074 < t ∧ r = leadingBit := by
        obtain ⟨n, rfl⟩ : ∃ n : ℕ, t = n - 1074 := ⟨(t + 1074).toNat, by omega⟩
        have hn : ((n : ℤ) - 1074 + 1074).toNat = n := by omega
        unfold placeOf lastPlace leadingBit at *
        rw [hn] at hj
        omega
      have hyr := mul_le_mul_of_nonneg_right (hy hleast.1) hpow.le
      have hlt := gridValue_strictMono (show j < placeOf r t by omega)
      rw [hleast.2] at hval
      rw [hleast.2] at hlt ⊢
      right
      linarith
  have hb := mul_le_mul_of_nonneg_right h.below hpow.le
  have ha := mul_le_mul_of_nonneg_right h.above hpow.le
  refine ⟨fun j hj => ?_, ?_, fun j hj heq => ?_, fun heq => ?_⟩
  · rcases hbelow j hj with hj' | hj'
    · have hstep := gridValue_succ j
      rw [hj, hj', hval] at hstep
      rw [hval]
      linarith
    · exact hj'.le
  · rw [gridValue_succ, hval]
    linarith
  · rcases hbelow j hj with hj' | hj'
    · have hstep := gridValue_succ j
      rw [hj, hj', hval] at hstep
      rw [hval] at heq
      refine even_placeOf.2 (h.even_below (mul_right_cancel₀ hpow.ne' ?_))
      linarith
    · exact absurd heq hj'.ne
  · rw [gridValue_succ, hval] at heq
    refine even_placeOf.2 (h.even_above (mul_right_cancel₀ hpow.ne' ?_))
    linarith

end PlaceOf

theorem ofMantissaAndAccuracy_mantissa (m : ℕ) (acc : Accuracy) :
    (ExtendedMantissa.ofMantissaAndAccuracy m acc).mantissa = m := by
  unfold ExtendedMantissa.ofMantissaAndAccuracy
  split <;> rfl

/-- The second shift makes room for a digit that rounding has added. -/
theorem shift_rounded {r : ℕ} {t : ℤ} (ht : -1074 ≤ t) (hr : r ≤ 2 * leadingBit)
    (hfull : -1074 < t → leadingBit ≤ r) :
    (shiftToTargetExponent .binary64 r t .exact).1.mantissa = significand (placeOf r t) ∧
      (shiftToTargetExponent .binary64 r t .exact).2 = lastPlace (placeOf r t) := by
  unfold shiftToTargetExponent shiftToExponent
  rw [targetExponent_eq]
  dsimp only
  rcases placeOf_eq ht hr hfull with ⟨hs, hp, hlt⟩ | ⟨hs, hp, hmore⟩
  · -- no digit was added, so nothing is shifted
    have hlog := log2_le hlt
    have hshift : (max ((r.log2 : ℤ) + t - 52) (-1074) - t).toNat = 0 := by omega
    rw [hshift, hs, hp]
    exact ⟨rfl, by simp⟩
  · have hlog : r.log2 = 53 := by
      rw [hmore]
      decide
    have hshift : (max ((r.log2 : ℤ) + t - 52) (-1074) - t).toNat = 1 := by omega
    rw [hshift, hs, hp, hmore]
    exact ⟨by decide, by simp⟩

/-- A number whose digits are shifted out down to 53 has no more of them. -/
theorem shifted_lt {m n : ℕ} (hx : x < m + 1) (hn : m.log2 ≤ 52 + n) :
    x / 2 ^ n < (2 * leadingBit : ℕ) := by
  have hm : m + 1 ≤ 2 * leadingBit * 2 ^ n := by
    calc m + 1 ≤ 2 ^ (m.log2 + 1) := Nat.lt_log2_self
      _ ≤ 2 ^ (53 + n) := Nat.pow_le_pow_right (by decide) (by omega)
      _ = 2 * leadingBit * 2 ^ n := by rw [pow_add]; rfl
  have hm : (m : ℚ) + 1 ≤ (2 * leadingBit : ℕ) * 2 ^ n := by exact_mod_cast hm
  rw [div_lt_iff₀ (by positivity)]
  exact hx.trans_le hm

/-- If just 53 digits are left, the first of them is not zero. -/
theorem le_shifted {m n : ℕ} (hx : m ≤ x) (hn : m.log2 = 52 + n) : (leadingBit : ℚ) ≤ x / 2 ^ n := by
  have h0 : m ≠ 0 := by
    rintro rfl
    rw [Nat.log2_zero] at hn
    omega
  have hm : leadingBit * 2 ^ n ≤ m := by
    calc leadingBit * 2 ^ n = 2 ^ m.log2 := by rw [hn, pow_add]; rfl
      _ ≤ m := Nat.log2_self_le h0
  have hm : (leadingBit : ℚ) * 2 ^ n ≤ m := by exact_mod_cast hm
  rw [le_div_iff₀ (by positivity)]
  exact hm.trans hx

/-- **Rounding gives the nearest double.** -/
theorem roundWithAccuracy_eq {m : ℕ} {e : ℤ} {acc : Accuracy}
    (hx : Stands (.ofMantissaAndAccuracy m acc) x) (hp : leadingBit ≤ m ∨ e ≤ -1074)
    (sign : Sign) : ∃ i, Nearest (x * 2 ^ e) i ∧
      roundWithAccuracy .binary64 sign m e acc = unpackedAt sign i := by
  obtain ⟨hlow, hhigh⟩ := hx.bounds
  rw [ofMantissaAndAccuracy_mantissa] at hlow hhigh
  -- the first shift brings the number to its target
  obtain ⟨t, ht⟩ : ∃ t, t = max ((m.log2 : ℤ) + e - 52) (-1074) := ⟨_, rfl⟩
  have hlog : leadingBit ≤ m → 52 ≤ m.log2 := fun h =>
    (Nat.le_log2 (by unfold leadingBit at h; omega)).2 h
  have het : e ≤ t := by
    rcases hp with hp | hp
    · have := hlog hp
      omega
    · omega
  obtain ⟨n, hn⟩ : ∃ n, n = (t - e).toNat := ⟨_, rfl⟩
  have hen : e + n = t := by omega
  have hy := hx.shiftRight n
  obtain ⟨r, hrdef⟩ : ∃ r, r = (ExtendedMantissa.ofMantissaAndAccuracy m acc >>> n).roundedMantissa :=
    ⟨_, rfl⟩
  have hround : RoundsTo (x / 2 ^ n) r := hrdef ▸ hy.roundsTo
  have hvalue : x * 2 ^ e = x / 2 ^ n * 2 ^ t := by
    have hpow : (2 : ℚ) ^ n ≠ 0 := by positivity
    rw [← hen, zpow_add₀ (by norm_num), zpow_natCast, mul_comm ((2 : ℚ) ^ e), ← mul_assoc,
      div_mul_cancel₀ _ hpow]
  -- there it has no more digits than fit
  have hless : x / 2 ^ n < (2 * leadingBit : ℕ) := shifted_lt hhigh (by omega)
  have hmore : -1074 < t → (leadingBit : ℚ) ≤ x / 2 ^ n := fun hlt => le_shifted hlow (by omega)
  have hr := hround.le_of_lt hless
  have hfull : -1074 < t → leadingBit ≤ r := fun hlt => hround.ge_of_le (hmore hlt)
  refine ⟨placeOf r t, hvalue ▸ nearest_placeOf hround (by omega) hr hfull hmore, ?_⟩
  obtain ⟨hm, he⟩ := shift_rounded (by omega : -1074 ≤ t) hr hfull
  have hfirst : shiftToTargetExponent .binary64 m e acc =
      (ExtendedMantissa.ofMantissaAndAccuracy m acc >>> n, t) := by
    unfold shiftToTargetExponent shiftToExponent
    rw [targetExponent_eq, ← ht]
    dsimp only
    rw [← hn, hen]
  simp only [roundWithAccuracy, unpackedAt, hfirst, ← hrdef, hm, he]

/-! ### Doubles as their bits -/

/-- The place of infinity, behind the greatest double. -/
def infinitePlace : ℕ := 0x7ff0000000000000

/-- The bit of a sign. -/
def signBit (sign : Sign) : ℕ := sign.toBitVec.toNat

theorem packComponents_toNat (sign : Sign) (exponent : BitVec 11) (mantissa : BitVec 52) :
    (packComponents .binary64 sign exponent mantissa).toNat =
      signBit sign * 0x8000000000000000 + exponent.toNat * leadingBit + mantissa.toNat := by
  have hm : mantissa.toNat < 2 ^ 52 := mantissa.isLt
  have he : exponent.toNat < 2 ^ 11 := exponent.isLt
  unfold packComponents
  show (sign.toBitVec ++ exponent ++ mantissa).toNat = _
  rw [BitVec.toNat_append, BitVec.toNat_append, ← Nat.shiftLeft_add_eq_or_of_lt he,
    ← Nat.shiftLeft_add_eq_or_of_lt hm, Nat.shiftLeft_eq, Nat.shiftLeft_eq]
  unfold signBit leadingBit
  ring

theorem significand_eq_zero {i : ℕ} : significand i = 0 ↔ i = 0 := by
  unfold significand leadingBit
  omega

/-- The exponent field of a double, before it is cut to its width. -/
theorem biased_lastPlace (i : ℕ) : (lastPlace i + (Format.exponentBias .binary64 : ℤ) +
    (Format.binary64.mantissaBitsWithoutImplicit : ℤ)).toNat = max (i / leadingBit) 1 := by
  have hb : Format.exponentBias .binary64 = 1023 := by decide
  have hw : Format.binary64.mantissaBitsWithoutImplicit = 52 := rfl
  rw [hb, hw]
  unfold lastPlace
  omega

/-- Whether a double has all its digits. -/
theorem log2_significand {i : ℕ} (hi : i ≠ 0) :
    (significand i).log2 + 1 = Format.mantissaBits .binary64 ↔ leadingBit ≤ i := by
  have hm : Format.mantissaBits .binary64 = 53 := by decide
  have h0 : significand i ≠ 0 := mt significand_eq_zero.1 hi
  have hless := log2_le (significand_lt i)
  have hle : 52 ≤ (significand i).log2 ↔ leadingBit ≤ significand i := Nat.le_log2 h0
  rw [hm]
  constructor
  · intro h
    have := hle.1 (by omega)
    unfold significand leadingBit at *
    omega
  · intro h
    have := hle.2 (le_significand h)
    omega

/-- **The bits of a double are its sign and its place**, or the place of infinity. -/
theorem pack_toNat (sign : Sign) (i : ℕ) :
    (pack .binary64 (unpackedAt sign i)).toNat =
      signBit sign * 0x8000000000000000 + min i infinitePlace := by
  unfold unpackedAt
  split
  · next h0 =>
    rw [significand_eq_zero.1 h0]
    exact (packComponents_toNat sign 0 0).trans (by simp)
  · next h0 =>
    have hi : i ≠ 0 := mt significand_eq_zero.2 h0
    unfold UnpackedFloat.pack
    dsimp only
    rw [biased_lastPlace]
    split
    · next hover =>
      -- past the greatest double
      have hmin : min i infinitePlace = infinitePlace := by
        unfold infinitePlace leadingBit at *
        omega
      rw [hmin]
      exact (packComponents_toNat sign _ 0).trans (by simp [infinitePlace, leadingBit])
    · next hfits =>
      have hmin : min i infinitePlace = i := by
        unfold infinitePlace leadingBit at *
        omega
      have hlog := log2_significand hi
      rw [hmin]
      split
      · next hfull =>
        have hfull := hlog.1 hfull
        refine (packComponents_toNat sign _ _).trans ?_
        rw [BitVec.toNat_ofNat, BitVec.toNat_ofNat]
        unfold significand leadingBit at *
        omega
      · next hless =>
        have hless := mt hlog.2 hless
        refine (packComponents_toNat sign _ _).trans ?_
        rw [BitVec.toNat_ofNat, BitVec.toNat_ofNat]
        unfold significand leadingBit at *
        omega

end TelemetryRelay.Decimal
