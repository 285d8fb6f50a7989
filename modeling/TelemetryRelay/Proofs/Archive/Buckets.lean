import Mathlib.Algebra.Order.Floor.Div
import TelemetryRelay.Archive.Downsample
import TelemetryRelay.Proofs.Decimal.Error

/-!
# The number of buckets

The size of the buckets is computed with doubles: the quotient of the two counts is rounded before
it is rounded up. Below `2^53` the counts themselves are exact, and rounding does not take their
quotient back to a natural number that it has passed, as it is then at least one part in the divisor
away. More points than that do not fit into any memory.

* `ceiling_floatAt_le_iff`: what rounding up a double comes to.
* `Nearest.le_iff_of_counts`: rounding does not take a quotient of counts past a natural number.
* `bucketSize_eq`: **the size of the buckets is the exact quotient, rounded up.**
* `length_buckets`, `length_downsample_le`: so there are at most as many points as wanted.
-/

namespace TelemetryRelay

namespace Decimal

variable {i k : ℕ}

/-- A double, written with powers of two that have no negative exponents. -/
theorem gridValue_mul (i : ℕ) : gridValue i * 2 ^ (-lastPlace i).toNat =
    significand i * 2 ^ (lastPlace i).toNat := by
  have hexp : lastPlace i + (-lastPlace i).toNat = (lastPlace i).toNat := by omega
  have htwo : (2 : ℚ) ≠ 0 := two_ne_zero
  have hpow : gap i * 2 ^ (-lastPlace i).toNat = 2 ^ (lastPlace i).toNat := by
    rw [gap, ← zpow_natCast, ← zpow_natCast, ← zpow_add₀ htwo, hexp]
  rw [gridValue, mul_assoc, hpow]

theorem ceiling_floatAt (hi : i < infinitePlace) : ceiling (floatAt false i) =
    (significand i * 2 ^ (lastPlace i).toNat) ⌈/⌉ 2 ^ (-lastPlace i).toNat := by
  have hbinary : Binary.ofFloat (floatAt false i) =
      .finite false (significand i) (lastPlace i) := by
    rw [ofFloat_eq (isFinite_floatAt hi), isNegative_floatAt, place_floatAt, min_eq_left hi.le]
  have hdown : 0 < 2 ^ (-lastPlace i).toNat := Nat.two_pow_pos _
  rw [Nat.ceilDiv_eq_add_pred_div, Nat.add_sub_assoc hdown, ceiling, hbinary]
  rfl

/-- **Rounding up a double gives the least natural number that is not below it.** -/
theorem ceiling_floatAt_le_iff (hi : i < infinitePlace) {c : ℕ} :
    ceiling (floatAt false i) ≤ c ↔ gridValue i ≤ c := by
  have hdown : 0 < 2 ^ (-lastPlace i).toNat := Nat.two_pow_pos _
  have hdownq : (0 : ℚ) < 2 ^ (-lastPlace i).toNat := by positivity
  rw [ceiling_floatAt hi, ceilDiv_le_iff_le_mul hdown, ← mul_le_mul_iff_of_pos_right hdownq,
    gridValue_mul, mul_comm _ c]
  exact_mod_cast Iff.rfl

/-- A whole number of at most 53 binary digits becomes itself. -/
theorem ofNat_exact {m : ℕ} (hm : m < 2 * leadingBit) :
    ∃ i, i < infinitePlace ∧ gridValue i = m ∧ Float.ofNat m = floatAt false i := by
  have hfit : m ≤ uint64Max := by unfold leadingBit at hm; unfold uint64Max; omega
  obtain ⟨k, hk, hnear, hfloat⟩ := ofNat_eq hfit
  obtain ⟨i, hi⟩ := exists_gridValue hm
  rw [← hi] at hnear
  obtain rfl := hnear.unique (.self i)
  exact ⟨k, hk, hi, hfloat⟩

/-- **Rounding does not take a quotient of counts past a natural number.** -/
theorem Nearest.le_iff_of_counts {n m c : ℕ} (h : Nearest ((n : ℚ) / m) k) (hm : 0 < m)
    (hn : n < 2 * leadingBit) (hc : 0 < c) (hcn : c ≤ n) : gridValue k ≤ c ↔ n ≤ m * c := by
  have hmq : (0 : ℚ) < m := by exact_mod_cast hm
  obtain ⟨l, hl⟩ := exists_gridValue (lt_of_le_of_lt hcn hn)
  constructor
  · -- a quotient beyond `c` is so by a part in `m`, and this is more than half a gap
    intro hk
    by_contra hcm
    have hpassed : ((m * c : ℕ) : ℚ) + 1 ≤ n := by exact_mod_cast Nat.lt_of_not_le hcm
    have hbelow : ((m * c : ℕ) : ℚ) * roundoff < 1 := by
      have hlt : ((m * c : ℕ) : ℚ) < 9007199254740992 := by
        have : m * c < 9007199254740992 := by unfold leadingBit at hn; omega
        exact_mod_cast this
      unfold roundoff
      linarith
    have hgap : gap l ≤ 2 * (c * roundoff) := by
      have hone : (1 : ℚ) ≤ gridValue l := by rw [hl]; exact_mod_cast hc
      have hnormal := le_significand (leadingBit_lt hone).le
      rw [← hl]
      exact gap_le_of_le (by exact_mod_cast hnormal)
    have hfar : c + c * roundoff < (n : ℚ) / m := by
      rw [lt_div_iff₀ hmq]
      push_cast at hpassed hbelow
      linarith
    have hlk : l < k := h.lt_of_lt (by rw [gridValue_succ, hl]; linarith)
    have := gridValue_strictMono hlk
    rw [hl] at this
    linarith
  · intro hcm
    rw [← hl]
    refine gridValue_strictMono.monotone (h.le_of_le ?_)
    rw [hl, div_le_iff₀ hmq]
    exact_mod_cast (mul_comm m c ▸ hcm)

end Decimal

namespace Downsample

open Decimal

variable {n m k size : ℕ} {points : List Point}

/-- **The size of the buckets is the exact quotient, rounded up.** -/
theorem bucketSize_eq (hm : 0 < m) (hmn : m < n) (hn : n < 2 * leadingBit) :
    bucketSize n m = n ⌈/⌉ m := by
  obtain ⟨i, hi, hni, hnf⟩ := ofNat_exact hn
  obtain ⟨j, hj, hmj, hmf⟩ := ofNat_exact (hmn.trans hn)
  have hj0 : j ≠ 0 := by
    rintro rfl
    rw [gridValue_zero] at hmj
    exact hm.ne (by exact_mod_cast hmj)
  obtain ⟨k, hk, hquotient⟩ := div_floatAt hi hj hj0
  rw [hni, hmj] at hk
  have hmq : (1 : ℚ) ≤ m := by exact_mod_cast hm
  have hkfinite : k < infinitePlace := by
    refine lt_of_le_of_lt (hk.le_of_le ?_) hi
    rw [hni]
    exact div_le_self (Nat.cast_nonneg n) hmq
  have hle : ∀ c, 0 < c → c ≤ n → (bucketSize n m ≤ c ↔ n ⌈/⌉ m ≤ c) := by
    intro c hc hcn
    rw [bucketSize, hnf, hmf, hquotient, ceiling_floatAt_le_iff hkfinite,
      hk.le_iff_of_counts hm hn hc hcn, ceilDiv_le_iff_le_mul hm, mul_comm]
  have htwo : 1 < n ⌈/⌉ m := by
    rw [← not_le, ceilDiv_le_iff_le_mul hm]
    omega
  have hlen : n ⌈/⌉ m ≤ n := by
    rw [ceilDiv_le_iff_le_mul hm]
    exact Nat.le_mul_of_pos_left n hm
  refine le_antisymm ((hle _ (by omega) hlen).2 le_rfl) ?_
  by_contra hless
  have := (hle (n ⌈/⌉ m - 1) (by omega) (by omega)).1 (by omega)
  omega

/-- **The number of buckets** is the quotient by their size, rounded up. -/
theorem length_buckets (hs : 0 < size) (points : List Point) :
    (buckets size points).length = points.length ⌈/⌉ size := by
  fun_induction buckets size points with
  | case1 => simp
  | case2 p rest ih =>
    rw [List.length_cons, ih, List.length_cons, List.length_drop, Nat.ceilDiv_eq_add_pred_div,
      Nat.ceilDiv_eq_add_pred_div]
    have hfirst : rest.length + 1 + size - 1 = rest.length + size := by omega
    rw [hfirst, Nat.add_div_right _ hs]
    congr 1
    by_cases hlast : rest.length < size - 1
    · rw [Nat.div_eq_of_lt (by omega), Nat.div_eq_of_lt (by omega)]
    · congr 1
      omega

theorem lt_ceilDiv_iff (hs : 0 < size) : k < n ⌈/⌉ size ↔ k * size < n := by
  rw [← not_le, ceilDiv_le_iff_le_mul hs, not_le, mul_comm]

/-- Buckets of the right size are not empty. -/
theorem size_pos (hl : 0 < m) (hlong : m < n) : 0 < n ⌈/⌉ m := by
  rw [lt_ceilDiv_iff hl]
  omega

/-- Rounding up twice gives back at most what was wanted. -/
theorem ceilDiv_ceilDiv_le (hl : 0 < m) (hs : 0 < n ⌈/⌉ m) : n ⌈/⌉ (n ⌈/⌉ m) ≤ m := by
  rw [ceilDiv_le_iff_le_mul hs, mul_comm]
  exact le_smul_ceilDiv hl

end Downsample

/-- Points that fit into the memory of one machine: a point takes sixteen bytes, and addresses have
57 bits at most. -/
def FitMemory (points : List Point) : Prop := 16 * points.length < 2 ^ 57

instance (points : List Point) : Decidable (FitMemory points) := Nat.decLt _ _

theorem FitMemory.lt {points : List Point} (h : FitMemory points) :
    points.length < 2 * Decimal.leadingBit := by
  unfold FitMemory at h
  unfold Decimal.leadingBit
  omega

/-- **Downsampling leaves at most as many points as wanted.** -/
theorem length_downsample_le {limit : ℕ} {points : List Point} (hl : limit ≠ 0)
    (hp : FitMemory points) : (downsample limit points).length ≤ limit := by
  have hl : 0 < limit := Nat.pos_of_ne_zero hl
  unfold downsample
  split
  · omega
  · have hlong : limit < points.length := by omega
    have hsize := Downsample.size_pos hl hlong
    rw [Downsample.bucketSize_eq hl hlong hp.lt]
    refine (List.length_filterMap_le _ _).trans ?_
    rw [Downsample.length_buckets hsize]
    exact Downsample.ceilDiv_ceilDiv_le hl hsize

end TelemetryRelay
