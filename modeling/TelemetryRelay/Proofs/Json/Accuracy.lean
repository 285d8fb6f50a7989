import TelemetryRelay.Proofs.Decimal.Error
import TelemetryRelay.Proofs.Json.Evaluation

/-!
# How accurately numerals are read

A numeral that is no whole number of 64 bits is read in two roundings, or three: its digits become a
double, and the double is multiplied or divided by a power of ten. If the numeral was written for
some double, the result is near that double.

* `scaled_near`: **the result is at most two doubles away**.
* `scaled_exact`: few digits and a small power of ten are read exactly.
-/

namespace TelemetryRelay.Json

open Decimal

variable {i j n s : ℕ} {e : ℤ}

/-- The double of a small power of ten is that power. -/
theorem gridValue_tenTo (hn : n ≤ 22) (h : Nearest (10 ^ n) j) : gridValue j = 10 ^ n := by
  have hsize : n < Float.exactlyRepresentablePowersOfTen.size := by
    show n < 23
    omega
  obtain ⟨k, -, hk, -⟩ := table_eq hsize
  have hself := Nearest.self k
  rw [hk] at hself
  rw [h.unique hself, hk]

/-- The double of a whole number with few digits is that number. -/
theorem gridValue_ofNat (hs : s < 2 * leadingBit) (h : Nearest s j) : gridValue j = s := by
  obtain ⟨k, hk⟩ := exists_gridValue hs
  have hself := Nearest.self k
  rw [hk] at hself
  rw [h.unique hself, hk]

theorem zpow_up (he : 0 ≤ e) : (10 : ℚ) ^ e = 10 ^ e.natAbs := by
  rw [← zpow_natCast, Int.natAbs_of_nonneg he]

theorem mul_zpow_down (he : e ≤ 0) (x : ℚ) : x * 10 ^ e = x / 10 ^ e.natAbs := by
  rw [div_eq_mul_inv, ← zpow_natCast, ← zpow_neg]
  congr 2
  omega

/-- **Few digits and a small power of ten are read exactly.** -/
theorem scaled_exact (hs : s < 2 * leadingBit) (he : e.natAbs ≤ 22) (hi : i < infinitePlace)
    (hd : Nearest (s * 10 ^ e) i) : scaled (Float.ofNat s) e = some (floatAt false i) := by
  obtain ⟨a, ha, hsa, hnat⟩ := ofNat_eq (show s ≤ uint64Max by
    unfold leadingBit at hs
    unfold uint64Max
    omega)
  have hgs := gridValue_ofNat hs hsa
  rw [hnat]
  by_cases hpos : 0 ≤ e
  · obtain ⟨b, k, hten, hk, hprod⟩ := mul_tenTo ha (show e.natAbs ≤ 308 by omega)
    rw [hgs, gridValue_tenTo he hten, ← zpow_up hpos] at hk
    rw [scaled_up hpos (by omega), hprod, hk.unique hd, isInfinite_floatAt,
      decide_eq_false (not_le.2 hi), if_neg Bool.false_ne_true]
  · obtain ⟨b, k, hten, hk, -, hquot⟩ := div_tenTo ha (show e.natAbs ≤ 308 by omega)
    rw [hgs, gridValue_tenTo he hten, ← mul_zpow_down (by omega)] at hk
    rw [scaled_down (by omega) (by omega), hquot, hk.unique hd]

section Near

variable {a : ℕ} (ha : a < infinitePlace) (hs : 1 ≤ s) (hsa : Nearest s a)

include ha hs hsa

theorem scaled_near_up (he : 0 ≤ e) (he' : e ≤ 308) (hi : i + 2 < infinitePlace)
    (hd : Nearest (s * 10 ^ e) i) :
    ∃ j, j < infinitePlace ∧ scaled (floatAt false a) e = some (floatAt false j) ∧ Near i j := by
  obtain ⟨b, k, hten, hk, hprod⟩ := mul_tenTo ha (show e.natAbs ≤ 308 by omega)
  have hone : (1 : ℚ) ≤ s := by exact_mod_cast hs
  have hpow : (1 : ℚ) ≤ 10 ^ e.natAbs := one_le_pow₀ (by norm_num)
  rw [zpow_up he] at hd
  have hnear := hd.near hk (.mul hsa hten (hsa.normal hone) (hten.normal hpow) (by positivity)
    (by positivity))
  have hfinite : k < infinitePlace := lt_of_le_of_lt hnear.1 hi
  refine ⟨k, hfinite, ?_, hnear⟩
  rw [scaled_up he he', hprod, isInfinite_floatAt, decide_eq_false (not_le.2 hfinite),
    if_neg Bool.false_ne_true]

theorem scaled_near_down (he : e < 0) (he' : -308 ≤ e) (hd : Nearest (s * 10 ^ e) i) :
    ∃ j, j < infinitePlace ∧ scaled (floatAt false a) e = some (floatAt false j) ∧ Near i j := by
  obtain ⟨b, k, hten, hk, hfinite, hquot⟩ := div_tenTo ha (show e.natAbs ≤ 308 by omega)
  have hone : (1 : ℚ) ≤ s := by exact_mod_cast hs
  have hpow : (1 : ℚ) ≤ 10 ^ e.natAbs := one_le_pow₀ (by norm_num)
  rw [mul_zpow_down he.le] at hd
  refine ⟨k, hfinite, by rw [scaled_down he he', hquot], hd.near hk ?_⟩
  exact .div hsa hten (hsa.normal hone) (hten.normal hpow) (by positivity) (by positivity)

theorem scaled_near_far (he : e < -308) (he' : -330 ≤ e) (hd : Nearest (s * 10 ^ e) i) :
    ∃ j, j < infinitePlace ∧ scaled (floatAt false a) e = some (floatAt false j) ∧ Near i j := by
  have hone : (1 : ℚ) ≤ s := by exact_mod_cast hs
  have hnormal := hsa.normal hone
  obtain ⟨b, c, hten, hc, hcfinite, hquot⟩ := div_tenTo ha (le_refl 308)
  obtain ⟨b', k, hten', hk, hfinite, hquot'⟩ :=
    div_tenTo hcfinite (show (e + 308).natAbs ≤ 308 by omega)
  have hf0 := beq_zero_floatAt ha (show a ≠ 0 by omega)
  refine ⟨k, hfinite, by rw [scaled_far he hf0, hquot, scaled_down (by omega) (by omega), hquot'], ?_⟩
  -- the second power is exact
  have hp2 : (2 : ℚ) ≤ 10 ^ (e + 308).natAbs :=
    le_trans (by norm_num) (le_self_pow₀ (show (1 : ℚ) ≤ 10 by norm_num)
      (show (e + 308).natAbs ≠ 0 by omega))
  rw [gridValue_tenTo (by omega) hten'] at hk
  have hfirst : (s : ℚ) * 10 ^ (-308 : ℤ) = s / 10 ^ 308 := mul_zpow_down (by norm_num) _
  have hsplit : (s : ℚ) * 10 ^ e = s / 10 ^ 308 / 10 ^ (e + 308).natAbs := by
    rw [← mul_zpow_down (show e + 308 ≤ 0 by omega), ← hfirst, mul_assoc,
      ← zpow_add₀ (by norm_num), neg_add_cancel_comm_assoc]
  rw [hsplit] at hd
  by_cases h3 : 3 ≤ s
  · exact near_far hsa hten hc hk hd (by exact_mod_cast h3) (by linarith)
  · exact near_shifted hsa hten hc hk hd hone (by exact_mod_cast (show s ≤ 2 by omega)) hp2

end Near

/-- **What was written for a double is read as a double near it.** -/
theorem scaled_near (hs : 1 ≤ s) (hs' : s ≤ uint64Max) (he : -330 ≤ e) (he' : e ≤ 308)
    (hi : i + 2 < infinitePlace) (hd : Nearest (s * 10 ^ e) i) :
    ∃ j, j < infinitePlace ∧ scaled (Float.ofNat s) e = some (floatAt false j) ∧
      Near i j := by
  obtain ⟨a, ha, hsa, hnat⟩ := ofNat_eq hs'
  rw [hnat]
  by_cases hfar : e < -308
  · exact scaled_near_far ha hs hsa hfar he hd
  · by_cases hpos : 0 ≤ e
    · exact scaled_near_up ha hs hsa hpos he' hi hd
    · exact scaled_near_down ha hs hsa (by omega) (by omega) hd

end TelemetryRelay.Json
