import TelemetryRelay.Decimal.Digits
import TelemetryRelay.Proofs.Decimal.Rounding

/-!
# What the shortest decimals stand for

A grid of powers of ten that is finer than the interval around a double meets it, and one of the
grids that are tried is. So the search for the shortest decimal ends with a decimal in the interval,
which is rounded to the double.

* `Interval.gridPoint?_eq_none`: a grid that misses the interval is coarser than its upper half.
* `Interval.coarsest_eq`: the search ends with a point of the interval.
* `Interval.nearest_of_holds`: what lies in the interval is rounded to the double.
* `shortest_names`: **the decimal that is written for a double is rounded to that double**, and its
  digits and its power of ten are those of a double.
-/

namespace TelemetryRelay.Decimal

variable {i m a c tries : ℕ} {q k : ℤ} {v : ℚ}

/-! ### Powers of two and of ten without negative exponents -/

/-- A quarter of the last place, scaled to a whole number. -/
def up (q k : ℤ) : ℕ := Nat.pow 2 (q - 2).toNat * Nat.pow 10 (-k).toNat

/-- A power of ten, scaled alike. -/
def down (q k : ℤ) : ℕ := Nat.pow 2 (2 - q).toNat * Nat.pow 10 k.toNat

theorem down_pos : 0 < down q k := by
  unfold down
  exact Nat.mul_pos (Nat.pow_pos (by decide)) (Nat.pow_pos (by decide))

theorem toNat_scale {b : ℚ} (hb : b ≠ 0) (n : ℤ) : b ^ n * b ^ (-n).toNat = b ^ n.toNat := by
  rw [← zpow_natCast b (-n).toNat, ← zpow_natCast b n.toNat, ← zpow_add₀ hb]
  congr 1
  omega

theorem up_mul : (up q k : ℚ) * 10 ^ k = down q k * 2 ^ (q - 2) := by
  have htwo := toNat_scale (b := 2) (by norm_num) (q - 2)
  have hten := toNat_scale (b := 10) (by norm_num) k
  rw [neg_sub] at htwo
  unfold up down
  simp only [Nat.pow_eq]
  push_cast
  rw [← htwo, ← hten]
  ring

theorem up_scaled (a : ℕ) (q k : ℤ) :
    ((a * up q k : ℕ) : ℚ) * 10 ^ k = down q k * (a * 2 ^ (q - 2)) := by
  rw [Nat.cast_mul, mul_assoc, up_mul, mul_left_comm]

theorem down_scaled (c : ℕ) (q k : ℤ) :
    ((c * down q k : ℕ) : ℚ) * 10 ^ k = down q k * (c * 10 ^ k) := by
  rw [Nat.cast_mul]
  ring

/-- Multiples of the scaled powers are in the order of the multiples of the powers. -/
theorem up_le_iff : a * up q k ≤ c * down q k ↔ (a : ℚ) * 2 ^ (q - 2) ≤ c * 10 ^ k := by
  have hd : (0 : ℚ) < down q k := by exact_mod_cast down_pos
  have hk : (0 : ℚ) < 10 ^ k := by positivity
  rw [← Nat.cast_le (α := ℚ), ← mul_le_mul_iff_left₀ hk, up_scaled, down_scaled,
    mul_le_mul_iff_right₀ hd]

theorem down_le_iff : c * down q k ≤ a * up q k ↔ (c : ℚ) * 10 ^ k ≤ a * 2 ^ (q - 2) := by
  have hd : (0 : ℚ) < down q k := by exact_mod_cast down_pos
  have hk : (0 : ℚ) < 10 ^ k := by positivity
  rw [← Nat.cast_le (α := ℚ), ← mul_le_mul_iff_left₀ hk, up_scaled, down_scaled,
    mul_le_mul_iff_right₀ hd]

theorem up_lt_iff : a * up q k < c * down q k ↔ (a : ℚ) * 2 ^ (q - 2) < c * 10 ^ k := by
  rw [← not_le, down_le_iff, not_le]

theorem down_lt_iff : c * down q k < a * up q k ↔ (c : ℚ) * 10 ^ k < a * 2 ^ (q - 2) := by
  rw [← not_le, up_le_iff, not_le]

/-! ### Intervals -/

namespace Interval

variable {iv : Interval}

/-- A number lies in an interval around a multiple of `2^q`. -/
def Holds (iv : Interval) (q : ℤ) (v : ℚ) : Prop :=
  if iv.closed then iv.low * 2 ^ (q - 2) ≤ v ∧ v ≤ iv.high * 2 ^ (q - 2)
  else iv.low * 2 ^ (q - 2) < v ∧ v < iv.high * 2 ^ (q - 2)

theorem contains_iff : iv.contains (up q k) (down q k) c = true ↔ iv.Holds q (c * 10 ^ k) := by
  unfold contains Holds
  split
  · rw [Bool.and_eq_true, decide_eq_true_iff, decide_eq_true_iff, up_le_iff, down_le_iff]
  · rw [Bool.and_eq_true, decide_eq_true_iff, decide_eq_true_iff, up_lt_iff, down_lt_iff]

theorem Holds.le (h : iv.Holds q v) : iv.low * 2 ^ (q - 2) ≤ v ∧ v ≤ iv.high * 2 ^ (q - 2) := by
  unfold Holds at h
  split at h
  · exact h
  · exact ⟨h.1.le, h.2.le⟩

/-- What lies between the value and the upper end lies in the interval. -/
theorem holds_of_lt (hlow : iv.low * 2 ^ (q - 2) < v) (hhigh : v < iv.high * 2 ^ (q - 2)) :
    iv.Holds q v := by
  unfold Holds
  split
  · exact ⟨hlow.le, hhigh.le⟩
  · exact ⟨hlow, hhigh⟩

/-- A point that is found lies in the interval. -/
theorem gridPoint?_holds (h : iv.gridPoint? q k = some c) : iv.Holds q (c * 10 ^ k) := by
  rw [← contains_iff]
  unfold gridPoint? at h
  dsimp only at h
  split at h
  · next hbelow habove =>
    cases h
    split
    · exact hbelow
    · exact habove
  · next hbelow _ =>
    cases h
    exact hbelow
  · next _ habove =>
    cases h
    exact habove
  · cases h

/-- **A grid that misses the interval is coarser than its upper half.** -/
theorem gridPoint?_eq_none (h : iv.gridPoint? q k = none) (hlow : iv.low ≤ iv.value) :
    iv.high * 2 ^ (q - 2) ≤ iv.value * 2 ^ (q - 2) + (10 : ℚ) ^ k := by
  have hmiss : ¬ iv.Holds q ((iv.value * up q k / down q k + 1 : ℕ) * 10 ^ k) := by
    rw [← contains_iff]
    unfold gridPoint? at h
    dsimp only at h
    split at h
    · cases h
    · cases h
    · cases h
    · next _ habove => exact Bool.eq_false_iff.1 habove
  -- the value lies between two points of the grid
  have hbelow : ((iv.value * up q k / down q k : ℕ) : ℚ) * 10 ^ k ≤ iv.value * 2 ^ (q - 2) :=
    down_le_iff.1 (Nat.div_mul_le_self _ _)
  have habove : (iv.value : ℚ) * 2 ^ (q - 2) < (iv.value * up q k / down q k + 1 : ℕ) * 10 ^ k :=
    up_lt_iff.1 ((Nat.lt_mul_div_succ _ down_pos).trans_eq (mul_comm _ _))
  by_contra hless
  refine hmiss (holds_of_lt (lt_of_le_of_lt ?_ habove) ?_)
  · gcongr
  · rw [Nat.cast_succ, add_mul, one_mul]
    linarith

/-- **The search ends with a point of the interval**, if the last grid is finer than its upper half.
Unless the point is on the first grid, the next coarser one is no finer than that. -/
theorem coarsest_eq (hlow : iv.low ≤ iv.value) (hhigh : iv.high = iv.value + 2)
    (hlast : (10 : ℚ) ^ (k - tries) < 2 ^ (q - 1)) :
    ∃ c k', iv.coarsest q (tries + 1) k = ⟨c, k'⟩ ∧ iv.Holds q (c * 10 ^ k') ∧ k' ≤ k ∧
      (k' = k ∨ (2 : ℚ) ^ (q - 1) ≤ 10 ^ (k' + 1)) := by
  have hmiss : ∀ {k : ℤ}, iv.gridPoint? q k = none → (2 : ℚ) ^ (q - 1) ≤ 10 ^ k := by
    intro k h
    have hcoarse := gridPoint?_eq_none h hlow
    rw [hhigh] at hcoarse
    push_cast at hcoarse
    rw [show q - 1 = q - 2 + 1 by ring, zpow_add_one₀ (by norm_num)]
    linarith
  induction tries generalizing k with
  | zero =>
    cases hpoint : iv.gridPoint? q k with
    | none =>
      rw [Nat.cast_zero, sub_zero] at hlast
      exact absurd (hmiss hpoint) (not_le.2 hlast)
    | some c =>
      refine ⟨c, k, ?_, gridPoint?_holds hpoint, le_refl k, .inl rfl⟩
      rw [coarsest, hpoint]
  | succ tries ih =>
    cases hpoint : iv.gridPoint? q k with
    | none =>
      rw [show k - (tries + 1 : ℕ) = k - 1 - tries by push_cast; ring] at hlast
      obtain ⟨c, k', heq, hholds, hle, hcoarse⟩ := ih hlast
      refine ⟨c, k', by rw [coarsest, hpoint]; exact heq, hholds, by omega, .inr ?_⟩
      rcases hcoarse with rfl | hcoarse
      · rw [sub_add_cancel]
        exact hmiss hpoint
      · exact hcoarse
    | some c =>
      refine ⟨c, k, ?_, gridPoint?_holds hpoint, le_refl k, .inl rfl⟩
      rw [coarsest, hpoint]

theorem quarter (i : ℕ) : gap i = 4 * 2 ^ (lastPlace i - 2) := by
  rw [gap, zpow_sub₀ (by norm_num)]
  norm_num
  ring

/-- The lower end of the interval is the middle to the double below. -/
theorem middle_low {j : ℕ} (hj : j + 1 = i) : gridValue j + gridValue i =
    2 * ((around (significand i) (lastPlace i)).low * 2 ^ (lastPlace i - 2)) := by
  have hpos : 1 ≤ significand i := by
    unfold significand leadingBit
    omega
  have hstep := gridValue_succ j
  have hval : gridValue i = significand i * gap i := rfl
  rw [hj] at hstep
  rw [quarter] at hval
  unfold around
  dsimp only
  split
  · next hpower =>
    -- below a power of two
    have hgap : lastPlace i = lastPlace j + 1 := by
      unfold significand lastPlace leadingBit at *
      omega
    have hq : gap j = 2 * 2 ^ (lastPlace i - 2) := by
      rw [quarter, hgap, show lastPlace j + 1 - 2 = lastPlace j - 2 + 1 by ring,
        zpow_add_one₀ (by norm_num)]
      ring
    rw [Nat.cast_sub (by omega)]
    push_cast
    linarith
  · next hother =>
    have hgap : lastPlace i = lastPlace j := by
      unfold significand lastPlace leadingBit at *
      omega
    have hq : gap j = 4 * 2 ^ (lastPlace i - 2) := by rw [quarter, hgap]
    rw [Nat.cast_sub (by omega)]
    push_cast
    linarith

/-- The upper end of the interval is the middle to the double above. -/
theorem middle_high (i : ℕ) : gridValue i + gridValue (i + 1) =
    2 * ((around (significand i) (lastPlace i)).high * 2 ^ (lastPlace i - 2)) := by
  have hval : gridValue i = significand i * gap i := rfl
  rw [gridValue_succ, hval, quarter]
  unfold around
  push_cast
  ring

/-- **What lies in the interval around a double is rounded to the double.** -/
theorem nearest_of_holds
    (h : (around (significand i) (lastPlace i)).Holds (lastPlace i) v) : Nearest v i := by
  have heven : (around (significand i) (lastPlace i)).closed = true → Even i := by
    unfold around
    rw [beq_iff_eq, Nat.even_iff]
    unfold significand leadingBit
    omega
  have hends := h.le
  refine ⟨fun j hj => ?_, ?_, fun j hj heq => ?_, fun heq => ?_⟩
  · rw [middle_low hj]
    linarith
  · rw [middle_high]
    linarith
  · rw [middle_low hj] at heq
    unfold Holds at h
    split at h
    · next hclosed => exact heven hclosed
    · linarith
  · rw [middle_high] at heq
    unfold Holds at h
    split at h
    · next hclosed => exact heven hclosed
    · linarith

end Interval

/-! ### The search -/

/-- The first grid is a little coarser than the double, by no more than eight powers of two. -/
theorem ceiling_checked : ∀ n : Fin 2098,
    1 * up ((n.val : ℤ) - 1080) (((n.val : ℤ) - 1072) * 30103 / 100000 + 1) ≤
        1 * down ((n.val : ℤ) - 1080) (((n.val : ℤ) - 1072) * 30103 / 100000 + 1) ∧
      1 * down ((n.val : ℤ) - 1064) (((n.val : ℤ) - 1072) * 30103 / 100000 + 1) ≤
        1 * up ((n.val : ℤ) - 1064) (((n.val : ℤ) - 1072) * 30103 / 100000 + 1) := by
  decide +kernel

theorem ceiling_bounds {n : ℤ} (hlow : -1074 ≤ n) (hhigh : n ≤ 1023) :
    (2 : ℚ) ^ (n - 8) ≤ 10 ^ ((n + 2) * 30103 / 100000 + 1) ∧
      (10 : ℚ) ^ ((n + 2) * 30103 / 100000 + 1) ≤ 2 ^ (n + 8) := by
  obtain ⟨m, rfl⟩ : ∃ m : ℕ, n = m - 1074 := ⟨(n + 1074).toNat, by omega⟩
  obtain ⟨hbelow, habove⟩ := ceiling_checked ⟨m, by omega⟩
  rw [up_le_iff] at hbelow
  rw [down_le_iff] at habove
  simp only [Nat.cast_one, one_mul] at hbelow habove
  rw [show (m : ℤ) - 1074 - 8 = m - 1080 - 2 by ring, show (m : ℤ) - 1074 + 2 = m - 1072 by ring,
    show (m : ℤ) - 1074 + 8 = m - 1064 - 2 by ring]
  exact ⟨hbelow, habove⟩

/-- The powers of ten around the range of doubles. -/
theorem powers_around : (2 : ℚ) ^ (1024 : ℤ) < 10 ^ (309 : ℤ) ∧ (10 : ℚ) ^ (-324 : ℤ) < 2 ^ (-1075 : ℤ) := by
  have habove : 1 * up 1026 309 < 1 * down 1026 309 := by decide +kernel
  have hbelow : 1 * down (-1073) (-324) < 1 * up (-1073) (-324) := by decide +kernel
  rw [up_lt_iff] at habove
  rw [down_lt_iff] at hbelow
  simp only [Nat.cast_one, one_mul] at habove hbelow
  exact ⟨habove, hbelow⟩

/-- The search for the decimal of `m · 2^q` ends in the interval. -/
theorem exists_point (hm : m ≠ 0) (hlog : m.log2 ≤ 52) (hlow : -1074 ≤ q)
    (hhigh : m.log2 + q ≤ 1023) : ∃ c k, shortest m q = ⟨c, k⟩ ∧
      (Interval.around m q).Holds q (c * 10 ^ k) ∧
        (k = Interval.ceiling m q ∨ (2 : ℚ) ^ (q - 1) ≤ 10 ^ (k + 1)) := by
  have habove : (10 : ℚ) ^ Interval.ceiling m q ≤ 2 ^ ((m.log2 : ℤ) + q + 8) :=
    (ceiling_bounds (by omega) hhigh).2
  have hlow : (Interval.around m q).low ≤ (Interval.around m q).value := by
    unfold Interval.around
    dsimp only
    split <;> omega
  have hlast : (10 : ℚ) ^ (Interval.ceiling m q - (24 : ℕ)) < 2 ^ (q - 1) := by
    rw [zpow_sub₀ (by norm_num), zpow_natCast, div_lt_iff₀ (by positivity)]
    calc (10 : ℚ) ^ Interval.ceiling m q ≤ 2 ^ ((m.log2 : ℤ) + q + 8) := habove
      _ ≤ 2 ^ (q - 1 + 61) := zpow_le_zpow_right₀ (by norm_num) (by omega)
      _ = 2 ^ (q - 1) * 2 ^ 61 := zpow_add₀ (by norm_num) _ _
      _ < 2 ^ (q - 1) * 10 ^ 24 := by gcongr; norm_num
  obtain ⟨c, k, hsearch, hholds, -, hcoarse⟩ := Interval.coarsest_eq hlow rfl hlast
  refine ⟨c, k, ?_, hholds, hcoarse⟩
  rw [shortest, if_neg hm]
  exact hsearch

/-- A point of the interval is above zero and no more than the next power of two. -/
theorem point_bounds (hm : m ≠ 0) (h : (Interval.around m q).Holds q (c * 10 ^ k)) :
    0 < c ∧ (c : ℚ) * 10 ^ k ≤ 2 ^ ((m.log2 : ℤ) + 1 + q) := by
  obtain ⟨hbelow, habove⟩ := h.le
  constructor
  · have hlow : 0 < (Interval.around m q).low := by
      unfold Interval.around
      dsimp only
      split <;> omega
    have hlow : (0 : ℚ) < (Interval.around m q).low := by exact_mod_cast hlow
    have hprod : (0 : ℚ) < c * 10 ^ k := lt_of_lt_of_le (by positivity) hbelow
    exact_mod_cast pos_of_mul_pos_left hprod (by positivity)
  · have hnext : (m : ℚ) + 1 ≤ 2 ^ ((m.log2 : ℤ) + 1) := by
      exact_mod_cast Nat.lt_log2_self (n := m)
    calc (c : ℚ) * 10 ^ k ≤ (4 * m + 2 : ℕ) * 2 ^ (q - 2) := habove
      _ ≤ 4 * (m + 1) * 2 ^ (q - 2) := by gcongr; push_cast; linarith
      _ = (m + 1) * 2 ^ q := by rw [zpow_sub₀ (by norm_num)]; ring
      _ ≤ 2 ^ ((m.log2 : ℤ) + 1) * 2 ^ q := by gcongr
      _ = 2 ^ ((m.log2 : ℤ) + 1 + q) := (zpow_add₀ (by norm_num) _ _).symm

/-- The digits are those of the quotient by a grid that is not much finer than the interval. -/
theorem digits_bound (hlog : m.log2 ≤ 52) (hlow : -1074 ≤ q) (hhigh : m.log2 + q ≤ 1023)
    (h : (c : ℚ) * 10 ^ k ≤ 2 ^ ((m.log2 : ℤ) + 1 + q))
    (hcoarse : k = Interval.ceiling m q ∨ (2 : ℚ) ^ (q - 1) ≤ 10 ^ (k + 1)) :
    c ≤ 40 * leadingBit := by
  have hten : (0 : ℚ) < 10 ^ k := by positivity
  have hdigits : (c : ℚ) ≤ 40 * leadingBit := by
    refine le_of_mul_le_mul_right (h.trans ?_) hten
    rcases hcoarse with rfl | hcoarse
    · have hbelow : (2 : ℚ) ^ ((m.log2 : ℤ) + q - 8) ≤ 10 ^ Interval.ceiling m q :=
        (ceiling_bounds (by omega) hhigh).1
      calc (2 : ℚ) ^ ((m.log2 : ℤ) + 1 + q) = 2 ^ (9 + ((m.log2 : ℤ) + q - 8)) := by
            congr 1
            ring
        _ = 2 ^ 9 * 2 ^ ((m.log2 : ℤ) + q - 8) := zpow_add₀ (by norm_num) _ _
        _ ≤ 2 ^ 9 * 10 ^ Interval.ceiling m q := mul_le_mul_of_nonneg_left hbelow (by norm_num)
        _ ≤ 40 * leadingBit * 10 ^ Interval.ceiling m q :=
          mul_le_mul_of_nonneg_right (by norm_num [leadingBit]) hten.le
    · calc (2 : ℚ) ^ ((m.log2 : ℤ) + 1 + q) ≤ 2 ^ (54 + (q - 1)) :=
            zpow_le_zpow_right₀ (by norm_num) (by omega)
        _ = 2 ^ 54 * 2 ^ (q - 1) := zpow_add₀ (by norm_num) _ _
        _ ≤ 2 ^ 54 * 10 ^ (k + 1) := mul_le_mul_of_nonneg_left hcoarse (by norm_num)
        _ = 40 * leadingBit * 10 ^ k := by
          rw [zpow_add_one₀ (by norm_num)]
          norm_num [leadingBit]
          ring
  exact_mod_cast hdigits

/-- The power of ten is in the reach of doubles. -/
theorem exponent_bounds (hlow : -1074 ≤ q) (hhigh : m.log2 + q ≤ 1023) (hc : 0 < c)
    (h : (c : ℚ) * 10 ^ k ≤ 2 ^ ((m.log2 : ℤ) + 1 + q))
    (hcoarse : k = Interval.ceiling m q ∨ (2 : ℚ) ^ (q - 1) ≤ 10 ^ (k + 1)) :
    -324 ≤ k ∧ k ≤ 308 := by
  have hten : (0 : ℚ) < 10 ^ k := by positivity
  have hone : (1 : ℚ) ≤ c := by exact_mod_cast hc
  constructor
  · rcases hcoarse with rfl | hcoarse
    · unfold Interval.ceiling
      omega
    · have hless : (10 : ℚ) ^ (-324 : ℤ) < 10 ^ (k + 1) := by
        calc (10 : ℚ) ^ (-324 : ℤ) < 2 ^ (-1075 : ℤ) := powers_around.2
          _ ≤ 2 ^ (q - 1) := zpow_le_zpow_right₀ (by norm_num) (by omega)
          _ ≤ 10 ^ (k + 1) := hcoarse
      have := (zpow_lt_zpow_iff_right₀ (by norm_num)).1 hless
      omega
  · have hless : (10 : ℚ) ^ k < 10 ^ (309 : ℤ) := by
      calc (10 : ℚ) ^ k ≤ c * 10 ^ k := le_mul_of_one_le_left hten.le hone
        _ ≤ 2 ^ ((m.log2 : ℤ) + 1 + q) := h
        _ ≤ 2 ^ (1024 : ℤ) := zpow_le_zpow_right₀ (by norm_num) (by omega)
        _ < 10 ^ (309 : ℤ) := powers_around.1
    have := (zpow_lt_zpow_iff_right₀ (by norm_num)).1 hless
    omega

/-- A decimal that is rounded to a double and has no more digits than fit. -/
structure Numeral.Names (n : Numeral) (i : ℕ) : Prop where
  nearest : Nearest (n.coefficient * 10 ^ n.exponent) i
  pos : 0 < n.coefficient
  digits : n.coefficient ≤ 40 * leadingBit
  low : -324 ≤ n.exponent
  high : n.exponent ≤ 308

/-- **The decimal that is written for a double is rounded to it**, and has no more digits than fit. -/
theorem shortest_names (hi : i ≠ 0) (hfinite : i < infinitePlace) :
    (shortest (significand i) (lastPlace i)).Names i := by
  have hm : significand i ≠ 0 := mt significand_eq_zero.1 hi
  have hlog := log2_le (significand_lt i)
  have hrange : -1074 ≤ lastPlace i ∧ (significand i).log2 + lastPlace i ≤ 1023 := by
    unfold lastPlace infinitePlace leadingBit at *
    omega
  obtain ⟨c, k, hshort, hholds, hcoarse⟩ := exists_point hm hlog hrange.1 hrange.2
  obtain ⟨hpos, hnext⟩ := point_bounds hm hholds
  obtain ⟨hlow, hhigh⟩ := exponent_bounds hrange.1 hrange.2 hpos hnext hcoarse
  rw [hshort]
  exact ⟨Interval.nearest_of_holds hholds, hpos,
    digits_bound hlog hrange.1 hrange.2 hnext hcoarse, hlow, hhigh⟩

end TelemetryRelay.Decimal
