import Mathlib.Algebra.Order.Field.Power
import Mathlib.Data.Rat.Cast.Order
import Mathlib.Tactic.Linarith
import Mathlib.Tactic.LinearCombination
import Mathlib.Tactic.NormNum
import Mathlib.Tactic.Positivity
import Mathlib.Tactic.Ring
import TelemetryRelay.Decimal.Shortest

/-!
# The grid of doubles

The doubles from zero upwards are numbered by their bits: the `i`-th is `gridValue i`, and the next
one is `gap i` further on. The numbering goes on beyond the greatest double, in whose place the bits
stand for infinity, so that rounding can be described without regard to overflow.

* `gridValue_succ`, `gap_mono`: the grid gets coarser, by a factor of two every `2^52` places.
* `Nearest`: a number is rounded to a place if it lies between the middles around it, and at a
  middle if the place is even; `Nearest.unique`.
* `Nearest.le_of_lt`, `Nearest.lt_of_lt`: bounds on a number bound the place it is rounded to.
* `Nearest.relative`: rounding changes a number of the normal range by one part in `2^53` at most.
* `Nearest.near`: **a decimal that reads as a double, with the error of two roundings, is rounded to
  a place at most two from that double**.
-/

namespace TelemetryRelay.Decimal

/-- The exponent of two of the last digit of the `i`-th double. -/
def lastPlace (i : ℕ) : ℤ := (max (i / leadingBit) 1 : ℕ) - 1075

/-- The significand of the `i`-th double, a multiple of its last digit. -/
def significand (i : ℕ) : ℕ := i - (max (i / leadingBit) 1 - 1) * leadingBit

/-- The distance to the next double. -/
def gap (i : ℕ) : ℚ := 2 ^ lastPlace i

/-- The value of the `i`-th double from zero upwards. -/
def gridValue (i : ℕ) : ℚ := significand i * gap i

theorem gap_pos (i : ℕ) : 0 < gap i := by
  unfold gap
  positivity

theorem significand_lt (i : ℕ) : significand i < 2 * leadingBit := by
  unfold significand leadingBit
  omega

/-- A double of the normal range has all its digits. -/
theorem le_significand {i : ℕ} (h : leadingBit ≤ i) : leadingBit ≤ significand i := by
  unfold significand leadingBit at *
  omega

theorem lastPlace_mono {i j : ℕ} (h : i ≤ j) : lastPlace i ≤ lastPlace j := by
  unfold lastPlace leadingBit
  omega

theorem gap_mono {i j : ℕ} (h : i ≤ j) : gap i ≤ gap j :=
  zpow_le_zpow_right₀ (by norm_num) (lastPlace_mono h)

/-- Over few places the grid gets coarser by a factor of two at most. -/
theorem gap_le_double {i j : ℕ} (h : j ≤ i + leadingBit) : gap j ≤ 2 * gap i := by
  have hexp : lastPlace j ≤ lastPlace i + 1 := by
    unfold lastPlace leadingBit at *
    omega
  calc gap j ≤ 2 ^ (lastPlace i + 1) := zpow_le_zpow_right₀ (by norm_num) hexp
    _ = 2 * gap i := by rw [zpow_add_one₀ (by norm_num), gap, mul_comm]

/-- **The next double is a gap further on.** -/
theorem gridValue_succ (i : ℕ) : gridValue (i + 1) = gridValue i + gap i := by
  have hcases : significand (i + 1) = significand i + 1 ∧ lastPlace (i + 1) = lastPlace i ∨
      significand i + 1 = 2 * significand (i + 1) ∧ lastPlace (i + 1) = lastPlace i + 1 := by
    unfold significand lastPlace leadingBit
    omega
  unfold gridValue gap
  rcases hcases with ⟨hs, hp⟩ | ⟨hs, hp⟩
  · rw [hs, hp]
    push_cast
    ring
  · -- the last place before a power of two: the same number has half the digits after it
    have hs : (significand i : ℚ) + 1 = 2 * significand (i + 1) := by exact_mod_cast hs
    rw [hp, zpow_add_one₀ (by norm_num)]
    linear_combination (-((2 : ℚ) ^ lastPlace i)) * hs

theorem gridValue_zero : gridValue 0 = 0 := by
  simp [gridValue, significand]

theorem gridValue_strictMono : StrictMono gridValue :=
  strictMono_nat_of_lt_succ fun i => by
    rw [gridValue_succ]
    linarith [gap_pos i]

theorem gridValue_nonneg (i : ℕ) : 0 ≤ gridValue i := by
  rw [← gridValue_zero]
  exact gridValue_strictMono.monotone (Nat.zero_le i)

/-- Going up some places adds at least as many gaps. -/
theorem gridValue_add (i n : ℕ) : gridValue i + n * gap i ≤ gridValue (i + n) := by
  induction n with
  | zero => simp
  | succ n ih =>
    rw [← Nat.add_assoc, gridValue_succ]
    push_cast
    linarith [gap_mono (Nat.le_add_right i n)]

/-! ### Rounding to the grid -/

/-- **A number is rounded to a place**: it lies between the middles to the neighbouring doubles, and
on a middle only if the place is even. -/
structure Nearest (v : ℚ) (i : ℕ) : Prop where
  below : ∀ j, j + 1 = i → gridValue j + gridValue i ≤ 2 * v
  above : 2 * v ≤ gridValue i + gridValue (i + 1)
  even_below : ∀ j, j + 1 = i → gridValue j + gridValue i = 2 * v → Even i
  even_above : 2 * v = gridValue i + gridValue (i + 1) → Even i

namespace Nearest

variable {v : ℚ} {i j : ℕ}

/-- A number below a middle is rounded to a place below it. -/
theorem le_of_lt (h : Nearest v i) (hv : 2 * v < gridValue j + gridValue (j + 1)) : i ≤ j := by
  by_contra hij
  obtain ⟨k, rfl⟩ : ∃ k, i = k + 1 := ⟨i - 1, by omega⟩
  have hk : j ≤ k := by omega
  have hbelow := h.below k rfl
  have h1 := gridValue_strictMono.monotone hk
  have h2 := gridValue_strictMono.monotone (Nat.succ_le_succ hk)
  linarith

/-- A number above a middle is rounded to a place above it. -/
theorem lt_of_lt (h : Nearest v i) (hv : gridValue j + gridValue (j + 1) < 2 * v) : j < i := by
  by_contra hij
  have hij : i ≤ j := by omega
  have habove := h.above
  have h1 := gridValue_strictMono.monotone hij
  have h2 := gridValue_strictMono.monotone (Nat.succ_le_succ hij)
  linarith

/-- Doubles are rounded to themselves. -/
theorem self (i : ℕ) : Nearest (gridValue i) i where
  below j hj := by
    subst hj
    linarith [gridValue_strictMono (Nat.lt_succ_self j)]
  above := by linarith [gridValue_strictMono (Nat.lt_succ_self i)]
  even_below j hj h := by
    subst hj
    linarith [gridValue_strictMono (Nat.lt_succ_self j)]
  even_above h := by linarith [gridValue_strictMono (Nat.lt_succ_self i)]

/-- **A number is rounded to one place only.** -/
theorem unique (h : Nearest v i) (h' : Nearest v j) : i = j := by
  have hle : ∀ {i j : ℕ}, Nearest v i → Nearest v j → i ≤ j := by
    intro i j h h'
    by_contra hij
    -- the number is on the middle between the two places, which are both even
    obtain ⟨k, rfl⟩ : ∃ k, i = k + 1 := ⟨i - 1, by omega⟩
    have hbelow := h.below k rfl
    have habove := h'.above
    have hjk : j ≤ k := by omega
    have h1 := gridValue_strictMono.monotone hjk
    have h2 := gridValue_strictMono.monotone (Nat.succ_le_succ hjk)
    have heven := h.even_below k rfl (by linarith)
    have heven' := h'.even_above (by linarith)
    have hk : j = k := by
      by_contra hne
      have := gridValue_strictMono (lt_of_le_of_ne hjk hne)
      linarith
    subst hk
    exact absurd heven' (Nat.even_add_one.1 heven)
  exact le_antisymm (hle h h') (hle h' h)

/-- Rounding keeps the order. -/
theorem mono {w : ℚ} (h : Nearest v i) (h' : Nearest w j) (hvw : v < w) : i ≤ j := by
  by_contra hij
  obtain ⟨k, rfl⟩ : ∃ k, i = k + 1 := ⟨i - 1, by omega⟩
  have hjk : j ≤ k := by omega
  have hbelow := h.below k rfl
  have habove := h'.above
  have h1 := gridValue_strictMono.monotone hjk
  have h2 := gridValue_strictMono.monotone (Nat.succ_le_succ hjk)
  linarith

theorem zero : Nearest 0 0 := by
  rw [← gridValue_zero]
  exact self 0

/-- A number that is no less than a double is not rounded to one below it. -/
theorem ge_of_le (h : Nearest v i) (hv : gridValue j ≤ v) : j ≤ i := by
  rcases hv.eq_or_lt with rfl | hv
  · exact ((self j).unique h).le
  · exact (self j).mono h hv

/-- A number that is no greater than a double is not rounded to one above it. -/
theorem le_of_le (h : Nearest v i) (hv : v ≤ gridValue j) : i ≤ j := by
  rcases hv.eq_or_lt with rfl | hv
  · exact (h.unique (self j)).le
  · exact h.mono (self j) hv

end Nearest

/-! ### How far rounding goes -/

/-- One part in `2^53`: half of the distance from one to the next double. -/
def roundoff : ℚ := 1 / 9007199254740992

theorem roundoff_pos : 0 < roundoff := by
  norm_num [roundoff]

/-- The digits of a double, as a part of all that fit. -/
theorem significand_roundoff (i : ℕ) : significand i * roundoff ≤ 1 - roundoff := by
  have hs : significand i + 1 ≤ 9007199254740992 := by
    have h := significand_lt i
    unfold leadingBit at h
    omega
  have hs : (significand i : ℚ) + 1 ≤ 9007199254740992 := by exact_mod_cast hs
  unfold roundoff
  linarith

/-- A double with all its digits is at least so many gaps. -/
theorem gap_le_of_le {i : ℕ} (h : (leadingBit : ℚ) ≤ significand i) :
    gap i ≤ 2 * (gridValue i * roundoff) := by
  have := mul_le_mul_of_nonneg_right h (gap_pos i).le
  unfold gridValue
  norm_num [leadingBit, roundoff] at this ⊢
  linarith

/-- Below a double of the normal range the gap is half as wide or the digits are not all zeros. -/
theorem gap_below {k : ℕ} (h : leadingBit < k + 1) : gap (k + 1) = 2 * gap k ∨
    leadingBit + 1 ≤ significand (k + 1) ∧ gap (k + 1) = gap k := by
  have hcases : lastPlace (k + 1) = lastPlace k + 1 ∨
      leadingBit + 1 ≤ significand (k + 1) ∧ lastPlace (k + 1) = lastPlace k := by
    unfold significand lastPlace leadingBit at *
    omega
  unfold gap
  rcases hcases with hp | ⟨hs, hp⟩
  · rw [hp, zpow_add_one₀ (by norm_num), mul_comm]
    exact .inl rfl
  · rw [hp]
    exact .inr ⟨hs, rfl⟩

namespace Nearest

variable {v : ℚ} {i j : ℕ}

/-- Rounding changes a number by half a gap at most. -/
theorem absolute (h : Nearest v i) (hv : 0 ≤ v) :
    v ≤ gridValue i + gap i / 2 ∧ gridValue i ≤ v + gap i / 2 := by
  constructor
  · have := h.above
    rw [gridValue_succ] at this
    linarith
  · cases i with
    | zero =>
      rw [gridValue_zero]
      linarith [gap_pos 0]
    | succ k =>
      have hbelow := h.below k rfl
      have hgap := gap_mono (Nat.le_succ k)
      rw [gridValue_succ] at hbelow ⊢
      linarith

/-- **Rounding changes a number of the normal range by one part in `2^53` at most.** -/
theorem relative (h : Nearest v i) (hi : leadingBit < i) :
    v ≤ gridValue i * (1 + roundoff) ∧ gridValue i * (1 + roundoff) ≤ v * (1 + 2 * roundoff) := by
  obtain ⟨k, rfl⟩ : ∃ k, i = k + 1 := ⟨i - 1, by omega⟩
  have habove := h.above
  have hbelow := h.below k rfl
  rw [gridValue_succ (k + 1)] at habove
  have hstep := gridValue_succ k
  constructor
  · -- half a gap is at most this part of the value
    have hhalf : gap (k + 1) ≤ 2 * (gridValue (k + 1) * roundoff) :=
      gap_le_of_le (by exact_mod_cast le_significand hi.le)
    linarith
  · -- below a power of two the gap is half as wide; elsewhere there is one more digit
    have hhalf : gap k * (1 + 2 * roundoff) ≤ 2 * (gridValue (k + 1) * roundoff) := by
      rcases gap_below hi with hgap | ⟨hs, hgap⟩
      · have hval := gap_le_of_le (i := k + 1) (by exact_mod_cast le_significand hi.le)
        rw [hgap] at hval
        unfold roundoff at hval ⊢
        linarith [gap_pos k]
      · have hval : (leadingBit + 1) * gap (k + 1) ≤ gridValue (k + 1) :=
          mul_le_mul_of_nonneg_right (by exact_mod_cast hs) (gap_pos _).le
        rw [hgap] at hval
        norm_num [leadingBit, roundoff] at hval ⊢
        linarith
    have hu : 0 ≤ 1 + 2 * roundoff := by linarith [roundoff_pos]
    have hall := mul_le_mul_of_nonneg_right hbelow hu
    rw [show gridValue k = gridValue (k + 1) - gap k by linarith] at hall
    linarith

end Nearest

/-- Where the grid gets coarser within two places, the digits are near the least. -/
theorem significand_of_gap_lt {b : ℕ} (h : gap b < gap (b + 2)) :
    significand (b + 2) < leadingBit + 2 := by
  have hplace : lastPlace b ≠ lastPlace (b + 2) := fun he => by
    unfold gap at h
    rw [he] at h
    exact lt_irrefl _ h
  unfold significand lastPlace leadingBit at *
  omega

/-- The middle below a place is far above the middle two places further down. -/
theorem middle_below (b : ℕ) : gridValue b + gridValue (b + 1) <
    (gridValue (b + 2) + gridValue (b + 3)) * (1 - 2 * roundoff) := by
  have hg := gap_pos (b + 2)
  have hval : gridValue (b + 2) = significand (b + 2) * gap (b + 2) := rfl
  have hstep := gridValue_succ b
  have hstep' := gridValue_succ (b + 1)
  rw [gridValue_succ (b + 2)]
  rcases eq_or_lt_of_le (gap_mono (Nat.le_add_right b 2)) with hsame | hcoarser
  · -- all gaps are equal, and the value is less than `2^53` of them
    have hone : gap (b + 1) = gap (b + 2) :=
      le_antisymm (gap_mono (by omega)) (hsame ▸ gap_mono (Nat.le_succ b))
    have hlost : (2 * significand (b + 2) + 1) * (2 * roundoff) < 4 := by
      linarith [significand_roundoff (b + 2), roundoff_pos]
    have hlost := mul_lt_mul_of_pos_right hlost hg
    rw [hsame] at hstep
    rw [hone] at hstep'
    rw [hval] at hstep' ⊢
    linarith
  · -- some gaps are half as wide, but then the value is about `2^52` of the wide ones
    have hdouble : gap (b + 2) ≤ 2 * gap b := gap_le_double (by unfold leadingBit; omega)
    have hdouble' : gap (b + 2) ≤ 2 * gap (b + 1) := by
      linarith [gap_mono (Nat.le_succ b)]
    have hs : (significand (b + 2) : ℚ) + 1 ≤ 4503599627370496 + 2 := by
      have := significand_of_gap_lt hcoarser
      unfold leadingBit at this
      exact_mod_cast this
    have hlost : (2 * significand (b + 2) + 1) * (2 * roundoff) < (5 / 2 : ℚ) := by
      unfold roundoff
      linarith
    have hlost := mul_lt_mul_of_pos_right hlost hg
    rw [hval] at hstep' ⊢
    linarith

/-- A number differs from another by two parts in `2^53`, as after two roundings. -/
structure Within (d t : ℚ) : Prop where
  low : d * (1 - 2 * roundoff) ≤ t
  high : t ≤ d * (1 + 2 * roundoff + roundoff ^ 2)

/-- Two places are at most two doubles apart. -/
def Near (i j : ℕ) : Prop := j ≤ i + 2 ∧ i ≤ j + 2

theorem Near.refl (i : ℕ) : Near i i := ⟨Nat.le_add_right i 2, Nat.le_add_right i 2⟩

/-- **A decimal that reads as a double, with the error of two roundings**, is rounded to a place at
most two doubles away. -/
theorem Nearest.near {d t : ℚ} {i j : ℕ} (hd : Nearest d i) (ht : Nearest t j) (h : Within d t) :
    Near i j := by
  obtain ⟨hlow, hhigh⟩ := h
  have hu := roundoff_pos
  constructor
  · refine ht.le_of_lt ?_
    have hg := gap_pos i
    have hup := gridValue_add i 2
    have hup' := gridValue_add i 3
    push_cast at hup hup'
    have habove := hd.above
    rw [gridValue_succ] at habove
    -- the digits of a double are at most all that fit
    have hm := significand_roundoff i
    have hfactor : (2 * significand i + 1) * (2 * roundoff + roundoff ^ 2) < 4 := by
      calc (2 * significand i + 1) * (2 * roundoff + roundoff ^ 2)
          = (2 * (significand i * roundoff) + roundoff) * (2 + roundoff) := by ring
        _ ≤ (2 - roundoff) * (2 + roundoff) :=
          mul_le_mul_of_nonneg_right (by linarith) (by linarith)
        _ = 4 - roundoff ^ 2 := by ring
        _ < 4 := sub_lt_self _ (by positivity)
    have hgrow := mul_lt_mul_of_pos_right hfactor hg
    have hval : gridValue i = significand i * gap i := rfl
    have hfactor0 : 0 ≤ 1 + 2 * roundoff + roundoff ^ 2 := by positivity
    have hscaled := mul_le_mul_of_nonneg_right habove hfactor0
    rw [hval] at hup hup' hscaled
    linarith
  · by_contra hij
    -- so the place is one of those below the middle that is two places down
    obtain ⟨b, rfl⟩ : ∃ b, i = b + 3 := ⟨i - 3, by omega⟩
    have hbelow := hd.below (b + 2) rfl
    have hfactor0 : 0 ≤ 1 - 2 * roundoff := by norm_num [roundoff]
    have hscaled := mul_le_mul_of_nonneg_right hbelow hfactor0
    have hbj : b < j := ht.lt_of_lt (by linarith [middle_below b])
    omega

/-- A number that is no more than the least gap above another is not rounded to a place far above. -/
theorem Nearest.le_of_shift {d t : ℚ} {i j : ℕ} (hd : Nearest d i) (ht : Nearest t j)
    (h : t ≤ d + gap 0) : j ≤ i + 2 := by
  have hfar := gridValue_add i 2
  have hstep := gridValue_succ (i + 2)
  have habove := hd.above
  rw [gridValue_succ] at habove
  refine ht.le_of_lt ?_
  push_cast at hfar
  linarith [gap_pos i, gap_mono (Nat.zero_le i), gap_mono (Nat.le_add_right i 2)]

end TelemetryRelay.Decimal
