import TelemetryRelay.Proofs.Json.Numerals

/-!
# Doubles that are written and read back

A double is written as the decimal `decimal`, and the reader scales the digits of that decimal to a
double near the first one. It need not be the same: two roundings, or three, can end at a neighbour.

* `decimal_nearest`: the decimal of a double is rounded to it, and its digits fit.
* `literal_chars`: the text of a double is a numeral of that decimal.
* `exists_readsBack`: **that text is read as a finite double of the same sign that is at most two
  doubles away**, and as the double itself if the digits are less than `2^53` and the power of ten is
  at most `10^22` up or down.
-/

namespace TelemetryRelay.Json

open Decimal

variable {negative : Bool} {n : Numeral} {x : Float} {i : ℕ}

/-! ### The decimals of doubles -/

/-- The decimal that the digits of a double's text stand for. -/
def decimal (i : ℕ) : Numeral := written (shortest (significand i) (lastPlace i))

theorem shortest_zero (q : ℤ) : shortest (significand 0) q = ⟨0, 0⟩ := if_pos rfl

theorem decimal_zero : decimal 0 = ⟨0, -1⟩ := by
  rw [decimal, shortest_zero]
  decide +kernel

/-- The first digit of a decimal for a double. -/
theorem leading_bounds (h : n.Names i) : n.exponent ≤ leading n ∧ leading n < n.exponent + 18 := by
  have hlen := pow_length_le h.pos.ne'
  have hdigits := h.digits
  have hless : (digits n.coefficient).length - 1 < 18 := by
    rw [← Nat.pow_lt_pow_iff_right (show 1 < 10 by decide)]
    unfold leadingBit at hdigits
    omega
  unfold leading
  omega

theorem plain_shortest (hi : i < infinitePlace) :
    Plain (shortest (significand i) (lastPlace i)) := by
  by_cases h0 : i = 0
  · subst h0
    rw [shortest_zero]
    exact ⟨fun _ => rfl, by decide +kernel⟩
  · have hnames := shortest_names h0 hi
    have hbounds := leading_bounds hnames
    have hlow := hnames.low
    have hhigh := hnames.high
    refine ⟨fun hc => absurd hc hnames.pos.ne', ?_⟩
    unfold greatestExponent
    omega

/-- The decimal of the text is as near to the double as the shortest one, and fits as well. -/
theorem decimal_nearest (h0 : i ≠ 0) (hi : i < infinitePlace) :
    Nearest ((decimal i).coefficient * 10 ^ (decimal i).exponent) i ∧
      1 ≤ (decimal i).coefficient ∧ (decimal i).coefficient ≤ uint64Max ∧
      -330 ≤ (decimal i).exponent ∧ (decimal i).exponent ≤ 308 := by
  have hnames := shortest_names h0 hi
  unfold decimal
  generalize shortest (significand i) (lastPlace i) = n at *
  obtain ⟨hnearest, hpos, hdigits, hlow, hhigh⟩ := hnames
  unfold written
  split
  · next hwhole =>
    obtain ⟨hpos', hk⟩ := hwhole
    have hlead : leading n ≤ 15 := (of_decide_eq_true hpos').2
    obtain ⟨k, hk⟩ : ∃ k : ℕ, n.exponent = k := ⟨n.exponent.toNat, by omega⟩
    have hlen : 0 < (digits n.coefficient).length := List.length_pos_iff.2 (digits_ne_nil _)
    rw [hk] at hnearest ⊢
    rw [Int.toNat_natCast]
    refine ⟨?_, ?_, ?_, (by decide : (-330 : ℤ) ≤ -1), (by decide : (-1 : ℤ) ≤ 308)⟩
    · dsimp only
      convert hnearest using 1
      push_cast
      rw [zpow_natCast, pow_succ, zpow_neg_one]
      ring
    · exact Nat.mul_pos hpos (Nat.pow_pos (by decide))
    · unfold leading at hlead
      calc n.coefficient * 10 ^ (k + 1)
          ≤ 10 ^ (digits n.coefficient).length * 10 ^ (k + 1) :=
            Nat.mul_le_mul_right _ (lt_pow_length _).le
        _ = 10 ^ ((digits n.coefficient).length + (k + 1)) := (pow_add _ _ _).symm
        _ ≤ 10 ^ 17 := Nat.pow_le_pow_right (by decide) (by omega)
        _ ≤ uint64Max := by decide
  · refine ⟨hnearest, hpos, ?_, by omega, hhigh⟩
    unfold leadingBit at hdigits
    unfold uint64Max
    omega

/-- The two greatest doubles are read as the greatest. -/
theorem scaled_greatest (hi : i < infinitePlace) (hi' : infinitePlace ≤ i + 2) :
    scaled (Float.ofNat (decimal i).coefficient) (decimal i).exponent =
      some (floatAt false (infinitePlace - 1)) := by
  have hdecimal : ∃ c, decimal i = ⟨c, 292⟩ ∧ isInfinite (Float.ofNat c * tenTo 292) = false ∧
      Float.ofNat c * tenTo 292 = floatAt false (infinitePlace - 1) := by
    obtain rfl | rfl : i = infinitePlace - 1 ∨ i = infinitePlace - 2 := by omega
    · exact ⟨17976931348623157, by decide +kernel⟩
    · exact ⟨17976931348623155, by decide +kernel⟩
  obtain ⟨c, hdecimal, hfinite, hprod⟩ := hdecimal
  rw [hdecimal]
  show scaled (Float.ofNat c) 292 = _
  rw [scaled_up (by decide) (by decide), show Int.natAbs 292 = 292 from rfl, hfinite, hprod]
  rfl

/-- A double of the same sign near a double, and that double itself if its decimal is simple. -/
structure Beside (x y : Float) : Prop where
  finite : isFinite y = true
  sign : isNegative y = isNegative x
  near : Near (place x) (place y)
  exact : (decimal (place x)).coefficient < 2 * leadingBit →
    (decimal (place x)).exponent.natAbs ≤ 22 → y = x

theorem signed_floatAt (hi : i < infinitePlace) :
    signed negative (floatAt false i) = floatAt negative i := by
  unfold signed
  split
  · next h => rw [neg_floatAt hi, h]; rfl
  · next h => rw [Bool.eq_false_iff.2 h]

/-- The decimal of a double is scaled to a double near it. -/
theorem exists_beside (hx : isFinite x = true) : ∃ z,
    scaled (Float.ofNat (decimal (place x)).coefficient) (decimal (place x)).exponent = some z ∧
      Beside x (signed (isNegative x) z) := by
  have hi := isFinite_iff.1 hx
  have hself := floatAt_place hx
  obtain ⟨i, hplace⟩ : ∃ i, i = place x := ⟨_, rfl⟩
  rw [← hplace] at hi hself ⊢
  by_cases hexact : (decimal i).coefficient < 2 * leadingBit ∧ (decimal i).exponent.natAbs ≤ 22
  · have hnearest : Nearest ((decimal i).coefficient * 10 ^ (decimal i).exponent) i := by
      by_cases h0 : i = 0
      · rw [h0, decimal_zero, Nat.cast_zero, zero_mul]
        exact .zero
      · exact (decimal_nearest h0 hi).1
    refine ⟨_, scaled_exact hexact.1 hexact.2 hi hnearest, ?_⟩
    rw [signed_floatAt hi, hself]
    exact ⟨hx, rfl, .refl _, fun _ _ => rfl⟩
  · have h0 : i ≠ 0 := by
      rintro rfl
      rw [decimal_zero] at hexact
      exact hexact (by decide)
    have hread : ∃ j, j < infinitePlace ∧
        scaled (Float.ofNat (decimal i).coefficient) (decimal i).exponent = some (floatAt false j) ∧
          Near i j := by
      obtain ⟨hnearest, hpos, hfit, hlow, hhigh⟩ := decimal_nearest h0 hi
      by_cases hgreatest : i + 2 < infinitePlace
      · exact scaled_near hpos hfit hlow hhigh hgreatest hnearest
      · refine ⟨infinitePlace - 1, by decide, scaled_greatest hi (by omega), ?_⟩
        constructor <;> omega
    obtain ⟨j, hj, hscaled, hnear⟩ := hread
    refine ⟨_, hscaled, ?_⟩
    rw [signed_floatAt hj]
    refine ⟨isFinite_floatAt hj, isNegative_floatAt, ?_, fun hc he => ?_⟩
    · rw [← hplace, place_floatAt, min_eq_left hj.le]
      exact hnear
    · rw [← hplace] at hc he
      exact absurd ⟨hc, he⟩ hexact

/-- The text of a finite double is a numeral of its decimal, and what it is read as. -/
theorem literal_chars (hx : isFinite x = true) :
    ∃ l, LiteralText (Number.chars (.real x)) l ∧ l.Writes (decimal (place x)) ∧ l.number? =
      ((scaled (Float.ofNat (decimal (place x)).coefficient) (decimal (place x)).exponent).map
        (signed (isNegative x))).map .real := by
  have hi := isFinite_iff.1 hx
  have hfit : (decimal (place x)).coefficient ≤ uint64Max := by
    by_cases h0 : place x = 0
    · rw [h0, decimal_zero]
      exact Nat.zero_le _
    · exact (decimal_nearest h0 hi).2.2.1
  obtain ⟨l, htext, hneg, hwrites⟩ : Shows (isNegative x) _ _ := magnitude_shows (plain_shortest hi)
  have hnumber := Literal.Writes.number? (n := decimal (place x)) hwrites hfit
  rw [hneg] at hnumber
  refine ⟨l, ?_, hwrites, hnumber⟩
  unfold Number.chars FloatStyle.chars
  dsimp only
  rw [if_pos hx, ofFloat_eq hx]
  dsimp only
  generalize isNegative x = negative at htext
  cases negative with
  | true =>
    rw [if_pos rfl, List.singleton_append]
    exact .minus htext
  | false =>
    rw [if_neg Bool.false_ne_true, List.nil_append]
    exact .plain htext

/-- **What the text of a double is read as**: the text is a numeral with the digits and the power of
ten of the double's decimal, and the number that is read is beside the double. -/
structure ReadsBack (x y : Float) : Prop extends Beside x y where
  numeral : ∃ l, LiteralText (Number.chars (.real x)) l ∧ l.Writes (decimal (place x)) ∧
    l.number? = some (.real y)

/-- **Every finite double is read back as a double near it.** -/
theorem exists_readsBack (hx : isFinite x = true) : ∃ y, ReadsBack x y := by
  obtain ⟨z, hscaled, hbeside⟩ := exists_beside hx
  obtain ⟨l, htext, hwrites, hnumber⟩ := literal_chars hx
  rw [hscaled] at hnumber
  exact ⟨_, hbeside, l, htext, hwrites, hnumber⟩

end TelemetryRelay.Json
