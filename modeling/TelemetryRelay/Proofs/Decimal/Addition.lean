import TelemetryRelay.Proofs.Decimal.Arithmetic

/-!
# Sums of doubles

A sum of two doubles is exact arithmetic too, rounded to the grid. So it is finite exactly if the
exact sum stays below the middle between the greatest double and the place of infinity
(`overflowBound`), and once a sum is infinite, adding finite doubles leaves it so.

* `add_floatAt`: **a sum of two doubles is the double nearest to the exact one.**
* `isFinite_add_iff`: when it is finite.
* `neg_zero_add`: the negative zero is neutral.
* `total_cases`: a sum of several finite doubles is finite, or it overflows on the way and is
  infinite.
* `total_bounded`: a few small doubles do not overflow.
-/

namespace TelemetryRelay.Decimal

open Float.Model Float.Model.UnpackedFloat

/-- The number that the double of a sign at a place stands for. -/
def signedValue (negative : Bool) (i : ℕ) : ℚ := if negative then -gridValue i else gridValue i

/-- **The number that a finite double is.** -/
def exactValue (x : Float) : ℚ := signedValue (isNegative x) (place x)

variable {i j k : ℕ} {a b : Bool} {x y : Float}

@[simp]
theorem signedValue_zero : signedValue a 0 = 0 := by
  simp [signedValue, gridValue_zero]

@[simp]
theorem abs_signedValue : |signedValue a i| = gridValue i := by
  have h := gridValue_nonneg i
  cases a <;> simp [signedValue, abs_of_nonneg h]

theorem exactValue_floatAt (hi : i < infinitePlace) : exactValue (floatAt a i) = signedValue a i := by
  rw [exactValue, isNegative_floatAt, place_floatAt, min_eq_left hi.le]

/-- A mantissa is brought to a smaller exponent without a change of the number. -/
theorem decreaseExponent_value (i : ℕ) {t : ℤ} (ht : t ≤ lastPlace i) :
    (((signOf a).apply ((decreaseExponent (significand i) (lastPlace i) t).1 : ℤ) : ℤ) : ℚ) * 2 ^ t =
      signedValue a i := by
  have hshift : lastPlace i = ((lastPlace i - t).toNat : ℤ) + t := by omega
  have hvalue : ((decreaseExponent (significand i) (lastPlace i) t).1 : ℚ) * 2 ^ t =
      gridValue i := by
    unfold decreaseExponent
    dsimp only
    rw [Nat.shiftLeft_eq, gridValue, gap]
    nth_rewrite 2 [hshift]
    rw [zpow_add₀ two_ne_zero, zpow_natCast]
    push_cast
    ring
  rw [signedValue, ← hvalue]
  cases a with
  | false => simp [signOf, Sign.apply]
  | true => simp [signOf, Sign.apply]

/-- **A signed whole number of units is rounded to the nearest double.** -/
theorem normalize_eq (m e : ℤ) : ∃ k, Nearest |(m : ℚ) * 2 ^ e| k ∧
    normalize .binary64 m e .positive = unpackedAt (signOf (decide (m < 0))) k := by
  have hpow : (0 : ℚ) < 2 ^ e := by positivity
  rcases lt_trichotomy m 0 with hm | rfl | hm
  · obtain ⟨k, hk, hround⟩ := round_eq (m := (-m).toNat) (by omega) e .negative
    have hvalue : |(m : ℚ) * 2 ^ e| = ((-m).toNat : ℚ) * 2 ^ e := by
      have hcast : (((-m).toNat : ℤ) : ℚ) = -m := by
        rw [Int.toNat_of_nonneg (by omega)]
        push_cast
        rfl
      have hneg : (m : ℚ) < 0 := by exact_mod_cast hm
      rw [abs_mul, abs_of_neg hneg, abs_of_pos hpow, ← hcast, Int.cast_natCast]
    refine ⟨k, hvalue ▸ hk, ?_⟩
    unfold UnpackedFloat.normalize
    rw [Int.compare_eq_lt.2 hm, decide_eq_true hm]
    exact hround
  · refine ⟨0, ?_, ?_⟩
    · simpa using Nearest.zero
    · rw [unpackedAt_zero]
      rfl
  · obtain ⟨k, hk, hround⟩ := round_eq (m := m.toNat) (by omega) e .positive
    have hvalue : |(m : ℚ) * 2 ^ e| = (m.toNat : ℚ) * 2 ^ e := by
      have hcast : ((m.toNat : ℤ) : ℚ) = m := by rw [Int.toNat_of_nonneg hm.le]
      have hpos : (0 : ℚ) < m := by exact_mod_cast hm
      rw [abs_mul, abs_of_pos hpos, abs_of_pos hpow, ← hcast, Int.cast_natCast]
    refine ⟨k, hvalue ▸ hk, ?_⟩
    unfold UnpackedFloat.normalize
    rw [Int.compare_eq_gt.2 hm, decide_eq_false hm.not_gt]
    exact hround

theorem add_eq (x y : Float) :
    x + y = .ofModel (.pack (.add .binary64 x.toModel.unpack y.toModel.unpack)) := rfl

/-- **A sum of doubles is the nearest double.** -/
theorem add_floatAt (hi : i < infinitePlace) (hj : j < infinitePlace) :
    ∃ k c, Nearest |signedValue a i + signedValue b j| k ∧
      floatAt a i + floatAt b j = floatAt c k := by
  rw [add_eq, unpack_floatAt hi, unpack_floatAt hj]
  by_cases hi0 : i = 0
  · subst hi0
    rw [signedValue_zero, zero_add, abs_signedValue]
    by_cases hj0 : j = 0
    · subst hj0
      refine ⟨0, a && b, .self 0, ?_⟩
      rw [unpackedAt_zero, unpackedAt_zero]
      cases a <;> cases b <;> rfl
    · refine ⟨j, b, .self j, ?_⟩
      rw [unpackedAt_zero, floatAt, unpackedAt_of_ne hj0]
      rfl
  by_cases hj0 : j = 0
  · subst hj0
    rw [signedValue_zero, add_zero, abs_signedValue]
    refine ⟨i, a, .self i, ?_⟩
    rw [unpackedAt_zero, floatAt, unpackedAt_of_ne hi0]
    rfl
  -- both mantissas are brought to the smaller exponent
  obtain ⟨t, ht⟩ : ∃ t, t = min (lastPlace i) (lastPlace j) := ⟨_, rfl⟩
  obtain ⟨m, hm⟩ : ∃ m, m =
      (signOf a).apply ((decreaseExponent (significand i) (lastPlace i) t).1 : ℤ) +
        (signOf b).apply ((decreaseExponent (significand j) (lastPlace j) t).1 : ℤ) := ⟨_, rfl⟩
  have hsum : (m : ℚ) * 2 ^ t = signedValue a i + signedValue b j := by
    rw [hm, Int.cast_add, add_mul, decreaseExponent_value i (by omega),
      decreaseExponent_value j (by omega)]
  obtain ⟨k, hk, hround⟩ := normalize_eq m t
  refine ⟨k, decide (m < 0), hsum ▸ hk, ?_⟩
  rw [floatAt, ← hround, hm, ht, unpackedAt_of_ne hi0, unpackedAt_of_ne hj0]
  rfl

/-! ### Overflow -/

/-- **The least number that is rounded to infinity**: the middle between the greatest double and the
place behind it. -/
def overflowBound : ℚ := 2 ^ 1024 - 2 ^ 970

theorem middle_infinite :
    gridValue (infinitePlace - 1) + gridValue infinitePlace = 2 * overflowBound := by
  have hgap : gap (infinitePlace - 1) = 2 ^ 971 := by
    rw [gap, show lastPlace (infinitePlace - 1) = (971 : ℕ) by decide, zpow_natCast]
  have hstep : gridValue infinitePlace = gridValue (infinitePlace - 1) + 2 ^ 971 := by
    rw [← hgap, ← gridValue_succ]
    rfl
  have hlast : (2 : ℚ) ^ 971 = 2 * 2 ^ 970 := by rw [← pow_succ']
  have hend : (2 : ℚ) ^ 1024 = 2 ^ 54 * 2 ^ 970 := by rw [← pow_add]
  rw [hstep, gridValue_greatest, overflowBound, hend, Nat.cast_mul, Nat.cast_pow, Nat.cast_ofNat,
    Nat.cast_ofNat, hlast]
  generalize (2 : ℚ) ^ 970 = u
  ring

theorem power_lt_overflowBound : (2 : ℚ) ^ 1023 < overflowBound := by
  have hend : (2 : ℚ) ^ 1024 = 2 * 2 ^ 1023 := by rw [← pow_succ']
  have hless : (2 : ℚ) ^ 970 < 2 ^ 1023 := pow_lt_pow_right₀ one_lt_two (by decide)
  rw [overflowBound, hend]
  generalize (2 : ℚ) ^ 1023 = u at hless ⊢
  generalize (2 : ℚ) ^ 970 = w at hless ⊢
  linarith

/-- A number is rounded to a finite double exactly below that bound. -/
theorem Nearest.lt_infinite_iff {v : ℚ} (h : Nearest v k) : k < infinitePlace ↔ v < overflowBound := by
  have hmiddle := middle_infinite
  have hplace : infinitePlace - 1 + 1 = infinitePlace := rfl
  constructor
  · intro hk
    by_contra hv
    rcases (not_lt.1 hv).lt_or_eq with hv | hv
    · have := h.lt_of_lt (j := infinitePlace - 1) (by rw [hplace]; linarith)
      omega
    · -- on the middle itself the even place is chosen, and this is that of infinity
      have hlast : k = infinitePlace - 1 := by
        by_contra hne
        have hless : k + 1 ≤ infinitePlace - 1 := by omega
        have h1 := gridValue_strictMono.monotone hless
        have h2 := gridValue_strictMono (show k < infinitePlace by omega)
        have habove := h.above
        linarith
      subst hlast
      have heven := h.even_above (by rw [hplace]; linarith)
      exact absurd heven (by decide)
  · intro hv
    have := h.le_of_lt (j := infinitePlace - 1) (by rw [hplace]; linarith)
    have hpos : 0 < infinitePlace := by decide
    omega

/-- **A sum of finite doubles is finite exactly if the exact sum is below the bound.** -/
theorem isFinite_add_iff (hx : isFinite x = true) (hy : isFinite y = true) :
    isFinite (x + y) = true ↔ |exactValue x + exactValue y| < overflowBound := by
  obtain ⟨k, c, hk, hsum⟩ := add_floatAt (a := isNegative x) (b := isNegative y)
    (isFinite_iff.1 hx) (isFinite_iff.1 hy)
  rw [floatAt_place hx, floatAt_place hy] at hsum
  rw [hsum, isFinite_iff, place_floatAt]
  refine Iff.trans ?_ hk.lt_infinite_iff
  omega

/-- Adding finite doubles leaves infinity as it is. -/
theorem infinite_add (hj : j < infinitePlace) :
    floatAt a infinitePlace + floatAt b j = floatAt a infinitePlace := by
  rw [add_eq, unpack_floatAt hj]
  by_cases hj0 : j = 0
  · rw [hj0, unpackedAt_zero]
    cases a <;> rfl
  · rw [unpackedAt_of_ne hj0]
    cases a <;> rfl

/-! ### The negative zero -/

theorem floatAt_neg_zero : (-0.0 : Float) = floatAt true 0 := by
  have hzero : (0.0 : Float) = floatAt false 0 := floatAt_zero
  rw [hzero, neg_floatAt (by decide)]
  rfl

/-- The double that is no number. -/
def notNumber : Float := .ofModel (.pack .notANumber)

/-- A double past infinity is no number. -/
theorem eq_notNumber (h : infinitePlace < place x) : x = notNumber := by
  have hbits : x.toBits.toNat < 2 ^ 64 := x.toBits.toBitVec.isLt
  have hexp : @unpackExponent .binary64 x.toBits.toBitVec = -1#_ := by
    refine BitVec.eq_of_toNat_eq ?_
    rw [unpackExponent_toNat]
    show x.toBits.toNat / leadingBit % 0x800 = 2047
    unfold place infinitePlace leadingBit at *
    omega
  have hman : @unpackMantissa .binary64 x.toBits.toBitVec ≠ 0#_ := by
    intro hzero
    have hzero := congrArg BitVec.toNat hzero
    rw [unpackMantissa_toNat] at hzero
    have hzero : x.toBits.toNat % leadingBit = 0 := hzero
    unfold place infinitePlace leadingBit at *
    omega
  refine float_ext ?_
  exact congrArg BitVec.toNat (x.toModel.valid.eq_packedNaN hexp hman)

/-- **The negative zero is neutral**, also for what is not finite. -/
theorem neg_zero_add (x : Float) : -0.0 + x = x := by
  rw [floatAt_neg_zero]
  rcases lt_trichotomy (place x) infinitePlace with h | h | h
  · rw [← floatAt_place (isFinite_iff.2 h), add_eq, unpack_floatAt (by decide), unpack_floatAt h,
      unpackedAt_zero]
    by_cases h0 : place x = 0
    · rw [h0, unpackedAt_zero, floatAt, unpackedAt_zero]
      cases isNegative x <;> rfl
    · rw [floatAt, unpackedAt_of_ne h0]
      rfl
  · rw [← floatAt_place_of_le h.le, h]
    cases isNegative x <;> rfl
  · rw [eq_notNumber h]
    rfl

/-! ### Sums of several doubles -/

/-- The sum of some doubles from the left. -/
def total (values : List Float) : Float := values.foldl (· + ·) (-0.0)

/-- **The sum of some doubles overflows** if one of them takes the exact sum past the bound. -/
def Overflows (values : List Float) : Prop :=
  ∃ before v after, values = before ++ v :: after ∧
    overflowBound ≤ |exactValue (total before) + exactValue v|

variable {values : List Float} {v : Float}

theorem total_concat : total (values ++ [v]) = total values + v := by
  rw [total, List.foldl_append]
  rfl

theorem not_overflows_nil : ¬ Overflows [] := by
  rintro ⟨before, v, after, h, -⟩
  exact absurd h (by simp)

theorem overflows_concat : Overflows (values ++ [v]) ↔
    Overflows values ∨ overflowBound ≤ |exactValue (total values) + exactValue v| := by
  constructor
  · rintro ⟨before, w, after, hsplit, hw⟩
    induction after using List.reverseRecOn with
    | nil =>
      obtain ⟨rfl, hlast⟩ := List.append_inj' hsplit rfl
      obtain rfl := List.singleton_inj.1 hlast
      exact .inr hw
    | append_singleton after last _ =>
      rw [← List.cons_append, ← List.append_assoc] at hsplit
      exact .inl ⟨before, w, after, (List.append_inj' hsplit rfl).1, hw⟩
  · rintro (⟨before, w, after, rfl, hw⟩ | hv)
    · exact ⟨before, w, after ++ [v], by simp, hw⟩
    · exact ⟨values, v, [], rfl, hv⟩

/-- **A sum of finite doubles is finite, or it overflows and is infinite.** -/
theorem total_cases (h : ∀ v ∈ values, isFinite v = true) :
    isFinite (total values) = true ∧ ¬ Overflows values ∨
      (∃ c, total values = floatAt c infinitePlace) ∧ Overflows values := by
  induction values using List.reverseRecOn with
  | nil =>
    refine .inl ⟨?_, not_overflows_nil⟩
    rw [total, List.foldl_nil, floatAt_neg_zero]
    exact isFinite_floatAt (by decide)
  | append_singleton values v ih =>
    have hv : isFinite v = true := h v (by simp)
    rw [total_concat, overflows_concat]
    rcases ih fun w hw => h w (by simp [hw]) with ⟨hsum, hno⟩ | ⟨⟨c, hc⟩, hyes⟩
    · have hadd := isFinite_add_iff hsum hv
      by_cases hbound : |exactValue (total values) + exactValue v| < overflowBound
      · exact .inl ⟨hadd.2 hbound, by simpa [hno] using hbound⟩
      · obtain ⟨k, c, -, hk⟩ := add_floatAt (a := isNegative (total values)) (b := isNegative v)
          (isFinite_iff.1 hsum) (isFinite_iff.1 hv)
        rw [floatAt_place hsum, floatAt_place hv] at hk
        have hfar : ¬ min k infinitePlace < infinitePlace := by
          rw [← @place_floatAt c k, ← hk, ← isFinite_iff, hadd]
          exact hbound
        refine .inr ⟨⟨c, ?_⟩, .inr (not_lt.1 hbound)⟩
        rw [hk, floatAt_infinite (by omega)]
    · refine .inr ⟨⟨c, ?_⟩, .inl hyes⟩
      rw [hc, ← floatAt_place hv, infinite_add (isFinite_iff.1 hv)]

/-- **Few small numbers do not overflow**: `2 ^ n` numbers of magnitude `2 ^ (1023 - n)`. -/
theorem total_bounded {n : ℕ} (hn : n ≤ 1023) (hlen : values.length ≤ 2 ^ n)
    (hfit : values.length < 2 * leadingBit)
    (h : ∀ v ∈ values, isFinite v = true ∧ |exactValue v| ≤ 2 ^ (1023 - n)) :
    isFinite (total values) = true ∧
      |exactValue (total values)| ≤ values.length * 2 ^ (1023 - n) := by
  induction values using List.reverseRecOn with
  | nil =>
    rw [total, List.foldl_nil, floatAt_neg_zero]
    refine ⟨isFinite_floatAt (by decide), ?_⟩
    rw [exactValue_floatAt (by decide)]
    simp
  | append_singleton values v ih =>
    rw [List.length_append, List.length_singleton] at hlen hfit ⊢
    obtain ⟨hsum, hle⟩ := ih (by omega) (by omega) fun w hw => h w (by simp [hw])
    obtain ⟨hv, hvle⟩ := h v (by simp)
    -- the bound itself is on the grid, so rounding does not go past it
    obtain ⟨l, hl⟩ := exists_gridValue_shifted hfit (1023 - n)
    obtain ⟨k, c, hk, hadd⟩ := add_floatAt (a := isNegative (total values)) (b := isNegative v)
      (isFinite_iff.1 hsum) (isFinite_iff.1 hv)
    rw [floatAt_place hsum, floatAt_place hv] at hadd
    have hkl : k ≤ l := by
      refine hk.le_of_le ?_
      rw [hl]
      push_cast
      have := abs_add_le (exactValue (total values)) (exactValue v)
      unfold exactValue at *
      linarith
    have hpower : gridValue l ≤ 2 ^ 1023 := by
      rw [hl, show 1023 = n + (1023 - n) by omega, pow_add, Nat.add_sub_cancel_left]
      gcongr
      exact_mod_cast hlen
    have hfinite : l < infinitePlace :=
      (Nearest.self l).lt_infinite_iff.2 (hpower.trans_lt power_lt_overflowBound)
    have hkf : k < infinitePlace := hkl.trans_lt hfinite
    rw [total_concat, hadd]
    refine ⟨isFinite_floatAt hkf, ?_⟩
    rw [exactValue_floatAt hkf, abs_signedValue, ← hl]
    exact gridValue_strictMono.monotone hkl

end TelemetryRelay.Decimal
