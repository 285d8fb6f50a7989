import TelemetryRelay.Proofs.Decimal.Rounding

/-!
# Arithmetic of doubles

A finite double is the one of its sign at its place on the grid (`floatAt_place`), and arithmetic on
doubles is arithmetic on rational numbers, rounded to the grid.

* `mul_floatAt`, `div_floatAt`: **a product and a quotient of two doubles are the doubles nearest to
  the exact ones**, and infinite if the place is that of infinity.
* `ofScientific_eq`, `ofNat_eq`: a decimal without fraction and a whole number become the nearest
  doubles.
-/

namespace TelemetryRelay.Decimal

open Float.Model Float.Model.UnpackedFloat

/-! ### Signs and places -/

/-- The place of the magnitude of a double. -/
def place (x : Float) : ℕ := x.toBits.toNat % 0x8000000000000000

/-- Whether the sign bit of a double is set. -/
def isNegative (x : Float) : Bool := x.toBits.toNat / 0x8000000000000000 == 1

/-- A sign as it is unpacked. -/
def signOf (negative : Bool) : Sign := if negative then .negative else .positive

/-- The double of a sign at a place; past the greatest, infinity. -/
def floatAt (negative : Bool) (i : ℕ) : Float := .ofModel (.pack (unpackedAt (signOf negative) i))

variable {negative : Bool} {i j : ℕ} {x y : Float}

theorem signBit_signOf : signBit (signOf negative) = negative.toNat := by
  cases negative <;> rfl

theorem floatAt_bits : (floatAt negative i).toBits.toNat =
    negative.toNat * 0x8000000000000000 + min i infinitePlace := by
  rw [← signBit_signOf]
  exact pack_toNat _ i

@[simp]
theorem place_floatAt : place (floatAt negative i) = min i infinitePlace := by
  unfold place
  rw [floatAt_bits]
  unfold infinitePlace
  omega

@[simp]
theorem isNegative_floatAt : isNegative (floatAt negative i) = negative := by
  unfold isNegative
  rw [floatAt_bits]
  have hi : min i infinitePlace < 0x8000000000000000 := by
    unfold infinitePlace
    omega
  cases negative
  · simp [Nat.div_eq_of_lt hi]
  · rw [beq_iff_eq]
    simp only [Bool.toNat_true]
    omega

theorem float_ext (h : x.toBits.toNat = y.toBits.toNat) : x = y := by
  obtain ⟨⟨a, _⟩⟩ := x
  obtain ⟨⟨b, _⟩⟩ := y
  obtain rfl : a = b := UInt64.toNat_inj.1 h
  rfl

/-- A double is finite if it comes before infinity. -/
theorem isFinite_iff : isFinite x = true ↔ place x < infinitePlace := by
  have hbits : x.toBits.toNat < 2 ^ 64 := x.toBits.toBitVec.isLt
  have hexp : x.toBits.toNat / leadingBit % 0x800 = 2047 ↔ infinitePlace ≤ place x := by
    unfold place infinitePlace leadingBit
    omega
  constructor
  · intro h
    have := exponent_of_finite h
    rw [Ne, hexp] at this
    omega
  · intro h
    have h : ¬ x.toBits.toNat / leadingBit % 0x800 = 2047 := by
      rw [hexp]
      omega
    unfold isFinite Binary.ofFloat Binary.ofBits
    dsimp only
    rw [if_neg h]
    by_cases h0 : x.toBits.toNat / leadingBit % 0x800 = 0
    · rw [if_pos h0]
    · rw [if_neg h0]

theorem isFinite_floatAt (hi : i < infinitePlace) : isFinite (floatAt negative i) = true := by
  rw [isFinite_iff, place_floatAt]
  omega

/-- A double that is a number is the one of its sign at its place. -/
theorem floatAt_place_of_le (h : place x ≤ infinitePlace) :
    floatAt (isNegative x) (place x) = x := by
  have hbits : x.toBits.toNat < 2 ^ 64 := x.toBits.toBitVec.isLt
  refine float_ext ?_
  rw [floatAt_bits, min_eq_left h]
  unfold isNegative place
  by_cases hs : x.toBits.toNat / 0x8000000000000000 = 1
  · rw [hs]
    simp only [beq_self_eq_true, Bool.toNat_true]
    omega
  · rw [beq_false_of_ne hs]
    simp only [Bool.toNat_false]
    omega

/-- **Every finite double is the one of its sign at its place.** -/
theorem floatAt_place (h : isFinite x = true) : floatAt (isNegative x) (place x) = x :=
  floatAt_place_of_le (isFinite_iff.1 h).le

/-- What the bits of a finite double say. -/
theorem ofFloat_eq (h : isFinite x = true) : Binary.ofFloat x =
    .finite (isNegative x) (significand (place x)) (lastPlace (place x)) := by
  have hbits : x.toBits.toNat < 2 ^ 64 := x.toBits.toBitVec.isLt
  have hexp := exponent_of_finite h
  have hsign : (x.toBits.toNat / (leadingBit * 0x800) == 1) = isNegative x := rfl
  unfold Binary.ofFloat Binary.ofBits
  dsimp only
  rw [if_neg hexp, hsign]
  by_cases h0 : x.toBits.toNat / leadingBit % 0x800 = 0
  · rw [if_pos h0]
    congr 1
    · unfold place significand leadingBit at *
      omega
    · unfold place lastPlace leadingBit at *
      omega
  · rw [if_neg h0]
    congr 1
    · unfold place significand leadingBit at *
      omega
    · unfold place lastPlace leadingBit at *
      omega

/-! ### Taking doubles apart -/

theorem unpackMantissa_toNat (b : BitVec 64) :
    (@unpackMantissa .binary64 b).toNat = b.toNat % leadingBit := by
  simp only [unpackMantissa, BitVec.toNat_cast, BitVec.extractLsb_toNat, Nat.shiftRight_eq_div_pow]
  simp [leadingBit]

theorem unpackSign_toNat (b : BitVec 64) :
    (@unpackSign .binary64 b).toNat = b.toNat / 0x8000000000000000 := by
  have hb : b.toNat < 2 ^ 64 := b.isLt
  simp only [unpackSign, BitVec.toNat_cast, BitVec.extractLsb_toNat, Nat.shiftRight_eq_div_pow]
  simp
  omega

theorem ofBitVec_eq {b : BitVec 1} (h : b.toNat = negative.toNat) :
    Sign.ofBitVec b = signOf negative := by
  rw [← signBit_signOf] at h
  rw [show b = (signOf negative).toBitVec from BitVec.eq_of_toNat_eq h]
  cases negative <;> rfl

theorem finite_congr {sign : Sign} {m m' : ℕ} {e e' : ℤ} (hm : 0 < m) (hm' : 0 < m') (h : m = m')
    (he : e = e') : UnpackedFloat.finite sign m e hm = .finite sign m' e' hm' := by
  subst h he
  rfl

theorem unpackedAt_zero {sign : Sign} : unpackedAt sign 0 = .zero sign := dif_pos rfl

theorem unpackedAt_of_ne {sign : Sign} (hi : i ≠ 0) : unpackedAt sign i =
    .finite sign (significand i) (lastPlace i)
      (Nat.pos_of_ne_zero (mt significand_eq_zero.1 hi)) :=
  dif_neg (mt significand_eq_zero.1 hi)

/-- The fields of the bits of a double. -/
theorem unpack_fields {b : BitVec 64} (hi : i < infinitePlace)
    (hb : b.toNat = negative.toNat * 0x8000000000000000 + i) :
    Sign.ofBitVec (@unpackSign .binary64 b) = signOf negative ∧
      (@unpackExponent .binary64 b).toNat = i / leadingBit ∧
        (@unpackMantissa .binary64 b).toNat = i % leadingBit := by
  have hs := negative.toNat_le
  refine ⟨ofBitVec_eq ?_, ?_, ?_⟩
  · rw [unpackSign_toNat, hb]
    unfold infinitePlace at hi
    omega
  · rw [unpackExponent_toNat, hb]
    unfold infinitePlace leadingBit at *
    omega
  · rw [unpackMantissa_toNat, hb]
    unfold leadingBit
    omega

/-- Bits are taken apart into the sign and what stands at the place. -/
theorem unpack_toNat {b : BitVec 64} (hi : i < infinitePlace)
    (hb : b.toNat = negative.toNat * 0x8000000000000000 + i) :
    UnpackedFloat.unpack .binary64 b = unpackedAt (signOf negative) i := by
  obtain ⟨hsign, hexp, hman⟩ := unpack_fields hi hb
  have hbias : Format.exponentBias .binary64 = 1023 := by decide
  have hfinite : @unpackExponent .binary64 b ≠ -1#_ := fun h => by
    have h := congrArg BitVec.toNat h
    rw [hexp] at h
    change i / leadingBit = 2047 at h
    unfold infinitePlace leadingBit at *
    omega
  have hzero : @unpackExponent .binary64 b = 0#_ ↔ i < leadingBit := by
    rw [← BitVec.toNat_inj, hexp]
    simp [leadingBit]
  have hnone : @unpackMantissa .binary64 b = 0#_ ↔ i % leadingBit = 0 := by
    rw [← BitVec.toNat_inj, hman]
    simp
  unfold UnpackedFloat.unpack
  dsimp only
  rw [if_neg hfinite, hsign, hexp, hbias]
  split
  · next hsub =>
    have hsub := hzero.1 hsub
    have hmod : i % leadingBit = i := Nat.mod_eq_of_lt hsub
    split
    · next h0 =>
      rw [hnone, hmod] at h0
      rw [h0, unpackedAt_zero]
    · next h0 =>
      rw [hnone, hmod] at h0
      rw [unpackedAt_of_ne h0]
      refine finite_congr _ _ ?_ ?_
      · rw [hman]
        unfold significand leadingBit at *
        omega
      · unfold lastPlace leadingBit at *
        omega
  · next hnormal =>
    have hnormal := mt hzero.2 hnormal
    rw [unpackedAt_of_ne (by unfold leadingBit at hnormal; omega)]
    refine finite_congr _ _ ?_ ?_
    · rw [BitVec.toNat_append, ← Nat.shiftLeft_add_eq_or_of_lt (BitVec.isLt _), hman,
        Nat.shiftLeft_eq]
      show 1 * 2 ^ 52 + _ = _
      unfold significand leadingBit at *
      omega
    · unfold lastPlace leadingBit at *
      omega

theorem unpack_floatAt (hi : i < infinitePlace) :
    (floatAt negative i).toModel.unpack = unpackedAt (signOf negative) i := by
  refine unpack_toNat hi ?_
  show (floatAt negative i).toBits.toNat = _
  rw [floatAt_bits, min_eq_left hi.le]

/-- Negation turns the sign. -/
theorem neg_floatAt (hi : i < infinitePlace) : -floatAt negative i = floatAt (!negative) i := by
  have hneg : ∀ x : Float, -x = .ofModel (.pack x.toModel.unpack.neg) := fun _ => rfl
  rw [hneg, unpack_floatAt hi]
  unfold floatAt
  congr 2
  by_cases h0 : i = 0
  · subst h0
    rw [unpackedAt_zero, unpackedAt_zero]
    cases negative <;> rfl
  · rw [unpackedAt_of_ne h0, unpackedAt_of_ne h0]
    cases negative <;> rfl

/-! ### Products and quotients -/

theorem exact_stands (m : ℕ) : Stands (.ofMantissaAndAccuracy m .exact) m := rfl

theorem gap_mul : gap i * gap j = 2 ^ (lastPlace i + lastPlace j) :=
  (zpow_add₀ (by norm_num) _ _).symm

theorem mul_eq (x y : Float) :
    x * y = .ofModel (.pack (.mul .binary64 x.toModel.unpack y.toModel.unpack)) := rfl

theorem div_eq (x y : Float) :
    x / y = .ofModel (.pack (.div .binary64 x.toModel.unpack y.toModel.unpack)) := rfl

/-- **A product of doubles is the nearest double.** -/
theorem mul_floatAt (hi : i < infinitePlace) (hj : j < infinitePlace) :
    ∃ k, Nearest (gridValue i * gridValue j) k ∧
      floatAt false i * floatAt false j = floatAt false k := by
  rw [mul_eq, unpack_floatAt hi, unpack_floatAt hj]
  by_cases hi0 : i = 0
  · subst hi0
    refine ⟨0, by rw [gridValue_zero, zero_mul]; exact Nearest.zero, ?_⟩
    by_cases hj0 : j = 0
    · subst hj0
      rfl
    · rw [unpackedAt_zero, unpackedAt_of_ne hj0]
      rfl
  by_cases hj0 : j = 0
  · subst hj0
    refine ⟨0, by rw [gridValue_zero, mul_zero]; exact Nearest.zero, ?_⟩
    rw [unpackedAt_zero, unpackedAt_of_ne hi0]
    rfl
  -- one of the factors has all its digits, or both have the least exponent
  have henough : leadingBit ≤ significand i * significand j ∨
      lastPlace i + lastPlace j ≤ -1074 := by
    have hsi := Nat.pos_of_ne_zero (mt significand_eq_zero.1 hi0)
    have hsj := Nat.pos_of_ne_zero (mt significand_eq_zero.1 hj0)
    by_cases h : leadingBit ≤ i
    · exact .inl ((le_significand h).trans (Nat.le_mul_of_pos_right _ hsj))
    by_cases h' : leadingBit ≤ j
    · exact .inl ((le_significand h').trans (Nat.le_mul_of_pos_left _ hsi))
    · right
      unfold lastPlace leadingBit at *
      omega
  obtain ⟨k, hk, h⟩ := roundWithAccuracy_eq (exact_stands (significand i * significand j)) henough
    .positive
  refine ⟨k, ?_, ?_⟩
  · rw [← gap_mul] at hk
    push_cast at hk
    convert hk using 1
    unfold gridValue
    ring
  · rw [unpackedAt_of_ne hi0, unpackedAt_of_ne hj0]
    unfold UnpackedFloat.mul
    dsimp only
    exact congrArg (fun u => Float.ofModel (.pack u)) h

/-- The rest of a division says where the quotient lies. -/
theorem stands_div (m : ℕ) {n : ℕ} (hn : 0 < n) :
    Stands (.ofMantissaAndAccuracy (m / n) (accuracyOfFraction (m % n) n)) ((m : ℚ) / n) := by
  have hnq : (0 : ℚ) < n := by exact_mod_cast hn
  have hm : (m : ℚ) / n = (m / n : ℕ) + ((m % n : ℕ) : ℚ) / n := by
    rw [div_eq_iff hnq.ne', add_mul, div_mul_cancel₀ _ hnq.ne']
    exact_mod_cast (Nat.div_add_mod' m n).symm
  have hrest : ((m % n : ℕ) : ℚ) / n < 1 := by
    rw [div_lt_one hnq]
    exact_mod_cast Nat.mod_lt m hn
  have htwice : 2 * (((m % n : ℕ) : ℚ) / n) = (2 * (m % n) : ℕ) / n := by
    rw [Nat.cast_mul, mul_div_assoc, Nat.cast_ofNat]
  rw [hm]
  unfold accuracyOfFraction
  split
  · next h0 => simp [Stands, ExtendedMantissa.ofMantissaAndAccuracy, h0]
  · next h0 =>
    rcases lt_trichotomy (2 * (m % n)) n with h | h | h
    · have hless : 2 * (((m % n : ℕ) : ℚ) / n) < 1 := by
        rw [htwice, div_lt_one hnq]
        exact_mod_cast h
      have hpos : 0 < ((m % n : ℕ) : ℚ) / n :=
        div_pos (by exact_mod_cast Nat.pos_of_ne_zero h0) hnq
      rw [Nat.compare_eq_lt.2 h]
      show ((m / n : ℕ) : ℚ) < _ + _ ∧ 2 * (_ + _) < 2 * ((m / n : ℕ) : ℚ) + 1
      exact ⟨by linarith, by linarith⟩
    · have hhalf : 2 * (((m % n : ℕ) : ℚ) / n) = 1 := by
        rw [htwice, h, div_self hnq.ne']
      rw [Nat.compare_eq_eq.2 h]
      show 2 * _ = 2 * ((m / n : ℕ) : ℚ) + 1
      rw [mul_add, hhalf]
    · have hmore : 1 < 2 * (((m % n : ℕ) : ℚ) / n) := by
        rw [htwice, one_lt_div hnq]
        exact_mod_cast h
      rw [Nat.compare_eq_gt.2 h]
      show 2 * ((m / n : ℕ) : ℚ) + 1 < 2 * (_ + _) ∧ _ + _ < ((m / n : ℕ) : ℚ) + 1
      exact ⟨by linarith, by linarith⟩

/-- The exponent of a quotient leaves room for all digits, if it is above the least. -/
theorem divCore_eq (m₁ m₂ : ℕ) (e₁ e₂ : ℤ) (h₁ : 0 < m₁) (h₂ : 0 < m₂) :
    ∃ shift e, e₁ - e₂ = e + (shift : ℕ) ∧
      (leadingBit ≤ m₁ * 2 ^ shift / m₂ ∨ e ≤ -1074) ∧
      divCore .binary64 m₁ e₁ m₂ e₂ =
        (m₁ * 2 ^ shift / m₂, e, accuracyOfFraction (m₁ * 2 ^ shift % m₂) m₂) := by
  obtain ⟨e, he⟩ : ∃ e, e = min (e₁ - e₂)
    (Format.targetExponent .binary64 (totalExponent m₁ e₁ - totalExponent m₂ e₂)) := ⟨_, rfl⟩
  obtain ⟨shift, hshift⟩ : ∃ n, n = (e₁ - e₂ - e).toNat := ⟨_, rfl⟩
  have htotal : totalExponent m₁ e₁ - totalExponent m₂ e₂ =
      (m₁.log2 : ℤ) - m₂.log2 + e₁ - e₂ := by
    unfold totalExponent
    ring
  have hmin : Format.minExponent .binary64 = -1074 := by decide
  have hbits : (Format.mantissaBits .binary64 : ℤ) = 53 := by decide
  refine ⟨shift, e, by omega, ?_, ?_⟩
  · rw [htotal, Format.targetExponent, hmin, hbits] at he
    by_cases hleast : e ≤ -1074
    · exact .inr hleast
    · left
      have hmore : m₂.log2 + 53 ≤ m₁.log2 + shift := by omega
      rw [Nat.le_div_iff_mul_le h₂]
      calc leadingBit * m₂ ≤ 2 ^ 52 * 2 ^ (m₂.log2 + 1) :=
            Nat.mul_le_mul_left _ Nat.lt_log2_self.le
        _ = 2 ^ (m₂.log2 + 53) := by rw [← pow_add]; congr 1; omega
        _ ≤ 2 ^ (m₁.log2 + shift) := Nat.pow_le_pow_right (by decide) hmore
        _ = 2 ^ m₁.log2 * 2 ^ shift := pow_add _ _ _
        _ ≤ m₁ * 2 ^ shift := Nat.mul_le_mul_right _ (Nat.log2_self_le (by omega))
  · unfold divCore
    dsimp only
    rw [← he, ← hshift, Nat.shiftLeft_eq]

/-- **A quotient of a double by a positive one is the nearest double**, with the sign of the
first. -/
theorem div_floatAt_signed (negative : Bool) (hi : i < infinitePlace) (hj : j < infinitePlace)
    (hj0 : j ≠ 0) : ∃ k, Nearest (gridValue i / gridValue j) k ∧
      floatAt negative i / floatAt false j = floatAt negative k := by
  rw [div_eq, unpack_floatAt hi, unpack_floatAt hj, unpackedAt_of_ne hj0]
  by_cases hi0 : i = 0
  · subst hi0
    refine ⟨0, by rw [gridValue_zero, zero_div]; exact Nearest.zero, ?_⟩
    rw [unpackedAt_zero]
    cases negative <;> rfl
  have hsi := Nat.pos_of_ne_zero (mt significand_eq_zero.1 hi0)
  have hsj := Nat.pos_of_ne_zero (mt significand_eq_zero.1 hj0)
  obtain ⟨shift, e, hexp, henough, hcore⟩ :=
    divCore_eq (significand i) (significand j) (lastPlace i) (lastPlace j) hsi hsj
  obtain ⟨k, hk, h⟩ := roundWithAccuracy_eq (stands_div _ hsj) henough (signOf negative)
  refine ⟨k, ?_, ?_⟩
  · convert hk using 1
    unfold gridValue gap
    rw [mul_div_mul_comm, ← zpow_sub₀ (by norm_num), hexp, zpow_add₀ (by norm_num), zpow_natCast]
    push_cast
    ring
  · rw [unpackedAt_of_ne hi0]
    unfold UnpackedFloat.div
    dsimp only
    rw [hcore]
    cases negative <;> exact congrArg (fun u => Float.ofModel (.pack u)) h

theorem div_floatAt (hi : i < infinitePlace) (hj : j < infinitePlace) (hj0 : j ≠ 0) :
    ∃ k, Nearest (gridValue i / gridValue j) k ∧
      floatAt false i / floatAt false j = floatAt false k :=
  div_floatAt_signed false hi hj hj0

/-! ### Whole numbers and powers of ten -/

/-- **A number is rounded to the nearest double.** -/
theorem round_eq {m : ℕ} (hm : 0 < m) (e : ℤ) (sign : Sign) :
    ∃ k, Nearest (m * 2 ^ e) k ∧ UnpackedFloat.round .binary64 sign m e = unpackedAt sign k := by
  obtain ⟨t, ht⟩ : ∃ t, t = max ((m.log2 : ℤ) + e - 52) (-1074) := ⟨_, rfl⟩
  obtain ⟨shift, hshift⟩ : ∃ n, n = (e - t).toNat := ⟨_, rfl⟩
  have hlog := Nat.log2_self_le (show m ≠ 0 by omega)
  have henough : leadingBit ≤ m * 2 ^ shift ∨ e - shift ≤ -1074 := by
    by_cases hless : m.log2 + shift < 52
    · right
      omega
    · left
      calc leadingBit = 2 ^ 52 := rfl
        _ ≤ 2 ^ (m.log2 + shift) := Nat.pow_le_pow_right (by decide) (by omega)
        _ = 2 ^ m.log2 * 2 ^ shift := pow_add _ _ _
        _ ≤ m * 2 ^ shift := Nat.mul_le_mul_right _ hlog
  obtain ⟨k, hk, h⟩ := roundWithAccuracy_eq (exact_stands (m * 2 ^ shift)) henough sign
  refine ⟨k, ?_, ?_⟩
  · convert hk using 1
    rw [show e = shift + (e - shift) by ring, zpow_add₀ (by norm_num), zpow_natCast,
      add_sub_cancel_left]
    push_cast
    ring
  · unfold UnpackedFloat.round decreaseExponent
    rw [targetExponent_eq]
    dsimp only
    rw [← ht, ← hshift, Nat.shiftLeft_eq]
    exact h

/-- A number of at most 53 binary digits before the point, and of more if they are zeros, is on the
grid. -/
theorem exists_gridValue_shifted {m : ℕ} (hm : m < 2 * leadingBit) (e : ℕ) :
    ∃ i, gridValue i = m * 2 ^ e := by
  by_cases h0 : m = 0
  · exact ⟨0, by rw [h0, gridValue_zero, Nat.cast_zero, zero_mul]⟩
  have hlog := log2_le hm
  obtain ⟨n, hn⟩ : ∃ n, m.log2 + n = 52 := ⟨52 - m.log2, by omega⟩
  have hlow : leadingBit ≤ m * 2 ^ n := by
    calc leadingBit = 2 ^ (m.log2 + n) := by rw [hn]; rfl
      _ = 2 ^ m.log2 * 2 ^ n := pow_add _ _ _
      _ ≤ m * 2 ^ n := Nat.mul_le_mul_right _ (Nat.log2_self_le h0)
  have hhigh : m * 2 ^ n ≤ 2 * leadingBit := by
    calc m * 2 ^ n ≤ 2 ^ (m.log2 + 1) * 2 ^ n := Nat.mul_le_mul_right _ Nat.lt_log2_self.le
      _ = 2 ^ (m.log2 + n + 1) := by rw [← pow_add]; congr 1; omega
      _ = 2 * leadingBit := by rw [hn]; rfl
  refine ⟨placeOf (m * 2 ^ n) (e - n), ?_⟩
  rw [gridValue_placeOf (by omega) hhigh (fun _ => hlow), zpow_sub₀ two_ne_zero, zpow_natCast,
    zpow_natCast]
  push_cast
  field_simp

/-- A whole number of at most 53 binary digits is a double. -/
theorem exists_gridValue {m : ℕ} (hm : m < 2 * leadingBit) : ∃ i, gridValue i = m := by
  obtain ⟨i, hi⟩ := exists_gridValue_shifted hm 0
  exact ⟨i, by rw [hi, pow_zero, mul_one]⟩

/-- What is no less than one is not rounded below it. -/
theorem Nearest.one_le {v : ℚ} (h : Nearest v i) (hv : 1 ≤ v) : 1 ≤ gridValue i := by
  obtain ⟨k, hk⟩ := exists_gridValue (show 1 < 2 * leadingBit by decide)
  rw [Nat.cast_one] at hk
  rw [← hk] at hv ⊢
  exact gridValue_strictMono.monotone (h.ge_of_le hv)

theorem gridValue_greatest : gridValue (infinitePlace - 1) = (9007199254740991 * 2 ^ 971 : ℕ) := by
  have hs : significand (infinitePlace - 1) = 9007199254740991 := by decide
  have hp : lastPlace (infinitePlace - 1) = (971 : ℕ) := by decide
  rw [gridValue, gap, hs, hp, zpow_natCast, Nat.cast_mul, Nat.cast_pow]
  rfl

/-- The powers of ten in the range of doubles. -/
theorem pow_le_greatest {n : ℕ} (hn : n ≤ 308) : (10 : ℚ) ^ n ≤ gridValue (infinitePlace - 1) := by
  have h : 10 ^ n ≤ 9007199254740991 * 2 ^ 971 :=
    (Nat.pow_le_pow_right (by decide) hn).trans (by decide +kernel)
  have h := Nat.cast_le (α := ℚ) |>.2 h
  rw [gridValue_greatest]
  rwa [Nat.cast_pow, Nat.cast_ofNat] at h

theorem Nearest.finite {v : ℚ} (h : Nearest v i) (hv : v ≤ gridValue (infinitePlace - 1)) :
    i < infinitePlace := by
  have hle := h.le_of_le hv
  unfold infinitePlace at *
  omega

/-- A whole number of 64 bits is in the range of doubles. -/
theorem Nearest.finite_of_le {m : ℕ} (h : Nearest m i) (hm : m ≤ uint64Max) : i < infinitePlace := by
  refine h.finite (le_trans ?_ (pow_le_greatest (show 20 ≤ 308 by decide)))
  exact_mod_cast (by unfold uint64Max at hm; omega : m ≤ 10 ^ 20)

theorem toFloat_eq {m : ℕ} (hm : m < 2 * leadingBit) :
    ∃ i, i < infinitePlace ∧ gridValue i = m ∧ m.toUInt64.toFloat = floatAt false i := by
  obtain ⟨i, hi⟩ := exists_gridValue hm
  have hself := Nearest.self i
  rw [hi] at hself
  have hfit : (m.toUInt64.toNat : ℤ) = m := by
    rw [Nat.toUInt64, UInt64.toNat_ofNat', Nat.mod_eq_of_lt]
    unfold leadingBit at hm
    omega
  have hmodel : m.toUInt64.toFloat = .ofModel (.pack (normalize .binary64 m 0 .positive)) := by
    rw [← hfit]
    rfl
  refine ⟨i, hself.finite_of_le (by unfold leadingBit at hm; unfold uint64Max; omega), hi, ?_⟩
  rw [hmodel]
  by_cases h0 : m = 0
  · rw [h0, Nat.cast_zero, ← gridValue_zero] at hself
    rw [h0, hself.unique (.self 0)]
    rfl
  · obtain ⟨k, hk, hround⟩ := round_eq (Nat.pos_of_ne_zero h0) 0 .positive
    rw [zpow_zero, mul_one] at hk
    have hpos : compare (m : ℤ) 0 = .gt := by
      rw [Int.compare_eq_gt]
      omega
    unfold UnpackedFloat.normalize
    rw [hpos, hself.unique hk]
    exact congrArg (fun u => Float.ofModel (.pack u)) hround

/-- The powers of ten of the table are exact. -/
theorem table_checked : ∀ k : Fin Float.exactlyRepresentablePowersOfTen.size,
    isFinite Float.exactlyRepresentablePowersOfTen[k] = true ∧
      isNegative Float.exactlyRepresentablePowersOfTen[k] = false ∧
      significand (place Float.exactlyRepresentablePowersOfTen[k]) *
          2 ^ (lastPlace (place Float.exactlyRepresentablePowersOfTen[k])).toNat =
        10 ^ k.val * 2 ^ (-lastPlace (place Float.exactlyRepresentablePowersOfTen[k])).toNat := by
  decide +kernel

/-- A whole number, written with powers of two that have no negative exponents. -/
theorem gridValue_eq_of_scaled {m : ℕ}
    (h : significand i * 2 ^ (lastPlace i).toNat = m * 2 ^ (-lastPlace i).toNat) :
    gridValue i = m := by
  have h : (significand i : ℚ) * 2 ^ (lastPlace i).toNat = m * 2 ^ (-lastPlace i).toNat := by
    exact_mod_cast h
  have hexp : lastPlace i + (-lastPlace i).toNat = (lastPlace i).toNat := by omega
  refine mul_right_cancel₀ (pow_ne_zero (-lastPlace i).toNat (two_ne_zero (α := ℚ))) ?_
  rw [← h, gridValue, gap, mul_assoc, ← zpow_natCast 2 (-lastPlace i).toNat,
    ← zpow_natCast 2 (lastPlace i).toNat, ← zpow_add₀ two_ne_zero, hexp]

theorem table_eq {n : ℕ} (hn : n < Float.exactlyRepresentablePowersOfTen.size) :
    ∃ i, i < infinitePlace ∧ gridValue i = 10 ^ n ∧
      Float.exactlyRepresentablePowersOfTen[n] = floatAt false i := by
  obtain ⟨hfinite, hsign, hvalue⟩ := table_checked ⟨n, hn⟩
  refine ⟨_, isFinite_iff.1 hfinite, ?_, ?_⟩
  · exact_mod_cast gridValue_eq_of_scaled hvalue
  · rw [← hsign]
    exact (floatAt_place hfinite).symm

/-- A number and a power of ten are multiplied and then rounded. -/
theorem scientific_eq {m n : ℕ} (hm : m ≠ 0) (hn : n ≤ 2048) : ∃ k, Nearest (m * 10 ^ n) k ∧
    UnpackedFloat.ofScientific .binary64 m n = unpackedAt .positive k := by
  have hlarge : ¬ (n : ℤ) > 2 ^ Format.exponentBits .binary64 := by
    show ¬ (n : ℤ) > 2048
    omega
  have hsmall : ¬ (n : ℤ) < -((2 ^ Format.exponentBits .binary64 : ℤ) + m.log2) := by
    show ¬ (n : ℤ) < -((2048 : ℤ) + m.log2)
    omega
  have henough : leadingBit ≤ m <<< 53 * 10 ^ n := by
    rw [Nat.shiftLeft_eq]
    calc leadingBit ≤ 1 * 2 ^ 53 * 1 := by decide
      _ ≤ m * 2 ^ 53 * 10 ^ n := by
        gcongr
        · omega
        · exact Nat.one_le_pow _ _ (by decide)
  obtain ⟨k, hk, hround⟩ := roundWithAccuracy_eq (exact_stands _) (.inl henough) .positive
    (e := -53 + 0)
  refine ⟨k, ?_, ?_⟩
  · convert hk using 1
    have hpow : (2 : ℚ) ^ 53 * 2 ^ (-53 : ℤ) = 1 := by norm_num
    rw [Nat.shiftLeft_eq, add_zero]
    push_cast
    linear_combination (-(m : ℚ) * 10 ^ n) * hpow
  · unfold UnpackedFloat.ofScientific
    rw [dif_neg hm, if_neg hlarge, if_neg hsmall, if_pos (by omega)]
    exact hround

/-- **A decimal without fraction is read as the nearest double.** -/
theorem ofScientific_eq (m : ℕ) {n : ℕ} (hn : n ≤ 2048) :
    ∃ k, Nearest (m * 10 ^ n) k ∧ Float.ofScientific m false n = floatAt false k := by
  unfold Float.ofScientific
  split
  · next h =>
    -- both are exact
    have hsize : n < Float.exactlyRepresentablePowersOfTen.size := by
      show n < 23
      omega
    obtain ⟨i, hi, hm, hfloat⟩ := toFloat_eq (show m < 2 * leadingBit from h.1)
    obtain ⟨j, hj, hten, htable⟩ := table_eq hsize
    obtain ⟨k, hk, hprod⟩ := mul_floatAt hi hj
    rw [hm, hten] at hk
    refine ⟨k, hk, ?_⟩
    dsimp only
    rw [if_neg (by decide), hfloat, htable, hprod]
  · next h =>
    show ∃ k, _ ∧ Float.ofModel (.pack (UnpackedFloat.ofScientific .binary64 m n)) = _
    by_cases h0 : m = 0
    · refine ⟨0, ?_, by rw [h0]; rfl⟩
      rw [h0, Nat.cast_zero, zero_mul]
      exact Nearest.zero
    · obtain ⟨k, hk, hscientific⟩ := scientific_eq h0 hn
      exact ⟨k, hk, congrArg (fun u => Float.ofModel (.pack u)) hscientific⟩

/-- **A whole number of 64 bits becomes the nearest double.** -/
theorem ofNat_eq {m : ℕ} (hm : m ≤ uint64Max) :
    ∃ k, k < infinitePlace ∧ Nearest m k ∧ Float.ofNat m = floatAt false k := by
  obtain ⟨k, hk, h⟩ := ofScientific_eq m (show 0 ≤ 2048 by decide)
  rw [pow_zero, mul_one] at hk
  exact ⟨k, hk.finite_of_le hm, hk, h⟩

/-- A literal zero. -/
theorem floatAt_zero : (0 : Float) = floatAt false 0 := by
  obtain ⟨k, -, hk, h⟩ := ofNat_eq (Nat.zero_le uint64Max)
  rw [Nat.cast_zero] at hk
  rw [Nearest.zero.unique hk]
  exact h

/-! ### Special values -/

/-- All doubles past the greatest are infinite. -/
theorem floatAt_infinite (hi : infinitePlace ≤ i) :
    floatAt negative i = floatAt negative infinitePlace := by
  refine float_ext ?_
  rw [floatAt_bits, floatAt_bits, min_eq_right hi, min_self]

/-- A finite double is equal to zero only if it is. -/
theorem beq_zero_floatAt (hi : i < infinitePlace) (hi0 : i ≠ 0) :
    (floatAt false i == 0) = false := by
  rw [← Bool.not_eq_true, beq_iff_compare, floatAt_zero, unpack_floatAt hi,
    unpack_floatAt (by decide), unpackedAt_of_ne hi0, unpackedAt_zero]
  nofun

/-- A finite double is not equal to an infinite one. -/
theorem beq_infinite_floatAt (hi : i < infinitePlace) (b : Bool) :
    (floatAt negative i == floatAt b infinitePlace) = false := by
  have hinf : (floatAt b infinitePlace).toModel.unpack = .infinity (signOf b) := by
    cases b <;> rfl
  rw [← Bool.not_eq_true, beq_iff_compare, unpack_floatAt hi, hinf]
  by_cases hi0 : i = 0
  · rw [hi0, unpackedAt_zero]
    cases b <;> nofun
  · rw [unpackedAt_of_ne hi0]
    cases b <;> nofun

end TelemetryRelay.Decimal
