import Mathlib.Order.Compare
import TelemetryRelay.Decimal.FloatText

/-!
# Comparing doubles

A double that is no number is in no order to any other, itself included. Any two others are: of
`x < y`, `x == y` and `y < x` exactly one holds (`lt_iff_of_finite`). For finite doubles, then, a
range is sound exactly if its ends are neither equal nor exchanged.
-/

namespace TelemetryRelay.Decimal

open Float.Model (UnpackedFloat)

/-- Comparing the other way round gives the opposite answer. -/
theorem compare_swap (a b : UnpackedFloat) : b.compare a = (a.compare b).map Ordering.swap := by
  cases a with
  | notANumber => cases b <;> rfl
  | infinity s =>
    cases b with
    | notANumber => cases s <;> rfl
    | infinity t => cases s <;> cases t <;> rfl
    | zero t => cases s <;> rfl
    | finite t => cases s <;> cases t <;> rfl
  | zero s =>
    cases b with
    | notANumber => rfl
    | infinity t => cases t <;> rfl
    | zero t => rfl
    | finite t => cases t <;> rfl
  | finite s m e =>
    cases b with
    | notANumber => cases s <;> rfl
    | infinity t => cases s <;> cases t <;> rfl
    | zero t => cases s <;> rfl
    | finite t m' e' =>
      have h : (compare e' e).then (compare m' m) = ((compare e e').then (compare m m')).swap := by
        rw [Ordering.swap_then, ← Int.compare_swap, ← Nat.compare_swap]
      cases s <;> cases t
      -- of two negative numbers the greater magnitude is the lesser
      · exact congrArg (fun o => some o.swap) h
      · rfl
      · rfl
      · exact congrArg some h

/-- Only what is no number cannot be compared. -/
theorem compare_isSome {a b : UnpackedFloat} (ha : a ≠ .notANumber) (hb : b ≠ .notANumber) :
    ∃ o, a.compare b = some o := by
  unfold UnpackedFloat.compare
  split
  case h_1 => exact absurd rfl ha
  case h_2 => exact absurd rfl hb
  all_goals exact ⟨_, rfl⟩

theorem lt_iff_compare (x y : Float) :
    x < y ↔ x.toModel.unpack.compare y.toModel.unpack = some .lt := by
  show (decide (x.toModel < y.toModel) = true) ↔ _
  rw [decide_eq_true_iff]
  show (x.toModel.unpack.compare y.toModel.unpack == some .lt) = true ↔ _
  exact beq_iff_eq

theorem beq_iff_compare (x y : Float) :
    (x == y) = true ↔ x.toModel.unpack.compare y.toModel.unpack = some .eq := by
  show (x.toModel.unpack.compare y.toModel.unpack == some .eq) = true ↔ _
  exact beq_iff_eq

open Float.Model.UnpackedFloat (unpackExponent) in
/-- The exponent field of a double, as a number. -/
theorem unpackExponent_toNat (b : BitVec 64) :
    (@unpackExponent .binary64 b).toNat = b.toNat / leadingBit % 0x800 := by
  simp only [unpackExponent, BitVec.toNat_cast, BitVec.extractLsb_toNat, Nat.shiftRight_eq_div_pow]
  rfl

/-- A double whose exponent field is all ones is not finite. -/
theorem exponent_of_finite {x : Float} (h : isFinite x = true) :
    x.toBits.toNat / leadingBit % 0x800 ≠ 2047 := by
  intro he
  unfold isFinite Binary.ofFloat Binary.ofBits at h
  simp only [he, if_true] at h
  by_cases hz : x.toBits.toNat % leadingBit = 0
  · simp [hz] at h
  · simp [hz] at h

/-- A finite double is a number. -/
theorem unpack_ne_of_finite {x : Float} (h : isFinite x = true) :
    x.toModel.unpack ≠ .notANumber := by
  intro hn
  unfold Float.Model.unpack UnpackedFloat.unpack at hn
  dsimp only at hn
  rcases ite_eq_iff.1 hn with ⟨hexp, -⟩ | ⟨-, hn⟩
  · have := congrArg BitVec.toNat hexp
    rw [unpackExponent_toNat] at this
    exact exponent_of_finite h this
  -- a zero, a subnormal and a normal double are numbers
  rcases ite_eq_iff.1 hn with ⟨-, hn⟩ | ⟨-, hn⟩
  · rcases dite_eq_iff.1 hn with ⟨_, hn⟩ | ⟨_, hn⟩
    · cases hn
    · cases hn
  · cases hn

/-- **The order of finite doubles is total.** -/
theorem lt_iff_of_finite {x y : Float} (hx : isFinite x = true) (hy : isFinite y = true) :
    x < y ↔ (x == y) = false ∧ ¬ y < x := by
  obtain ⟨o, ho⟩ := compare_isSome (unpack_ne_of_finite hx) (unpack_ne_of_finite hy)
  have hs := compare_swap x.toModel.unpack y.toModel.unpack
  have hb := beq_iff_compare x y
  rw [lt_iff_compare, lt_iff_compare, hs, ← Bool.not_eq_true, hb, ho]
  cases o <;> simp

end TelemetryRelay.Decimal
