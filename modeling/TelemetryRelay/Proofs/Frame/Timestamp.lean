import TelemetryRelay.Frame

/-!
# The times of frames

A time is a whole number of 64 signed bits. The reader of documents never gives a whole number below
that range, and a sample refuses one above it, so the time of a frame lies in the range as soon as
the time at which its message arrived does.

* `readValue_cases`: what a document that was read can be.
* `Literal.le_of_number?`, `readFields_le`: no whole number that is read lies below the range.
* `Frame.decode_isTime`: **the time of a decoded frame lies in the range.**
-/

namespace TelemetryRelay

/-- A whole number of 64 signed bits. -/
def Decimal.IsInt64 (i : Int) : Prop := int64Min ≤ i ∧ i ≤ int64Max

namespace Json

open Decimal (int64Min)

variable {i : Int} {n : Number} {cs rest : List Char} {fuel depth : Nat}
  {fields : List (String × Json)}

/-- A whole number of a numeral is not below the range. -/
theorem Literal.le_of_number? {l : Literal} (h : l.number? = some (.integer i)) : int64Min ≤ i := by
  unfold Literal.number? at h
  dsimp only at h
  split at h
  · split at h
    · cases h
      exact Int.le_trans (by decide) (Int.natCast_nonneg _)
    · split at h
      · cases h
      · rename_i hlow
        cases h
        exact Int.not_lt.1 (not_or.1 hlow).2
  · -- digits, a fraction or an exponent that did not fit make a double
    obtain ⟨x, -, hx⟩ := Option.map_eq_some_iff.1 h
    cases hx

theorem le_of_readNumber (h : readNumber cs = some (.integer i, rest)) : int64Min ≤ i := by
  unfold readNumber at h
  obtain ⟨⟨l, more⟩, -, h⟩ := Option.bind_eq_some_iff.1 h
  obtain ⟨n, hn, h⟩ := Option.bind_eq_some_iff.1 h
  cases h
  exact l.le_of_number? hn

/-- **What a document that was read can be**: a number that was read, an object without fields or
with fields that were read, or something that is neither. -/
theorem readValue_cases {j : Json} (h : readValue (fuel + 1) depth cs = some (j, rest)) :
    (∃ n more, j = .number n ∧ readNumber more = some (n, rest)) ∨
    (∃ fields, j = .object fields ∧
      (fields = [] ∨ ∃ depth more, readFields fuel depth more = some (fields, rest))) ∨
    ((∀ n, j ≠ .number n) ∧ ∀ fields, j ≠ .object fields) := by
  rw [readValue] at h
  split at h
  case h_7 =>
    obtain ⟨⟨n, more⟩, hn, h⟩ := Option.map_eq_some_iff.1 h
    cases h
    exact Or.inl ⟨n, _, rfl, hn⟩
  case h_6 =>
    split at h
    · cases h
    split at h
    · cases h
      exact Or.inr (Or.inl ⟨[], rfl, Or.inl rfl⟩)
    · obtain ⟨⟨fields, more⟩, hf, h⟩ := Option.map_eq_some_iff.1 h
      cases h
      exact Or.inr (Or.inl ⟨fields, rfl, Or.inr ⟨_, _, hf⟩⟩)
  case h_5 =>
    split at h
    · cases h
    split at h
    · cases h
      exact Or.inr (Or.inr ⟨fun _ => Json.noConfusion, fun _ => Json.noConfusion⟩)
    · obtain ⟨⟨items, more⟩, -, h⟩ := Option.map_eq_some_iff.1 h
      cases h
      exact Or.inr (Or.inr ⟨fun _ => Json.noConfusion, fun _ => Json.noConfusion⟩)
  all_goals
    obtain ⟨p, -, h⟩ := Option.map_eq_some_iff.1 h
    cases h
    exact Or.inr (Or.inr ⟨fun _ => Json.noConfusion, fun _ => Json.noConfusion⟩)

/-- A document that is a whole number comes from a numeral. -/
theorem le_of_readValue (h : readValue fuel depth cs = some (.number (.integer i), rest)) :
    int64Min ≤ i := by
  cases fuel with
  | zero => cases h
  | succ fuel =>
    rcases readValue_cases h with ⟨n, more, hj, hn⟩ | ⟨fields, hj, -⟩ | ⟨hnone, -⟩
    · cases hj
      exact le_of_readNumber hn
    · cases hj
    · exact absurd rfl (hnone _)

/-- **No field that is read holds a whole number below the range.** -/
theorem readFields_le : ∀ {fuel : Nat} {cs rest : List Char} {fields : List (String × Json)},
    readFields fuel depth cs = some (fields, rest) →
      ∀ p ∈ fields, ∀ i, p.2 = .number (.integer i) → int64Min ≤ i := by
  intro fuel
  induction fuel with
  | zero => intro cs rest fields h; cases h
  | succ fuel ih =>
    intro cs rest fields h
    rw [readFields] at h
    split at h
    case h_2 => cases h
    obtain ⟨⟨key, more⟩, -, h⟩ := Option.bind_eq_some_iff.1 h
    dsimp only at h
    split at h
    case h_2 => cases h
    obtain ⟨⟨value, more⟩, hv, h⟩ := Option.bind_eq_some_iff.1 h
    dsimp only at h
    have hhead : ∀ i, value = .number (.integer i) → int64Min ≤ i :=
      fun i hi => le_of_readValue (hi ▸ hv)
    split at h
    case h_1 =>
      cases h
      intro p hp i hi
      rw [List.mem_singleton.1 hp] at hi
      exact hhead i hi
    case h_2 =>
      obtain ⟨⟨tail, more⟩, ht, h⟩ := Option.bind_eq_some_iff.1 h
      cases h
      intro p hp i hi
      rcases List.mem_cons.1 hp with rfl | hp
      · exact hhead i hi
      · exact ih ht p hp i hi
    case h_3 => cases h

theorem readObject_le (h : readValue fuel depth cs = some (.object fields, rest)) :
    ∀ p ∈ fields, ∀ i, p.2 = .number (.integer i) → int64Min ≤ i := by
  cases fuel with
  | zero => cases h
  | succ fuel =>
    rcases readValue_cases h with ⟨n, more, hj, -⟩ | ⟨fs, hj, hf⟩ | ⟨-, hnone⟩
    · cases hj
    · cases hj
      rcases hf with rfl | ⟨depth, more, hf⟩
      · intro p hp; cases hp
      · exact readFields_le hf
    · exact absurd rfl (hnone _)

end Json

open Decimal (IsInt64)

/-- The time that a sample gives lies in the range. -/
theorem Sample.isTime {fuel depth : Nat} {cs rest : List Char} {j : Json} {sample : Sample}
    (hj : Json.readValue fuel depth cs = some (j, rest)) (h : ofJson? j = some sample) :
    ∀ i ∈ sample.timestamp, IsInt64 i := by
  intro i hi
  unfold ofJson? at h
  split at h
  case h_1 => cases h; cases hi
  case h_3 => cases h
  case h_2 fields =>
    split at h
    case h_1 => cases h; cases hi
    case h_3 => cases h
    case h_2 time hvalue htime =>
      obtain ⟨t, ht, h⟩ := Option.map_eq_some_iff.1 h
      cases h
      unfold timestamp? at ht
      split at ht
      case h_1 => cases ht; cases hi
      case h_3 => cases ht
      case h_2 k =>
        split at ht
        case isFalse => cases ht
        case isTrue hk =>
          cases ht; cases hi
          -- the time is the value of one of the fields that were read
          have hm : Json.number (.integer i) ∈ Json.valuesOf "timestamp" fields := by
            rw [htime]; exact List.mem_singleton.2 rfl
          obtain ⟨p, hp, hpk⟩ := List.mem_map.1 hm
          exact ⟨Json.readObject_le hj p (List.mem_filter.1 hp).1 i hpk, hk⟩

/-- **The time of a decoded frame lies in the range**, if the time of arrival does. -/
theorem Frame.decode_isTime {channel : String} {payload : List UInt8} {receivedAt : Int}
    {frame : Frame} (hr : IsInt64 receivedAt)
    (h : decode channel payload receivedAt = .ok frame) : IsInt64 frame.timestamp := by
  unfold decode at h
  dsimp only at h
  split at h
  case h_1 => cases h
  case h_2 j rest hj =>
    split at h
    case h_1 => cases h
    case h_2 sample hs =>
      split at h
      case isFalse => cases h
      case isTrue =>
        cases h
        dsimp only
        cases ht : sample.timestamp with
        | none => exact hr
        | some i => exact Sample.isTime hj hs i ht

end TelemetryRelay
