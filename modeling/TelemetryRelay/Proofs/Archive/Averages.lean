import TelemetryRelay.Http.Server
import TelemetryRelay.Proofs.Archive.Downsampling
import TelemetryRelay.Proofs.Frame.RoundTrip

/-!
# The values of a downsampled series

The mean of a bucket is its sum divided by its size. A division by a count does not go past the
doubles, but the sum before it may, and then the mean is infinite, however small the quotient would
have been. An infinite value has no text but `null`.

* `mean_cases`: the mean of finite doubles is finite, or their sum overflows.
* `points_document`: the document that the text of a series is.
* `downsample_values`: **which values of a downsampled series are finite**, and what its text says
  in their places.
* `average_overflows`: two equal values whose mean is infinite.
-/

namespace TelemetryRelay

namespace Decimal

variable {j : ℕ} {a : Bool} {x : Float} {values : List Float}

/-- Dividing by a count leaves infinity as it is. -/
theorem infinite_div (hj : j < infinitePlace) :
    floatAt a infinitePlace / floatAt false j = floatAt a infinitePlace := by
  rw [div_eq, unpack_floatAt hj]
  by_cases hj0 : j = 0
  · rw [hj0, unpackedAt_zero]
    cases a <;> rfl
  · rw [unpackedAt_of_ne hj0]
    cases a <;> rfl

theorem not_isFinite_infinite : isFinite (floatAt a infinitePlace) = false := by
  rw [← Bool.not_eq_true, isFinite_iff, place_floatAt, min_self]
  exact lt_irrefl _

/-- One finite double does not overflow. -/
theorem not_overflows_singleton (hx : isFinite x = true) : ¬ Overflows [x] := by
  have hsum : exactValue (total []) = 0 := by
    rw [total, List.foldl_nil, floatAt_neg_zero, exactValue_floatAt (by decide), signedValue_zero]
  rw [← List.nil_append [x], overflows_concat, hsum, zero_add, exactValue, abs_signedValue,
    not_or, not_le]
  exact ⟨not_overflows_nil, (Nearest.self (place x)).lt_infinite_iff.1 (isFinite_iff.1 hx)⟩

/-- A quotient by a count is finite. -/
theorem isFinite_div_ofNat {n : ℕ} (hx : isFinite x = true) (hn : 0 < n) (hfit : n < 2 * leadingBit) :
    isFinite (x / Float.ofNat n) = true := by
  obtain ⟨j, hj, hvalue, hfloat⟩ := ofNat_exact hfit
  have hone : (1 : ℚ) ≤ gridValue j := by
    rw [hvalue]
    exact_mod_cast hn
  have hj0 : j ≠ 0 := by
    rintro rfl
    rw [gridValue_zero] at hone
    exact absurd hone (by norm_num)
  have hi := isFinite_iff.1 hx
  obtain ⟨k, hk, hquotient⟩ := div_floatAt_signed (isNegative x) hi hj hj0
  rw [floatAt_place hx, ← hfloat] at hquotient
  rw [hquotient]
  exact isFinite_floatAt ((hk.le_of_le (div_le_self (gridValue_nonneg _) hone)).trans_lt hi)

end Decimal

namespace Downsample

open Decimal

variable {values : List Float}

/-- **The mean of finite doubles is finite, or their sum overflows** and the mean is infinite. -/
theorem mean_cases (hne : values ≠ []) (hfit : values.length < 2 * leadingBit)
    (h : ∀ v ∈ values, isFinite v = true) :
    isFinite (mean values) = true ∧ ¬ Overflows values ∨
      (∃ c, mean values = floatAt c infinitePlace) ∧ Overflows values := by
  have hmean : mean values = total values / Float.ofNat values.length := rfl
  rw [hmean]
  rcases total_cases h with ⟨hsum, hno⟩ | ⟨⟨c, hc⟩, hyes⟩
  · exact .inl ⟨isFinite_div_ofNat hsum (List.length_pos_of_ne_nil hne) hfit, hno⟩
  · obtain ⟨j, hj, -, hfloat⟩ := ofNat_exact hfit
    exact .inr ⟨⟨c, by rw [hc, hfloat, infinite_div hj]⟩, hyes⟩

/-- The points that the `k`-th point of a downsampled series stands for: one, if the series is
short enough, and else those of a bucket. -/
def sources (limit : ℕ) (points : List Point) (k : ℕ) : List Point :=
  if limit = 0 ∨ points.length ≤ limit then bucketAt 1 points k
  else bucketAt (points.length ⌈/⌉ limit) points k

theorem bucketAt_one (points : List Point) (k : ℕ) : bucketAt 1 points k = points[k]?.toList := by
  rw [bucketAt, Nat.mul_one, List.take_one, List.head?_drop]

theorem bucketAt_sublist (size : ℕ) (points : List Point) (k : ℕ) :
    (bucketAt size points k).Sublist points :=
  (List.take_sublist _ _).trans (List.drop_sublist _ _)

theorem length_bucketAt_le {size : ℕ} {points : List Point} {k : ℕ} :
    (bucketAt size points k).length ≤ size := by
  rw [length_bucketAt]
  exact min_le_left _ _

end Downsample

open Decimal Downsample
open Json (Document NumberText ReadsBack ValueText)

/-! ### The text of a series -/

/-- **What the text of a double is read as**: a double beside it, or null if it is not finite. -/
inductive Json.ReadsAs (x : Float) : Json → Prop where
  | number {y : Float} (hx : isFinite x = true) (hy : ReadsBack x y) : ReadsAs x (.ofFloat y)
  | null (hx : isFinite x = false) : ReadsAs x .null

theorem Json.exists_readsAs (x : Float) : ∃ j, ReadsAs x j := by
  cases hx : isFinite x with
  | true =>
    obtain ⟨y, hy⟩ := exists_readsBack hx
    exact ⟨_, .number hx hy⟩
  | false => exact ⟨_, .null hx⟩

theorem Json.ReadsAs.valueText {x : Float} {j : Json} (h : ReadsAs x j) (depth : ℕ) :
    ValueText depth (chars (.ofFloat x)) j := by
  cases h with
  | number hx hy => exact .number hy.numberText
  | null hx =>
    have htext : chars (.ofFloat x) = ['n', 'u', 'l', 'l'] := by
      refine if_neg ?_
      rw [hx]
      exact Bool.false_ne_true
    rw [htext]
    exact .null

theorem Json.ReadsAs.eq_null {x : Float} {j : Json} (h : ReadsAs x j) (hx : isFinite x = false) :
    j = .null := by
  cases h with
  | number hx' _ => exact absurd (hx'.symm.trans hx) (by decide)
  | null _ => rfl

/-- The document of a sample, with `j` in the place of its value. -/
def Point.reading (p : Point) (j : Json) : Json :=
  .object [("timestamp", .ofInt p.time), ("value", j)]

theorem Point.valueText {p : Point} {j : Json} (htime : IsInt64 p.time)
    (hj : Json.ReadsAs p.value j) (depth : ℕ) :
    ValueText (depth + 1) (Json.chars p.toJson) (p.reading j) := by
  have hstamp : NumberText (Decimal.ofInt p.time) (.integer p.time) :=
    Json.numberText_integer_iff.2 ⟨rfl, htime.1, htime.2.trans (by decide)⟩
  exact @Json.valueText_fields depth
    [("timestamp", .ofInt p.time, .ofInt p.time), ("value", .ofFloat p.value, j)] (by
    simp only [List.forall_mem_cons]
    exact ⟨.number hstamp, hj.valueText _, nofun⟩)

/-- **The text of a series is a document** of its points in their order, each with what the text of
its value is read as. -/
theorem points_document {read : Float → Json} (hread : ∀ x, Json.ReadsAs x (read x))
    {points : List Point} (htime : ∀ p ∈ points, IsInt64 p.time) :
    Document (Http.showPoints (.ok points)).body.toList
      (.array (points.map fun p => p.reading (read p.value))) := by
  obtain ⟨depth, hdepth⟩ : ∃ depth, Json.nestingLimit = depth + 1 + 1 := ⟨_, rfl⟩
  have hitems := @Json.valueText_items (depth + 1)
    (points.map fun p => (p.toJson, p.reading (read p.value))) (by
    rw [List.forall_mem_map]
    intro p hp
    exact p.valueText (htime p hp) (hread _) depth)
  rw [List.map_map, List.map_map] at hitems
  refine ⟨[], _, [], nofun, nofun, ?_, hdepth ▸ hitems⟩
  rw [List.append_nil, List.nil_append]
  exact String.toList_ofList

/-! ### The values of a series -/

section Values

variable {limit : ℕ} {points : List Point}

/-- The values of a series that is kept do not overflow. -/
theorem not_overflows_short (hshort : limit = 0 ∨ points.length ≤ limit)
    (hvalues : ∀ p ∈ points, isFinite p.value = true) (k : ℕ) :
    ¬ Overflows ((sources limit points k).map (·.value)) := by
  rw [sources, if_pos hshort, bucketAt_one]
  cases hp : points[k]? with
  | none => exact not_overflows_nil
  | some p => exact not_overflows_singleton (hvalues p (List.mem_of_getElem? hp))

/-- A value of a series that is cut is the mean of a bucket. -/
theorem value_eq_mean (hl : 0 < limit) (hlong : limit < points.length)
    (hn : points.length < 2 * leadingBit) {k : ℕ} {p : Point}
    (hp : (downsample limit points)[k]? = some p) :
    bucketAt (points.length ⌈/⌉ limit) points k ≠ [] ∧
      p.value = mean ((bucketAt (points.length ⌈/⌉ limit) points k).map (·.value)) := by
  obtain ⟨-, -, -, -, hthin, -⟩ := (downsample_partition limit points).2 hl hlong hn
  obtain ⟨middle, first, rest, -, hvalues, rfl⟩ := hthin.point k p hp
  have hcount : (bucketAt (points.length ⌈/⌉ limit) points k).length = rest.length + 1 := by
    rw [← List.length_map, hvalues, List.length_cons]
  refine ⟨hthin.nonempty k (List.getElem?_eq_some_iff.1 hp).1, ?_⟩
  rw [hvalues, mean_cons, hcount]

/-- **A value of a downsampled series is finite, or the values it stands for overflow.** -/
theorem value_cases (hvalues : ∀ p ∈ points, isFinite p.value = true)
    (hn : points.length < 2 * leadingBit) {k : ℕ} {p : Point}
    (hp : (downsample limit points)[k]? = some p) :
    isFinite p.value = true ∧ ¬ Overflows ((sources limit points k).map (·.value)) ∨
      (∃ c, p.value = floatAt c infinitePlace) ∧
        Overflows ((sources limit points k).map (·.value)) := by
  by_cases hshort : limit = 0 ∨ points.length ≤ limit
  · rw [(downsample_partition limit points).1 hshort] at hp
    exact .inl ⟨hvalues p (List.mem_of_getElem? hp), not_overflows_short hshort hvalues k⟩
  · obtain ⟨hne, hmean⟩ := value_eq_mean (by omega) (by omega) hn hp
    rw [hmean, sources, if_neg hshort]
    refine mean_cases (by simpa using hne) ?_ ?_
    · rw [List.length_map]
      exact (bucketAt_sublist _ _ _).length_le.trans_lt hn
    · rw [List.forall_mem_map]
      intro q hq
      exact hvalues q ((bucketAt_sublist _ _ _).mem hq)

/-- Values that are small for the size of their buckets do not overflow. -/
theorem not_overflows_small {n : ℕ} (hn : n ≤ 1023) (hlen : points.length < 2 * leadingBit)
    (hvalues : ∀ p ∈ points, isFinite p.value = true ∧ |exactValue p.value| ≤ 2 ^ (1023 - n))
    (hsize : points.length ⌈/⌉ limit ≤ 2 ^ n) (k : ℕ) :
    ¬ Overflows ((sources limit points k).map (·.value)) := by
  by_cases hshort : limit = 0 ∨ points.length ≤ limit
  · exact not_overflows_short hshort (fun p hp => (hvalues p hp).1) k
  · rw [sources, if_neg hshort]
    have hbucket : (bucketAt (points.length ⌈/⌉ limit) points k).length ≤ points.length :=
      (bucketAt_sublist _ _ _).length_le
    have hall : ∀ v ∈ (bucketAt (points.length ⌈/⌉ limit) points k).map (·.value),
        isFinite v = true ∧ |exactValue v| ≤ 2 ^ (1023 - n) := by
      rw [List.forall_mem_map]
      exact fun q hq => hvalues q ((bucketAt_sublist _ _ _).mem hq)
    have hfinite := (total_bounded hn (by rw [List.length_map]; exact length_bucketAt_le.trans hsize)
      (by rw [List.length_map]; exact hbucket.trans_lt hlen) hall).1
    rcases total_cases fun v hv => (hall v hv).1 with ⟨-, hno⟩ | ⟨⟨c, hc⟩, -⟩
    · exact hno
    · rw [hc, not_isFinite_infinite] at hfinite
      exact absurd hfinite Bool.false_ne_true

/-- **The values of a downsampled series**, and what its text is read as. A value is finite exactly
if the values that it stands for do not overflow, and every other is infinite and read as null. So
all are finite if the series is kept, or its values are small for the size of its buckets. -/
theorem downsample_values (limit : ℕ) (points : List Point)
    (hp : ∀ p ∈ points, isFinite p.value = true ∧ IsInt64 p.time) (hfit : FitMemory points) :
    (∃ read : Float → Json, (∀ x, Json.ReadsAs x (read x)) ∧
      Document (Http.showPoints (.ok (downsample limit points))).body.toList
        (.array ((downsample limit points).map fun p => p.reading (read p.value))) ∧
      ∀ k p, (downsample limit points)[k]? = some p →
        isFinite p.value = true ∧ ¬ Overflows ((sources limit points k).map (·.value)) ∨
          (∃ c, p.value = floatAt c infinitePlace) ∧ read p.value = .null ∧
            Overflows ((sources limit points k).map (·.value))) ∧
    (limit = 0 ∨ points.length ≤ limit →
      ∀ k, ¬ Overflows ((sources limit points k).map (·.value))) ∧
    ∀ n ≤ 1023, points.length ⌈/⌉ limit ≤ 2 ^ n →
      (∀ p ∈ points, |exactValue p.value| ≤ 2 ^ (1023 - n)) →
        ∀ k, ¬ Overflows ((sources limit points k).map (·.value)) := by
  have hn := hfit.lt
  have hvalues : ∀ p ∈ points, isFinite p.value = true := fun p hmem => (hp p hmem).1
  refine ⟨?_, fun hshort => not_overflows_short hshort hvalues, ?_⟩
  · choose read hread using Json.exists_readsAs
    refine ⟨read, hread, points_document hread fun p hmem => ?_, fun k p hk => ?_⟩
    · -- the times are some of those that were there
      have htime := (times_downsample_sublist limit points).mem (List.mem_map_of_mem hmem)
      obtain ⟨q, hq, hsame⟩ := List.mem_map.1 htime
      exact hsame ▸ (hp q hq).2
    · rcases value_cases hvalues hn hk with h | ⟨⟨c, hc⟩, hover⟩
      · exact .inl h
      · have hinfinite : isFinite p.value = false := by rw [hc, not_isFinite_infinite]
        exact .inr ⟨⟨c, hc⟩, (hread p.value).eq_null hinfinite, hover⟩
  · intro n hle hsize hsmall
    exact not_overflows_small hle hn (fun p hmem => ⟨hvalues p hmem, hsmall p hmem⟩) hsize

end Values

/-- Two samples whose sum is still a double. -/
def fitting : List Point := [⟨0, 4e307⟩, ⟨1, 4e307⟩]

/-- Two greater ones, which are equal. -/
def greatest : List Point := [⟨0, 1e308⟩, ⟨1, 1e308⟩]

/-- The mean of two values that are small enough is finite. -/
theorem downsample_values_fitting : (∀ p ∈ fitting, isFinite p.value = true ∧ IsInt64 p.time) ∧
    FitMemory fitting ∧ ∀ p ∈ downsample 1 fitting, isFinite p.value = true := by
  have hp : ∀ p ∈ fitting, isFinite p.value = true ∧ IsInt64 p.time := by
    simp only [fitting, List.forall_mem_cons]
    exact ⟨⟨by decide +kernel, by decide, by decide⟩,
      ⟨by decide +kernel, by decide, by decide⟩, nofun⟩
  obtain ⟨⟨read, -, -, hcases⟩, -, hsmall⟩ := downsample_values 1 fitting hp (by decide)
  refine ⟨hp, by decide, fun p hmem => ?_⟩
  obtain ⟨k, hk⟩ := List.mem_iff_getElem?.1 hmem
  have hno := hsmall 1 (by decide) (by decide) (by
    simp only [fitting, List.forall_mem_cons]
    exact ⟨by decide +kernel, by decide +kernel, nofun⟩) k
  rcases hcases k p hk with ⟨hfinite, -⟩ | ⟨-, -, hover⟩
  · exact hfinite
  · exact absurd hover hno

theorem downsample_greatest : downsample 1 greatest = [⟨1, mean [1e308, 1e308]⟩] := by
  rw [downsample_of_long (by decide) (by decide) (by decide), buckets_eq (by decide)]
  rfl

/-- **The mean of finite values need not be a number**, not even of equal ones: their sum is
infinite, and the text of the series says null. -/
theorem average_overflows :
    (¬ ∀ limit points, FitMemory points → (∀ p ∈ points, isFinite p.value = true) →
      ∀ p ∈ downsample limit points, isFinite p.value = true) ∧
    (Http.showPoints (.ok (downsample 1 greatest))).body =
      "[\x7b\"timestamp\":1,\"value\":null\x7d]" := by
  constructor
  · intro h
    have hfinite := h 1 greatest (by decide) (by
      simp only [greatest, List.forall_mem_cons]
      exact ⟨by decide +kernel, by decide +kernel, nofun⟩)
    rw [downsample_greatest, List.forall_mem_singleton] at hfinite
    exact absurd hfinite (by decide +kernel)
  · rw [downsample_greatest]
    decide +kernel

end TelemetryRelay
