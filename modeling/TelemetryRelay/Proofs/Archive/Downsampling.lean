import TelemetryRelay.Proofs.Archive.Buckets
import TelemetryRelay.Proofs.Decimal.Addition

/-!
# The downsampled series

A series that is too long is cut into buckets of consecutive points, all of one size but the last,
and each bucket gives one point. As the size is the quotient of the two counts rounded up, there are
at most as many buckets as wanted, and more than half as many.

* `flatten_buckets`, `getElem?_buckets`: the buckets are the points in their order, and where each
  of them begins.
* `lt_two_mul_ceilDiv`: rounding up twice gives back more than half.
* `thins_representatives`: the points in place of the buckets (`Thins`).
* `downsample_partition`: **downsampling cuts a series into buckets and gives one point for each.**
-/

namespace TelemetryRelay

namespace Downsample

variable {size limit n k : ℕ} {points : List Point}

/-- The points of the `k`-th bucket: those from position `k * size` on, and `size` of them if so
many are left. -/
def bucketAt (size : ℕ) (points : List Point) (k : ℕ) : List Point :=
  (points.drop (k * size)).take size

theorem length_bucketAt : (bucketAt size points k).length = min size (points.length - k * size) := by
  simp [bucketAt]

/-- Cutting loses nothing and moves nothing. -/
theorem flatten_buckets (size : ℕ) (points : List Point) : (buckets size points).flatten = points := by
  fun_induction buckets size points with
  | case1 => rfl
  | case2 p rest ih => rw [List.flatten_cons, ih, List.cons_append, List.take_append_drop]

/-- **Where the buckets begin**: each at a multiple of their size. -/
theorem getElem?_buckets (hs : 0 < size) (points : List Point) (k : ℕ) :
    (buckets size points)[k]? =
      if k * size < points.length then some (bucketAt size points k) else none := by
  obtain ⟨s, rfl⟩ : ∃ s, size = s + 1 := ⟨size - 1, by omega⟩
  fun_induction buckets (s + 1) points generalizing k with
  | case1 => simp
  | case2 p rest ih =>
    cases k with
    | zero => simp [bucketAt]
    | succ k =>
      -- the first bucket takes `size` positions from all others
      have hdrop : (k + 1) * (s + 1) = (k * (s + 1) + s) + 1 := by ring
      rw [List.getElem?_cons_succ, ih, List.length_drop, List.length_cons, bucketAt, bucketAt, hdrop,
        List.drop_succ_cons, List.drop_drop, Nat.add_sub_cancel, Nat.add_comm s (k * (s + 1))]
      refine if_congr ?_ rfl rfl
      omega

theorem buckets_eq (hs : 0 < size) (points : List Point) :
    buckets size points = (List.range (points.length ⌈/⌉ size)).map (bucketAt size points) := by
  refine List.ext_getElem? fun k => ?_
  rw [getElem?_buckets hs, List.getElem?_map]
  by_cases hk : k * size < points.length
  · rw [if_pos hk, List.getElem?_range ((lt_ceilDiv_iff hs).2 hk)]
    rfl
  · have hlen : (List.range (points.length ⌈/⌉ size)).length ≤ k := by
      rw [List.length_range]
      exact not_lt.1 (mt (lt_ceilDiv_iff hs).1 hk)
    rw [if_neg hk, List.getElem?_eq_none hlen]
    rfl

/-- Rounding up twice gives back more than half of what was wanted. -/
theorem lt_two_mul_ceilDiv (hl : 0 < limit) (hn : limit < n) : limit < 2 * (n ⌈/⌉ (n ⌈/⌉ limit)) := by
  have htwo : ¬ n ⌈/⌉ limit ≤ 1 := by
    rw [ceilDiv_le_iff_le_mul hl]
    omega
  obtain ⟨t, ht⟩ : ∃ t, n ⌈/⌉ limit = t + 2 := ⟨n ⌈/⌉ limit - 2, by omega⟩
  -- one less would not do
  have hless : limit * (t + 1) < n := by
    have h : ¬ n ⌈/⌉ limit ≤ t + 1 := by omega
    rw [ceilDiv_le_iff_le_mul hl] at h
    omega
  have hcover : n ≤ (t + 2) * (n ⌈/⌉ (n ⌈/⌉ limit)) := by
    rw [← ht, ← smul_eq_mul]
    exact le_smul_ceilDiv (by omega)
  by_contra hhalf
  have hmul := Nat.mul_le_mul_right (t + 1) (Nat.le_of_not_lt hhalf)
  nlinarith only [hless, hcover, hmul]

/-! ### The points of the buckets -/

/-- A bucket that is not empty has a middle, so there is a point for it. -/
theorem exists_representative {bucket : List Point} (hb : bucket ≠ []) : ∃ middle,
    bucket[bucket.length / 2]? = some middle ∧
      representative? bucket = some ⟨middle.time, mean (bucket.map (·.value))⟩ := by
  have hpos : 0 < bucket.length := List.length_pos_of_ne_nil hb
  have hmiddle : bucket[bucket.length / 2]? = some bucket[bucket.length / 2] :=
    List.getElem?_eq_getElem (by omega)
  exact ⟨_, hmiddle, by rw [representative?, hmiddle]; rfl⟩

/-- There is one point for each bucket. -/
theorem map_some_representatives {bs : List (List Point)} (hb : ∀ b ∈ bs, b ≠ []) :
    (bs.filterMap representative?).map some = bs.map representative? := by
  induction bs with
  | nil => rfl
  | cons b bs ih =>
    obtain ⟨middle, -, hp⟩ := exists_representative (hb b List.mem_cons_self)
    rw [List.filterMap_cons_some hp, List.map_cons, List.map_cons, hp,
      ih fun b hmem => hb b (List.mem_cons_of_mem _ hmem)]

/-- The times of the points are some of those that were there, in their order. -/
theorem times_filterMap_representative (bs : List (List Point)) :
    ((bs.filterMap representative?).map (·.time)).Sublist (bs.flatten.map (·.time)) := by
  induction bs with
  | nil => exact .slnil
  | cons b bs ih =>
    rw [List.flatten_cons, List.map_append]
    cases hp : representative? b with
    | none =>
      rw [List.filterMap_cons_none hp]
      exact ih.trans (List.sublist_append_right _ _)
    | some p =>
      obtain ⟨middle, hmiddle, rfl⟩ := Option.map_eq_some_iff.1 hp
      rw [List.filterMap_cons_some hp, List.map_cons]
      have hmem : middle.time ∈ b.map (·.time) := List.mem_map_of_mem (List.mem_of_getElem? hmiddle)
      exact (List.singleton_sublist.2 hmem).append ih

/-- The mean, without the zero that the sum begins with. -/
theorem mean_cons (first : Float) (rest : List Float) :
    mean (first :: rest) = rest.foldl (· + ·) first / Float.ofNat (rest.length + 1) := by
  rw [mean, List.foldl_cons, Decimal.neg_zero_add, List.length_cons]

/-- **A series with one point for each bucket of another**: the buckets are the points of that one
in their order, each position lies in one of them, and none is empty; the point of a bucket has the
time of its middle, and the sum of its values from the left, divided by their number. -/
structure Thins (size : ℕ) (points result : List Point) : Prop where
  whole : ((List.range result.length).map (bucketAt size points)).flatten = points
  covers : ∀ i < points.length, ∃! k, k < result.length ∧ k * size ≤ i ∧
    i < k * size + (bucketAt size points k).length
  nonempty : ∀ k < result.length, bucketAt size points k ≠ []
  point : ∀ k p, result[k]? = some p → ∃ middle first rest,
    points[k * size + (bucketAt size points k).length / 2]? = some middle ∧
      (bucketAt size points k).map (·.value) = first :: rest ∧
      p = ⟨middle.time, rest.foldl (· + ·) first / Float.ofNat (bucketAt size points k).length⟩
  times : (result.map (·.time)).Sublist (points.map (·.time))

/-- The buckets that there are, are not empty. -/
theorem bucketAt_ne_nil (hs : 0 < size) (hk : k < points.length ⌈/⌉ size) :
    bucketAt size points k ≠ [] := by
  have hlt := (lt_ceilDiv_iff hs).1 hk
  have hlen : (bucketAt size points k).length = min size (points.length - k * size) :=
    length_bucketAt
  intro hnil
  rw [hnil, List.length_nil] at hlen
  omega

/-- A position lies in the bucket of its quotient. -/
theorem mem_bucketAt_iff (hs : 0 < size) {i : ℕ} (hi : i < points.length) :
    k * size ≤ i ∧ i < k * size + (bucketAt size points k).length ↔ i / size = k := by
  rw [length_bucketAt, Nat.div_eq_iff hs]
  constructor
  · rintro ⟨h1, h2⟩
    omega
  · rintro ⟨h1, h2⟩
    omega

theorem buckets_ne_nil (hs : 0 < size) (points : List Point) : ∀ b ∈ buckets size points, b ≠ [] := by
  rw [buckets_eq hs, List.forall_mem_map]
  intro k hk
  exact bucketAt_ne_nil hs (List.mem_range.1 hk)

theorem length_representatives (hs : 0 < size) (points : List Point) :
    ((buckets size points).filterMap representative?).length = points.length ⌈/⌉ size := by
  have h := congrArg List.length (map_some_representatives (buckets_ne_nil hs points))
  rwa [List.length_map, List.length_map, length_buckets hs] at h

/-- **The points in place of the buckets.** -/
theorem thins_representatives (hs : 0 < size) (points : List Point) :
    Thins size points ((buckets size points).filterMap representative?) := by
  have hbs := buckets_eq hs points
  have hsome := map_some_representatives (buckets_ne_nil hs points)
  have hlen := length_representatives hs points
  constructor
  case whole => rw [hlen, ← hbs, flatten_buckets]
  case covers =>
    intro i hi
    rw [hlen]
    have hpos : i / size * size ≤ i := Nat.div_mul_le_self i size
    refine ⟨i / size, ⟨(lt_ceilDiv_iff hs).2 (by omega), (mem_bucketAt_iff hs hi).2 rfl⟩, ?_⟩
    rintro k ⟨-, hk⟩
    exact ((mem_bucketAt_iff hs hi).1 hk).symm
  case nonempty =>
    intro k hk
    rw [hlen] at hk
    exact bucketAt_ne_nil hs hk
  case point =>
    intro k p hp
    have hk : k < points.length ⌈/⌉ size := by
      rw [← hlen]
      exact (List.getElem?_eq_some_iff.1 hp).1
    have hrep : some p = representative? (bucketAt size points k) := by
      have h : (List.map some _)[k]? = (List.map representative? _)[k]? := congrArg (·[k]?) hsome
      rw [List.getElem?_map, hp, hbs, List.getElem?_map, List.getElem?_map,
        List.getElem?_range hk] at h
      exact Option.some.inj h
    obtain ⟨middle, hmiddle, hpoint⟩ := exists_representative (bucketAt_ne_nil hs hk)
    obtain ⟨first, rest, hvalues⟩ : ∃ first rest,
        (bucketAt size points k).map (·.value) = first :: rest :=
      List.exists_cons_of_ne_nil (by simpa using bucketAt_ne_nil hs hk)
    refine ⟨middle, first, rest, ?_, hvalues, ?_⟩
    · have hhalf := (List.getElem?_eq_some_iff.1 hmiddle).1
      have hsize : (bucketAt size points k).length ≤ size := by
        rw [length_bucketAt]
        exact min_le_left _ _
      rw [← List.getElem?_drop, ← List.getElem?_take_of_lt (hhalf.trans_le hsize)]
      exact hmiddle
    · have hcount : (bucketAt size points k).length = rest.length + 1 := by
        rw [← List.length_map, hvalues, List.length_cons]
      rw [hpoint, hvalues, mean_cons, ← hcount] at hrep
      exact Option.some.inj hrep
  case times =>
    have h := times_filterMap_representative (buckets size points)
    rwa [flatten_buckets] at h

end Downsample

open Downsample

variable {limit : ℕ} {points : List Point}

/-- A series that is too long is cut into buckets of the exact quotient, rounded up. -/
theorem downsample_of_long (hl : 0 < limit) (hlong : limit < points.length)
    (hn : points.length < 2 ^ 53) : downsample limit points =
      (buckets (points.length ⌈/⌉ limit) points).filterMap representative? := by
  rw [downsample, if_neg (by omega), bucketSize_eq hl hlong hn]

/-- The times of a downsampled series are some of those that were there, in their order. -/
theorem times_downsample_sublist (limit : ℕ) (points : List Point) :
    ((downsample limit points).map (·.time)).Sublist (points.map (·.time)) := by
  unfold downsample
  split
  · exact List.Sublist.refl _
  · have h := times_filterMap_representative (buckets (bucketSize points.length limit) points)
    rwa [flatten_buckets] at h

/-- **Downsampling keeps a series that is short enough, and cuts every other into buckets**, all of
one size but the last, the quotient of the two counts rounded up. There are more than half as many
points as wanted and at most as many, one for each bucket, and their times are in order if those of
the series are. -/
theorem downsample_partition (limit : ℕ) (points : List Point) :
    (limit = 0 ∨ points.length ≤ limit → downsample limit points = points) ∧
    (0 < limit → limit < points.length → points.length < 2 ^ 53 →
      bucketSize points.length limit = points.length ⌈/⌉ limit ∧
      0 < points.length ⌈/⌉ limit ∧
      limit < 2 * (downsample limit points).length ∧ (downsample limit points).length ≤ limit ∧
      Thins (points.length ⌈/⌉ limit) points (downsample limit points) ∧
      ((points.map (·.time)).Pairwise (· ≤ ·) →
        ((downsample limit points).map (·.time)).Pairwise (· ≤ ·))) := by
  refine ⟨fun h => if_pos h, fun hl hlong hn => ?_⟩
  have hsize := size_pos hl hlong
  have hthin := thins_representatives hsize points
  have hlength := length_representatives hsize points
  rw [downsample_of_long hl hlong hn]
  refine ⟨bucketSize_eq hl hlong hn, hsize, ?_, ?_, hthin, fun h => h.sublist hthin.times⟩
  · rw [hlength]
    exact lt_two_mul_ceilDiv hl hlong
  · rw [hlength]
    exact ceilDiv_ceilDiv_le hl hsize

/-- Three points become two, of which the second stands for itself. -/
theorem uneven_partition :
    bucketSize 3 2 = 2 ∧ (downsample 2 [⟨0, 1⟩, ⟨5, 2⟩, ⟨9, 4⟩]).length = 2 ∧
      Thins 2 [⟨0, 1⟩, ⟨5, 2⟩, ⟨9, 4⟩] (downsample 2 [⟨0, 1⟩, ⟨5, 2⟩, ⟨9, 4⟩]) := by
  obtain ⟨hsize, -, hmore, hless, hthin, -⟩ :=
    (downsample_partition 2 [⟨0, 1⟩, ⟨5, 2⟩, ⟨9, 4⟩]).2 (by decide) (by decide) (by decide)
  exact ⟨hsize, by omega, hthin⟩

end TelemetryRelay
