import TelemetryRelay.Archive.Memory
import TelemetryRelay.Decimal.Shortest

/-!
# Downsampling

A long series is cut into buckets of consecutive points, and each bucket becomes one point: the
time of its middle point and the mean of its values. All buckets but the last are of one size, the
quotient of the two counts rounded up.
-/

namespace TelemetryRelay

/-- The least natural number that is not below a double; zero for one that is infinite or no
number. -/
def Decimal.ceiling (x : Float) : Nat :=
  match Binary.ofFloat x with
  | .finite false m q =>
    let down := Nat.pow 2 (-q).toNat
    (m * Nat.pow 2 q.toNat + (down - 1)) / down
  | _ => 0

namespace Downsample

/-- The size of the buckets when `count` points are to become at most `limit`. -/
def bucketSize (count limit : Nat) : Nat :=
  Decimal.ceiling (Float.ofNat count / Float.ofNat limit)

/-- The mean of some values: their sum from the left, divided by their number. -/
def mean (values : List Float) : Float := values.foldl (· + ·) (-0.0) / Float.ofNat values.length

/-- The point that stands for a bucket. -/
def representative? (bucket : List Point) : Option Point :=
  bucket[bucket.length / 2]?.map fun middle => ⟨middle.time, mean (bucket.map (·.value))⟩

/-- Cuts points into buckets of `size`; the last one may be shorter. -/
def buckets (size : Nat) (points : List Point) : List (List Point) :=
  match points with
  | [] => []
  | p :: rest => (p :: rest.take (size - 1)) :: buckets size (rest.drop (size - 1))
termination_by points.length
decreasing_by simp only [List.length_cons, List.length_drop]; omega

end Downsample

/-- **At most `limit` points in place of `points`**; a series that is short enough, or a limit of
zero, changes nothing. -/
def downsample (limit : Nat) (points : List Point) : List Point :=
  if limit = 0 ∨ points.length ≤ limit then points
  else
    (Downsample.buckets (Downsample.bucketSize points.length limit) points).filterMap
      Downsample.representative?

end TelemetryRelay
