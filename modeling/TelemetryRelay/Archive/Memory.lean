import TelemetryRelay.Json.Basic

/-!
# Archived samples

What an archive holds: a value and its time. A window is a range of times, both ends included. The
archive in memory keeps every sample in the order of writing and gives back, in that order, those of
one measurement that lie in a window.
-/

namespace TelemetryRelay

/-- One archived sample, with its time in milliseconds since the epoch. -/
structure Point where
  time : Int
  value : Float

/-- The document of an archived sample. -/
def Point.toJson (p : Point) : Json :=
  .object [("timestamp", .ofInt p.time), ("value", .ofFloat p.value)]

/-- The times from `start` to `finish`. -/
structure Window where
  start : Int
  finish : Int
deriving DecidableEq, Repr

/-- Whether a time lies in the window. -/
def Window.contains (w : Window) (time : Int) : Bool := w.start ≤ time && time ≤ w.finish

/-- A stored sample: the key of its dictionary, its measurement, and the point. -/
structure StoredSample where
  key : String
  measurement : String
  point : Point

/-- The samples of an archive, oldest write first. -/
structure MemoryArchive where
  samples : List StoredSample := []

namespace MemoryArchive

/-- Stores a sample behind the others. -/
def write (a : MemoryArchive) (key measurement : String) (point : Point) : MemoryArchive :=
  ⟨a.samples ++ [⟨key, measurement, point⟩]⟩

/-- The points of a measurement in a window, in the order of writing. -/
def query (a : MemoryArchive) (key measurement : String) (window : Window) : List Point :=
  (a.samples.filter fun s =>
    s.key == key && s.measurement == measurement && window.contains s.point.time).map (·.point)

end MemoryArchive

end TelemetryRelay
