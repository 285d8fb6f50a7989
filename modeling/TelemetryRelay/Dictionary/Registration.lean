import TelemetryRelay.Dictionary.Basic

/-!
# Requests to register

A dictionary grows by requests, each of which is carried out or refused. `Dictionary.perform` says
what a request is answered and which dictionary it leaves, `Dictionary.replay` what many of them
leave.
-/

namespace TelemetryRelay

/-- A request to register a measurement. -/
inductive Registration where
  /-- Its variants have been checked. -/
  | checked (m : Measurement)
  /-- Its variants are loosely typed. -/
  | raw (name channel : String) (variants : List RawSchema)

namespace Dictionary

/-- The longer dictionary that a request asks for. -/
def attempt (d : Dictionary) : Registration → Except DictionaryError Dictionary
  | .checked m => d.add m
  | .raw name channel variants => d.addRaw name channel variants

/-- **Carries out a request**: why it is refused, if it is, and the dictionary that is left. -/
def perform (d : Dictionary) (r : Registration) : Option DictionaryError × Dictionary :=
  match d.attempt r with
  | .error e => (some e, d)
  | .ok longer => (none, longer)

/-- The dictionary that requests leave, one after the other. -/
def replay (d : Dictionary) (rs : List Registration) : Dictionary :=
  rs.foldl (fun d r => (d.perform r).2) d

end Dictionary

end TelemetryRelay
