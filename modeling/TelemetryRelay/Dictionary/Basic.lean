import TelemetryRelay.Dictionary.Index
import TelemetryRelay.Schema.Raw

/-!
# Dictionaries

A dictionary is a named list of measurements in the order of their registration, with an index of
their names and one of their channels, which are kept in step with the list. Names and channel keys
are unique in it; `Dictionary.add` refuses anything else and returns the longer dictionary
otherwise, so a refused registration changes nothing.
-/

namespace TelemetryRelay

/-- A named telemetry quantity, the broker channel it is published on and its encodings. -/
structure Measurement where
  name : String
  channel : String
  variants : List Schema

/-- The encoding that range checks use: the first one. -/
def Measurement.primary? (m : Measurement) : Option Schema := m.variants.head?

/-- A list of measurements under a title and a key. -/
structure Dictionary where
  title : String
  key : String
  measurements : List Measurement
  /-- Where the measurement of a name stands. -/
  byName : Index
  /-- Where the measurement of a channel stands. -/
  byChannel : Index
  byName_lists : byName.Lists (measurements.map (·.name))
  byChannel_lists : byChannel.Lists (measurements.map (·.channel))

/-- Why a dictionary refused a request. -/
inductive DictionaryError where
  | invalidSchema (measurement : String) (fault : SchemaFault)
  | duplicateMeasurement (name : String)
  | duplicateChannel (channel existing : String)
  | unknownMeasurement (name : String)

/-- The sentence for a dictionary error. -/
def DictionaryError.message : DictionaryError → String
  | .invalidSchema measurement fault =>
    "invalid schema for measurement '" ++ measurement ++ "': " ++ fault.message
  | .duplicateMeasurement name => "measurement '" ++ name ++ "' is already registered"
  | .duplicateChannel channel existing =>
    "channel key '" ++ channel ++ "' is already used by measurement '" ++ existing ++ "'"
  | .unknownMeasurement name => "unknown measurement '" ++ name ++ "'"

/-- A suspicious range, with the measurement and the position of the variant that declares it. -/
structure VariantWarning where
  measurement : String
  variant : Nat
  warning : RangeWarning

namespace Dictionary

/-- A dictionary without measurements. -/
def empty (title key : String) : Dictionary :=
  ⟨title, key, [], [], [], Index.lists_nil, Index.lists_nil⟩

@[simp] theorem empty_measurements (title key : String) : (empty title key).measurements = [] := rfl

/-- The names in order of registration. -/
def names (d : Dictionary) : List String := d.measurements.map (·.name)

/-- The channel keys in order of registration. -/
def channels (d : Dictionary) : List String := d.measurements.map (·.channel)

/-- The number of measurements. -/
def size (d : Dictionary) : Nat := d.measurements.length

/-- The measurement of a name. -/
def find? (d : Dictionary) (name : String) : Option Measurement :=
  (d.byName.position? name).bind fun i => d.measurements[i]?

/-- The measurement that is published on a channel. -/
def ofChannel? (d : Dictionary) (channel : String) : Option Measurement :=
  (d.byChannel.position? channel).bind fun i => d.measurements[i]?

/-- Asking for a name finds the first measurement of this name. -/
theorem find?_eq (d : Dictionary) (name : String) :
    d.find? name = d.measurements.find? (·.name == name) :=
  d.byName_lists.bind_getElem?

/-- Asking for a channel finds the first measurement on it. -/
theorem ofChannel?_eq (d : Dictionary) (channel : String) :
    d.ofChannel? channel = d.measurements.find? (·.channel == channel) :=
  d.byChannel_lists.bind_getElem?

theorem lt_size_of_byChannel {d : Dictionary} {channel : String} {i : Nat}
    (h : d.byChannel.position? channel = some i) : i < d.size := by
  simpa [size] using d.byChannel_lists.lt_length h

/-- The variants of a measurement. -/
def lookup (d : Dictionary) (name : String) : Except DictionaryError (List Schema) :=
  match d.find? name with
  | some m => .ok m.variants
  | none => .error (.unknownMeasurement name)

/-- The dictionary with one more measurement, whose name and channel are new to it. -/
def push (d : Dictionary) (m : Measurement) (hname : d.byName.position? m.name = none)
    (hchannel : d.byChannel.position? m.channel = none) : Dictionary where
  title := d.title
  key := d.key
  measurements := d.measurements ++ [m]
  byName := d.byName.enter m.name d.size
  byChannel := d.byChannel.enter m.channel d.size
  byName_lists := by
    have hnew := d.byName_lists.position?_eq_none_iff.1 hname
    simpa [size] using d.byName_lists.enter hnew
  byChannel_lists := by
    have hnew := d.byChannel_lists.position?_eq_none_iff.1 hchannel
    simpa [size] using d.byChannel_lists.enter hnew

@[simp] theorem push_measurements (d : Dictionary) (m : Measurement)
    (hname : d.byName.position? m.name = none) (hchannel : d.byChannel.position? m.channel = none) :
    (d.push m hname hchannel).measurements = d.measurements ++ [m] := rfl

/-- **Registers a measurement** behind the others. A name or channel that is taken, a blank one
and an empty list of variants are refused, in this order. -/
def add (d : Dictionary) (m : Measurement) : Except DictionaryError Dictionary :=
  match hname : d.byName.position? m.name with
  | some _ => .error (.duplicateMeasurement m.name)
  | none =>
    match hchannel : d.byChannel.position? m.channel with
    | some i =>
      let existing := d.measurements.get ⟨i, lt_size_of_byChannel hchannel⟩
      .error (.duplicateChannel m.channel existing.name)
    | none =>
      if Text.isBlankText m.name then .error (.invalidSchema m.name .blankName)
      else if Text.isBlankText m.channel then .error (.invalidSchema m.name .blankChannel)
      else if m.variants.isEmpty then .error (.invalidSchema m.name .noVariants)
      else .ok (d.push m hname hchannel)

/-- Checks loosely typed variants one after the other. -/
def checkVariants (name : String) : List RawSchema → Except DictionaryError (List Schema)
  | [] => .ok []
  | raw :: rest =>
    match raw.toSchema with
    | .error fault => .error (.invalidSchema name fault)
    | .ok schema => (checkVariants name rest).map (schema :: ·)

/-- Registers a measurement whose variants are loosely typed; they are checked first. -/
def addRaw (d : Dictionary) (name channel : String) (variants : List RawSchema) :
    Except DictionaryError Dictionary :=
  match checkVariants name variants with
  | .error e => .error e
  | .ok schemas => d.add ⟨name, channel, schemas⟩

/-- The warnings of some variants, the first of which stands at `position`. -/
def variantWarnings (name : String) (position : Nat) : List Schema → List VariantWarning
  | [] => []
  | schema :: rest =>
    (schema.rangeWarning.map fun w => ⟨name, position, w⟩).toList ++
      variantWarnings name (position + 1) rest

/-- Every suspicious range, in order. -/
def warnings (d : Dictionary) : List VariantWarning :=
  d.measurements.flatMap fun m => variantWarnings m.name 0 m.variants

end Dictionary

end TelemetryRelay
