import TelemetryRelay.Dictionary.Document
import TelemetryRelay.Proofs.Dictionary.Registered
import TelemetryRelay.Proofs.Json.Canonical

/-!
# Dictionaries from their documents

The document of a dictionary differs from a definition of it in one word: what a measurement calls
`key`, a definition calls `channel`. With this word exchanged (`Json.asDefinition`) the document can
be read as a definition, and the definition declares the dictionary that the document is of.

* `RawSchema.ofJson_toJson`, `Schema.Checked.toSchema_raw`: a schema is read back from its document
  as it was, and passes its check again.
* `DictionaryDefinition.ofJson_asDefinition`: the definition that is read.
* `Dictionary.Registered.build_definition`: declaring the measurements of a dictionary again, one
  after the other, makes the same dictionary.
* `Dictionary.reads_back`: **a registered dictionary comes back from its document.**
-/

namespace TelemetryRelay

/-! ### Documents as definitions -/

namespace Json

/-- An object with another name for one of its fields. -/
def rename (old new : String) : Json → Json
  | .object fields => .object (fields.map fun f => (if f.1 = old then new else f.1, f.2))
  | other => other

/-- An array with its items changed. -/
def mapItems (change : Json → Json) : Json → Json
  | .array items => .array (items.map change)
  | other => other

/-- An object with the value of one of its fields changed. -/
def mapField (key : String) (change : Json → Json) : Json → Json
  | .object fields => .object (fields.map fun f => (f.1, if f.1 = key then change f.2 else f.2))
  | other => other

/-- **The document of a dictionary as a definition**: what its measurements call `key` is called
`channel`. -/
def asDefinition : Json → Json := mapField "measurements" (mapItems (rename "key" "channel"))

end Json

/-- Reading items one by one succeeds if every single one can be read. -/
theorem mapM_eq_ok_map {ε α β γ : Type} {read : β → Except ε γ} {write : α → β} {want : α → γ}
    (h : ∀ a, read (write a) = .ok (want a)) (l : List α) :
    (l.map write).mapM read = .ok (l.map want) := by
  induction l with
  | nil => rfl
  | cons a rest ih =>
    rw [List.map_cons, List.mapM_cons, h a, ih]
    rfl

/-! ### Schemas -/

/-- A schema as it would be declared. -/
def Schema.raw (s : Schema) : RawSchema where
  units := some s.units
  format := some s.format.tag
  min := s.min.map Json.ofFloat
  max := s.max.map Json.ofFloat

theorem Format.parse?_tag (f : Format) : parse? f.tag = some f := by cases f <;> decide

/-- **A schema is read back from its document.** -/
theorem RawSchema.ofJson_toJson (s : Schema) : RawSchema.ofJson s.toJson = .ok s.raw := by
  obtain ⟨units, format, min, max⟩ := s
  -- the fields that are there, in the order of their keys
  cases min <;> cases max <;> rfl

theorem RawSchema.numericBound_ofFloat (b : Bound) (f : Format) (x : Option Float) :
    numericBound b f (x.map Json.ofFloat) = .ok x := by
  cases x <;> rfl

/-- A checked schema passes its check again. -/
theorem Schema.Checked.toSchema_raw {s : Schema} (h : s.Checked) : s.raw.toSchema = .ok s := by
  unfold Schema.Checked at h
  simp only [RawSchema.toSchema, Schema.raw, Format.parse?_tag, RawSchema.numericBound_ofFloat, h]

/-! ### Measurements -/

/-- A measurement as it would be declared. -/
def Measurement.definition (m : Measurement) : MeasurementDefinition :=
  ⟨m.name, m.channel, m.variants.map Schema.raw⟩

theorem Schema.canonical_listJson (variants : List Schema) :
    (listJson variants).canonical = .array (variants.map fun s => s.toJson.canonical) := by
  rw [listJson, Json.canonical, Json.canonicalItems_eq_map, List.map_map]
  rfl

/-- Taking the variants of a measurement, each of which can be read. -/
theorem MeasurementDraft.visit_values (draft : MeasurementDraft) {items : List Json}
    {raws : List RawSchema} (h : items.mapM RawSchema.ofJson = .ok raws) :
    draft.visit "values" (.array items) = .ok { draft with values := raws } := by
  show (items.mapM RawSchema.ofJson >>= fun raws => pure { draft with values := raws }) = _
  rw [h]
  rfl

/-- A measurement is read back from its document. -/
theorem MeasurementDefinition.ofJson_rename (m : Measurement) :
    ofJson (m.toJson.rename "key" "channel") = .ok m.definition := by
  have hread : (m.variants.map fun s => s.toJson.canonical).mapM RawSchema.ofJson =
      .ok (m.variants.map Schema.raw) :=
    mapM_eq_ok_map (fun s => (Json.readRecord_canonical ..).trans (RawSchema.ofJson_toJson s)) _
  have hsorted : (m.toJson.rename "key" "channel").canonical =
      .object [("channel", .string m.channel), ("name", .string m.name),
        ("values", (Schema.listJson m.variants).canonical)] := by
    simp +decide only [Measurement.toJson, Json.rename, List.map_cons, List.map_nil,
      Json.canonical, Json.canonicalFields, Json.insertField, if_true, if_false]
  rw [Schema.canonical_listJson] at hsorted
  have hdraft : [("channel", Json.string m.channel), ("name", .string m.name),
      ("values", .array (m.variants.map fun s => s.toJson.canonical))].foldlM
        (fun draft field => MeasurementDraft.visit draft field.1 field.2) {} =
      .ok ⟨m.name, m.channel, m.variants.map Schema.raw⟩ := by
    show (MeasurementDraft.visit ⟨m.name, m.channel, []⟩ "values" _ >>= pure) = _
    rw [MeasurementDraft.visit_values _ hread]
    rfl
  rw [ofJson, Json.readRecord, hsorted]
  dsimp only
  rw [hdraft]
  rfl

/-! ### Dictionaries -/

/-- A dictionary as it would be declared. -/
def Dictionary.definition (d : Dictionary) : DictionaryDefinition :=
  ⟨d.title, d.key, d.measurements.map Measurement.definition⟩

/-- Taking the measurements of a dictionary, each of which can be read. -/
theorem DictionaryDraft.visit_measurements (draft : DictionaryDraft) {items : List Json}
    {definitions : List MeasurementDefinition}
    (h : items.mapM MeasurementDefinition.ofJson = .ok definitions) :
    draft.visit "measurements" (.array items) = .ok { draft with measurements := definitions } := by
  show (items.mapM MeasurementDefinition.ofJson >>= fun ms =>
    pure { draft with measurements := ms }) = _
  rw [h]
  rfl

/-- **The definition that is read from a document.** -/
theorem DictionaryDefinition.ofJson_asDefinition (d : Dictionary) :
    ofJson d.toJson.asDefinition = .ok d.definition := by
  have hread : (d.measurements.map fun m => (m.toJson.rename "key" "channel").canonical).mapM
      MeasurementDefinition.ofJson = .ok (d.measurements.map Measurement.definition) :=
    mapM_eq_ok_map (fun m => (Json.readRecord_canonical ..).trans
      (MeasurementDefinition.ofJson_rename m)) _
  have hsorted : d.toJson.asDefinition.canonical =
      .object [("key", .string d.key), ("measurements", .array (d.measurements.map fun m =>
        (m.toJson.rename "key" "channel").canonical)), ("name", .string d.title)] := by
    simp +decide only [Dictionary.toJson, Json.asDefinition, Json.mapField, Json.mapItems,
      List.map_cons, List.map_nil, Json.canonical, Json.canonicalFields, Json.insertField,
      if_true, if_false, Json.canonicalItems_eq_map, List.map_map, Function.comp_def]
  have hdraft : [("key", Json.string d.key), ("measurements", .array (d.measurements.map fun m =>
      (m.toJson.rename "key" "channel").canonical)), ("name", .string d.title)].foldlM
        (fun draft field => DictionaryDraft.visit draft field.1 field.2) {} =
      .ok ⟨d.title, d.key, d.measurements.map Measurement.definition⟩ := by
    show (DictionaryDraft.visit ⟨none, d.key, []⟩ "measurements" _ >>= fun draft =>
      draft.visit "name" (.string d.title) >>= pure) = _
    rw [DictionaryDraft.visit_measurements _ hread]
    rfl
  rw [ofJson, Json.readRecord, hsorted]
  dsimp only
  rw [hdraft]
  rfl

namespace Dictionary

theorem checkVariants_map_raw (name : String) {schemas : List Schema}
    (h : ∀ s ∈ schemas, s.Checked) : checkVariants name (schemas.map Schema.raw) = .ok schemas := by
  induction schemas with
  | nil => rfl
  | cons s rest ih =>
    obtain ⟨hs, hrest⟩ := List.forall_mem_cons.1 h
    rw [List.map_cons, checkVariants, hs.toSchema_raw, ih hrest]
    rfl

/-- What a definition makes of a dictionary, with one more measurement. -/
theorem register_concat (d : Dictionary) (ms : List MeasurementDefinition)
    (m : MeasurementDefinition) : DictionaryDefinition.register d (ms ++ [m]) =
      DictionaryDefinition.register d ms >>= fun d' => d'.addRaw m.name m.channel m.values := by
  induction ms generalizing d with
  | nil =>
    show DictionaryDefinition.register d [m] = d.addRaw m.name m.channel m.values
    rw [DictionaryDefinition.register]
    cases d.addRaw m.name m.channel m.values <;> rfl
  | cons first rest ih =>
    rw [List.cons_append, DictionaryDefinition.register, DictionaryDefinition.register]
    cases d.addRaw first.name first.channel first.values with
    | error e => rfl
    | ok longer => exact ih longer

/-- **Declaring the measurements of a dictionary again makes the same dictionary.** -/
theorem Registered.build_definition {d : Dictionary} (h : d.Registered) :
    d.definition.build = .ok d := by
  induction h with
  | empty title key => rfl
  | @add d d' m _ hs ha ih =>
    obtain ⟨-, -, -, htitle, hkey, hms⟩ := add_eq_ok ha
    have hraw : d.addRaw m.name m.channel (m.variants.map Schema.raw) = .ok d' := by
      rw [Dictionary.addRaw, checkVariants_map_raw m.name hs]
      exact ha
    have hdefinition : d'.definition =
        ⟨d.title, d.key, d.definition.measurements ++ [m.definition]⟩ := by
      simp [definition, htitle, hkey, hms]
    rw [hdefinition, DictionaryDefinition.build, register_concat,
      show DictionaryDefinition.register (.empty d.title d.key) d.definition.measurements = .ok d
        from ih]
    exact hraw

/-- **A registered dictionary comes back from its document**: with `key` called `channel`, the
document can be read as a definition, and the definition declares this very dictionary, with its
measurements in their order, what it answers to look-ups, and its warnings. -/
theorem reads_back {d : Dictionary} (h : d.Registered) :
    ∃ definition, DictionaryDefinition.ofJson d.toJson.asDefinition = .ok definition ∧
      definition.build = .ok d :=
  ⟨d.definition, DictionaryDefinition.ofJson_asDefinition d, h.build_definition⟩

/-- A dictionary with a range and with a measurement that declares none. -/
theorem avionics_reads_back : avionics.Registered ∧
    ∃ definition, DictionaryDefinition.ofJson avionics.toJson.asDefinition = .ok definition ∧
      definition.build = .ok avionics :=
  ⟨avionics_registered, reads_back avionics_registered⟩

end Dictionary

end TelemetryRelay
