import Mathlib.Data.List.Nodup
import TelemetryRelay.Dictionary.Definition

/-!
# Dictionaries as registration makes them

A dictionary comes into being without measurements and grows by `Dictionary.add` alone. What every
registration checks therefore holds of all measurements: the dictionary is *sound*
(`Dictionary.Sound`), with names and channels that occur once and are not blank, and with both
indexes in step. If moreover the schemas are those that `Schema.make` accepted, it is *registered*
(`Dictionary.Registered`).

* `sound_empty`, `Sound.add`: a dictionary without measurements is sound, and registration keeps
  it so.
* `Registered.sound`, `Registered.bounds_finite`: a registered dictionary is sound, and every bound
  declared in it is a finite number.
* `registered_of_build`: a declared dictionary is registered.
-/

namespace TelemetryRelay

/-! ### Keys that occur once -/

/-- A search by a key that occurs once finds exactly what has the key. -/
theorem find?_key_eq_some_iff {α : Type} {key : α → String} : ∀ {l : List α}, (l.map key).Nodup →
    ∀ {k : String} {x : α}, l.find? (key · == k) = some x ↔ x ∈ l ∧ key x = k := by
  intro l
  induction l with
  | nil => simp
  | cons y rest ih =>
    intro hn k x
    obtain ⟨hy, hrest⟩ := List.nodup_cons.1 hn
    rw [List.find?_cons]
    by_cases hk : key y = k
    · rw [beq_iff_eq.2 hk]
      constructor
      · intro h; cases h; exact ⟨List.mem_cons_self, hk⟩
      · rintro ⟨hx, hxk⟩
        rcases List.mem_cons.1 hx with rfl | hx
        · rfl
        · exact absurd (List.mem_map.2 ⟨x, hx, hxk.trans hk.symm⟩) hy
    · rw [beq_eq_false_iff_ne.2 hk]
      simp only [ih hrest, List.mem_cons]
      constructor
      · rintro ⟨hx, hxk⟩; exact ⟨Or.inr hx, hxk⟩
      · rintro ⟨rfl | hx, hxk⟩
        · exact absurd hxk hk
        · exact ⟨hx, hxk⟩

/-- The index of keys that occur once has each with the only position it stands at. -/
theorem Index.Lists.position?_eq_some_iff {index : Index} {keys : List String}
    (h : index.Lists keys) (hn : keys.Nodup) {key : String} {i : Nat} :
    index.position? key = some i ↔ keys[i]? = some key := by
  rw [h key]
  constructor
  · intro hi
    obtain ⟨hlt, heq, -⟩ := List.findIdx?_eq_some_iff_getElem.1 hi
    rw [List.getElem?_eq_getElem hlt, beq_iff_eq.1 heq]
  · intro hi
    obtain ⟨hlt, heq⟩ := List.getElem?_eq_some_iff.1 hi
    refine List.findIdx?_eq_some_iff_getElem.2 ⟨hlt, beq_iff_eq.2 heq, ?_⟩
    -- no other position has the key
    intro j hj hkey
    have hjlt : j < keys.length := Nat.lt_trans hj hlt
    have hij : keys[j] = keys[i] := by rw [beq_iff_eq.1 hkey, heq]
    have := (hn.getElem_inj_iff).1 hij
    omega

/-! ### Sound dictionaries -/

/-- Something besides blanks is there. -/
def Text.NonBlank (s : String) : Prop := ∃ c ∈ s.toList, isBlank c = false

theorem Text.nonBlank_of_not_isBlankText {s : String} (h : ¬ isBlankText s = true) :
    NonBlank s := by
  simpa [isBlankText, NonBlank] using h

/-- **What every registration keeps**: names and channels are not blank and occur once, each
measurement has a variant, and the indexes have exactly the names and the channels, each with the
position of its measurement. -/
structure Dictionary.Sound (d : Dictionary) : Prop where
  names_nodup : d.names.Nodup
  channels_nodup : d.channels.Nodup
  name_nonBlank : ∀ m ∈ d.measurements, Text.NonBlank m.name
  channel_nonBlank : ∀ m ∈ d.measurements, Text.NonBlank m.channel
  variants_ne_nil : ∀ m ∈ d.measurements, m.variants ≠ []
  byName_iff : ∀ name i, d.byName.position? name = some i ↔
    ∃ m, d.measurements[i]? = some m ∧ m.name = name
  byChannel_iff : ∀ channel i, d.byChannel.position? channel = some i ↔
    ∃ m, d.measurements[i]? = some m ∧ m.channel = channel

/-- A schema that passes its own check. -/
def Schema.Checked (s : Schema) : Prop := Schema.make s.units s.format s.min s.max = .ok s

/-- **A dictionary made by registration.** -/
inductive Dictionary.Registered : Dictionary → Prop where
  | empty (title key : String) : Registered (.empty title key)
  | add {d d' : Dictionary} {m : Measurement} : Registered d → (∀ s ∈ m.variants, s.Checked) →
      d.add m = .ok d' → Registered d'

namespace Schema

variable {units : String} {format : Format} {min max : Option Float} {s : Schema}

/-- A schema that was made is made of what was declared, and its bounds are finite. -/
theorem make_eq_ok (h : make units format min max = .ok s) :
    s = ⟨units, format, min, max⟩ ∧ boundDefect? .min min = none ∧
      boundDefect? .max max = none := by
  unfold make at h
  split at h
  · cases h
  · split at h
    case h_1 => cases h
    case h_2 => cases h
    case h_3 hmin hmax =>
      split at h
      · cases h
      · cases h; exact ⟨rfl, hmin, hmax⟩

theorem checked_of_make (h : make units format min max = .ok s) : s.Checked := by
  obtain ⟨rfl, -, -⟩ := make_eq_ok h
  exact h

theorem boundDefect?_eq_none {b : Bound} {x : Float} (h : boundDefect? b (some x) = none) :
    Decimal.isFinite x = true := by
  by_contra hx
  simp [boundDefect?, hx] at h

/-- The bounds of a checked schema are finite. -/
theorem Checked.finite (h : s.Checked) {x : Float} (hx : s.min = some x ∨ s.max = some x) :
    Decimal.isFinite x = true := by
  obtain ⟨-, hmin, hmax⟩ := make_eq_ok h
  rcases hx with hx | hx
  · rw [hx] at hmin; exact boundDefect?_eq_none hmin
  · rw [hx] at hmax; exact boundDefect?_eq_none hmax

end Schema

theorem RawSchema.checked_of_toSchema {raw : RawSchema} {s : Schema} (h : raw.toSchema = .ok s) :
    s.Checked := by
  unfold toSchema at h
  repeat' split at h
  all_goals first
    | cases h; done
    | cases h; rename_i hm; exact Schema.checked_of_make hm

namespace Dictionary

variable {d d' : Dictionary} {m : Measurement}

/-- What a registration that is accepted has found and does. -/
theorem add_eq_ok (h : d.add m = .ok d') :
    (m.name ∉ d.names ∧ Text.NonBlank m.name) ∧ (m.channel ∉ d.channels ∧ Text.NonBlank m.channel) ∧
      m.variants ≠ [] ∧ d'.title = d.title ∧ d'.key = d.key ∧
      d'.measurements = d.measurements ++ [m] := by
  unfold add at h
  split at h
  · cases h
  rename_i hname
  split at h
  · cases h
  rename_i hchannel
  split at h
  · cases h
  rename_i hnameBlank
  split at h
  · cases h
  rename_i hchannelBlank
  split at h
  · cases h
  rename_i hvariants
  cases h
  -- neither index knew the new keys
  exact ⟨
    ⟨d.byName_lists.position?_eq_none_iff.1 hname, Text.nonBlank_of_not_isBlankText hnameBlank⟩,
    ⟨d.byChannel_lists.position?_eq_none_iff.1 hchannel,
      Text.nonBlank_of_not_isBlankText hchannelBlank⟩,
    by simpa using hvariants, rfl, rfl, rfl⟩

theorem byName_eq_some_iff (hn : d.names.Nodup) {name : String} {i : Nat} :
    d.byName.position? name = some i ↔ ∃ m, d.measurements[i]? = some m ∧ m.name = name := by
  rw [d.byName_lists.position?_eq_some_iff hn, List.getElem?_map, Option.map_eq_some_iff]

theorem byChannel_eq_some_iff (hn : d.channels.Nodup) {channel : String} {i : Nat} :
    d.byChannel.position? channel = some i ↔
      ∃ m, d.measurements[i]? = some m ∧ m.channel = channel := by
  rw [d.byChannel_lists.position?_eq_some_iff hn, List.getElem?_map, Option.map_eq_some_iff]

theorem sound_empty (title key : String) : (empty title key).Sound where
  names_nodup := List.nodup_nil
  channels_nodup := List.nodup_nil
  name_nonBlank _ hm := by cases hm
  channel_nonBlank _ hm := by cases hm
  variants_ne_nil _ hm := by cases hm
  byName_iff _ _ := byName_eq_some_iff (d := empty title key) List.nodup_nil
  byChannel_iff _ _ := byChannel_eq_some_iff (d := empty title key) List.nodup_nil

/-- **A registration keeps a dictionary sound.** -/
theorem Sound.add (h : d.Sound) (ha : d.add m = .ok d') : d'.Sound := by
  obtain ⟨⟨hname, hnameText⟩, ⟨hchannel, hchannelText⟩, hvariants, -, -, hms⟩ := add_eq_ok ha
  have hnames : d'.names.Nodup := by
    have hsplit : d'.names = d.names.concat m.name := by simp [names, hms]
    rw [hsplit]; exact h.names_nodup.concat hname
  have hchannels : d'.channels.Nodup := by
    have hsplit : d'.channels = d.channels.concat m.channel := by simp [channels, hms]
    rw [hsplit]; exact h.channels_nodup.concat hchannel
  -- what holds of each measurement holds of the old ones and of the new one
  have hall : ∀ {P : Measurement → Prop}, (∀ x ∈ d.measurements, P x) → P m →
      ∀ x ∈ d'.measurements, P x := by
    intro P hold hnew x hx
    rw [hms] at hx
    rcases List.mem_append.1 hx with hx | hx
    · exact hold x hx
    · rw [List.mem_singleton.1 hx]; exact hnew
  exact {
    names_nodup := hnames
    channels_nodup := hchannels
    name_nonBlank := hall h.name_nonBlank hnameText
    channel_nonBlank := hall h.channel_nonBlank hchannelText
    variants_ne_nil := hall h.variants_ne_nil hvariants
    byName_iff := fun _ _ => byName_eq_some_iff hnames
    byChannel_iff := fun _ _ => byChannel_eq_some_iff hchannels }

namespace Registered

/-- A registered dictionary is sound. -/
theorem sound (h : d.Registered) : d.Sound := by
  induction h with
  | empty title key => exact sound_empty title key
  | add _ _ ha ih => exact ih.add ha

/-- The variants of a registered dictionary are checked. -/
theorem checked (h : d.Registered) {m : Measurement} (hm : m ∈ d.measurements) :
    ∀ s ∈ m.variants, s.Checked := by
  induction h with
  | empty => cases hm
  | add _ hs ha ih =>
    obtain ⟨-, -, -, -, -, hms⟩ := add_eq_ok ha
    rw [hms] at hm
    rcases List.mem_append.1 hm with hm | hm
    · exact ih hm
    · rw [List.mem_singleton.1 hm]; exact hs

/-- Every declared bound is a finite number. -/
theorem bounds_finite (h : d.Registered) {m : Measurement} (hm : m ∈ d.measurements) {s : Schema}
    (hs : s ∈ m.variants) {x : Float} (hx : s.min = some x ∨ s.max = some x) :
    Decimal.isFinite x = true :=
  (h.checked hm s hs).finite hx

end Registered

theorem checkVariants_checked {name : String} : ∀ {raws : List RawSchema} {schemas : List Schema},
    checkVariants name raws = .ok schemas → ∀ s ∈ schemas, s.Checked := by
  intro raws
  induction raws with
  | nil => intro schemas h; cases h; simp
  | cons raw rest ih =>
    intro schemas h
    rw [checkVariants] at h
    split at h
    · cases h
    rename_i schema hschema
    cases hr : checkVariants name rest with
    | error e => rw [hr] at h; cases h
    | ok tail =>
      rw [hr] at h; cases h
      intro s hs
      rcases List.mem_cons.1 hs with rfl | hs
      · exact RawSchema.checked_of_toSchema hschema
      · exact ih hr s hs

theorem Registered.addRaw (h : d.Registered) {name channel : String} {raws : List RawSchema}
    (ha : d.addRaw name channel raws = .ok d') : d'.Registered := by
  unfold Dictionary.addRaw at ha
  split at ha
  · cases ha
  · rename_i hc
    exact .add h (checkVariants_checked hc) ha

end Dictionary

theorem DictionaryDefinition.registered_of_register : ∀ {ms : List MeasurementDefinition}
    {d d' : Dictionary}, d.Registered → register d ms = .ok d' → d'.Registered := by
  intro ms
  induction ms with
  | nil => intro d d' h hr; cases hr; exact h
  | cons m rest ih =>
    intro d d' h hr
    rw [register] at hr
    split at hr
    · cases hr
    · rename_i ha
      exact ih (h.addRaw ha) hr

/-- **A declared dictionary that was accepted is made by registration.** -/
theorem DictionaryDefinition.registered_of_build {definition : DictionaryDefinition}
    {d : Dictionary} (h : definition.build = .ok d) : d.Registered :=
  registered_of_register (.empty _ _) h

/-- A height with a range. -/
def Measurement.altitude : Measurement :=
  ⟨"altitude", "av/alt", [⟨"m", .float, some 0, some 1000⟩]⟩

/-- A phase of the flight, by its name. -/
def Measurement.stage : Measurement := ⟨"stage", "av/stage", [⟨"name", .string, none, none⟩]⟩

/-- A dictionary of two measurements. -/
def Dictionary.avionics : Dictionary :=
  ((empty "Avionics" "av").push .altitude rfl rfl).push .stage rfl rfl

theorem Dictionary.avionics_registered : avionics.Registered := by
  have h : Registered ((empty "Avionics" "av").push .altitude rfl rfl) :=
    .add (m := .altitude) (.empty "Avionics" "av") (List.forall_mem_singleton.2 rfl) rfl
  exact .add (m := .stage) h (List.forall_mem_singleton.2 rfl) rfl

end TelemetryRelay
