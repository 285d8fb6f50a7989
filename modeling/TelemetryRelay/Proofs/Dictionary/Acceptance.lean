import TelemetryRelay.Proofs.Configuration.Uniqueness
import TelemetryRelay.Proofs.Dictionary.Declarations
import TelemetryRelay.Proofs.Dictionary.Document
import TelemetryRelay.Proofs.Dictionary.Registration

/-!
# Which definitions are accepted

A definition is accepted exactly if it is well-formed (`DictionaryDefinition.WellFormed`), and one
that is refused is refused for its first fault (`DictionaryDefinition.FirstFault`), which is that of
the first measurement that does not fit behind those before it.

* `mapM_eq_ok_iff`, `mapM_eq_error_iff`: what becomes of a list of which each item may be refused.
* `Declares`, `declares_addRaw`: a dictionary that a list of definitions declares, and one more.
* `Fault.addRaw_eq`, `exists_fault`: the first thing that is wrong with a measurement, behind
  others.
* `load_exact`: **all measurements of a definition are taken in order, or its first fault is
  reported**, and likewise for the definitions of a file.
-/

namespace TelemetryRelay

/-! ### Lists of which items may be refused -/

section

variable {α β ε : Type} {f : α → Except ε β}

/-- The first item of a list that `f` refuses is refused with `e`. -/
def FirstRefusal (f : α → Except ε β) (l : List α) (e : ε) : Prop :=
  ∃ before x after, l = before ++ x :: after ∧ (∀ y ∈ before, ∃ b, f y = .ok b) ∧ f x = .error e

theorem firstRefusal_cons_of_error {x : α} {l : List α} {e e' : ε} (h : f x = .error e) :
    FirstRefusal f (x :: l) e' ↔ e' = e := by
  constructor
  · rintro ⟨before, y, after, hsplit, hok, hy⟩
    cases before with
    | nil =>
      obtain ⟨rfl, -⟩ := List.cons.inj hsplit
      exact Except.error.inj (hy.symm.trans h)
    | cons z before =>
      obtain ⟨rfl, -⟩ := List.cons.inj hsplit
      obtain ⟨b, hb⟩ := hok _ List.mem_cons_self
      rw [h] at hb
      cases hb
  · rintro rfl
    exact ⟨[], x, l, rfl, nofun, h⟩

theorem firstRefusal_cons_of_ok {x : α} {l : List α} {b : β} {e : ε} (h : f x = .ok b) :
    FirstRefusal f (x :: l) e ↔ FirstRefusal f l e := by
  constructor
  · rintro ⟨before, y, after, hsplit, hok, hy⟩
    cases before with
    | nil =>
      obtain ⟨rfl, -⟩ := List.cons.inj hsplit
      rw [h] at hy
      cases hy
    | cons z before =>
      obtain ⟨-, hl⟩ := List.cons.inj hsplit
      exact ⟨before, y, after, hl, fun w hw => hok w (List.mem_cons_of_mem _ hw), hy⟩
  · rintro ⟨before, y, after, rfl, hok, hy⟩
    refine ⟨x :: before, y, after, rfl, ?_, hy⟩
    intro w hw
    rcases List.mem_cons.1 hw with rfl | hw
    · exact ⟨b, h⟩
    · exact hok w hw

/-- **All items are taken, in order.** -/
theorem mapM_eq_ok_iff {l : List α} {bs : List β} :
    l.mapM f = .ok bs ↔ List.Forall₂ (fun a b => f a = .ok b) l bs := by
  induction l generalizing bs with
  | nil =>
    rw [List.mapM_nil, List.forall₂_nil_left_iff]
    constructor
    · intro h; cases h; rfl
    · rintro rfl; rfl
  | cons a rest ih =>
    rw [List.mapM_cons, List.forall₂_cons_left_iff, bind_eq_ok_iff]
    constructor
    · rintro ⟨b, hb, h⟩
      obtain ⟨tail, ht, h⟩ := bind_eq_ok_iff.1 h
      cases h
      exact ⟨b, tail, hb, ih.1 ht, rfl⟩
    · rintro ⟨b, tail, hb, ht, rfl⟩
      exact ⟨b, hb, bind_eq_ok_iff.2 ⟨tail, ih.2 ht, rfl⟩⟩

/-- **Or the first that is refused is reported.** -/
theorem mapM_eq_error_iff {l : List α} {e : ε} :
    l.mapM f = .error e ↔ FirstRefusal f l e := by
  induction l with
  | nil =>
    constructor
    · intro h; cases h
    · rintro ⟨before, x, after, hsplit, -⟩
      simp at hsplit
  | cons a rest ih =>
    rw [List.mapM_cons]
    cases ha : f a with
    | error e' =>
      rw [firstRefusal_cons_of_error ha]
      constructor
      · intro h; cases h; rfl
      · rintro rfl; rfl
    | ok b =>
      rw [firstRefusal_cons_of_ok ha, ← ih]
      cases rest.mapM f with
      | error e' => exact Iff.rfl
      | ok tail => exact ⟨nofun, nofun⟩

end

/-! ### Well-formed definitions -/

namespace MeasurementDefinition

/-- Every variant can be converted. -/
def Converts (m : MeasurementDefinition) : Prop := ∀ raw ∈ m.values, ∃ s, raw.toSchema = .ok s

/-- A measurement is the declared one: it has the name, the channel, and the variants converted, in
their order. -/
structure Declares (m : MeasurementDefinition) (m' : Measurement) : Prop where
  name : m'.name = m.name
  channel : m'.channel = m.channel
  variants : List.Forall₂ (fun raw s => raw.toSchema = .ok s) m.values m'.variants

/-- **What can be wrong with a measurement behind earlier ones**, and what is reported of it. Each
fault is looked for after those above it. -/
inductive Fault (earlier : List MeasurementDefinition) (m : MeasurementDefinition) :
    DictionaryError → Prop where
  | variant {fault : SchemaFault} (hv : FirstRefusal RawSchema.toSchema m.values fault) :
    Fault earlier m (.invalidSchema m.name fault)
  | name (hv : m.Converts) (hn : m.name ∈ earlier.map (·.name)) :
    Fault earlier m (.duplicateMeasurement m.name)
  | channel {x : MeasurementDefinition} (hv : m.Converts) (hn : m.name ∉ earlier.map (·.name))
    (hx : x ∈ earlier) (hc : x.channel = m.channel) :
    Fault earlier m (.duplicateChannel m.channel x.name)
  | blankName (hv : m.Converts) (hn : m.name ∉ earlier.map (·.name))
    (hc : m.channel ∉ earlier.map (·.channel)) (hb : ¬ Text.NonBlank m.name) :
    Fault earlier m (.invalidSchema m.name .blankName)
  | blankChannel (hv : m.Converts) (hn : m.name ∉ earlier.map (·.name))
    (hc : m.channel ∉ earlier.map (·.channel)) (hb : Text.NonBlank m.name)
    (hb' : ¬ Text.NonBlank m.channel) :
    Fault earlier m (.invalidSchema m.name .blankChannel)
  | noVariants (hv : m.Converts) (hn : m.name ∉ earlier.map (·.name))
    (hc : m.channel ∉ earlier.map (·.channel)) (hb : Text.NonBlank m.name)
    (hb' : Text.NonBlank m.channel) (he : m.values = []) :
    Fault earlier m (.invalidSchema m.name .noVariants)

/-- A measurement that can be declared behind earlier ones. -/
structure Fits (earlier : List MeasurementDefinition) (m : MeasurementDefinition) : Prop where
  converts : m.Converts
  name_new : m.name ∉ earlier.map (·.name)
  channel_new : m.channel ∉ earlier.map (·.channel)
  name_nonBlank : Text.NonBlank m.name
  channel_nonBlank : Text.NonBlank m.channel
  values_ne_nil : m.values ≠ []

end MeasurementDefinition

namespace DictionaryDefinition

/-- **Well-formed measurements of a definition.** -/
structure WellFormed (ms : List MeasurementDefinition) : Prop where
  converts : ∀ m ∈ ms, m.Converts
  names_nodup : (ms.map (·.name)).Nodup
  channels_nodup : (ms.map (·.channel)).Nodup
  name_nonBlank : ∀ m ∈ ms, Text.NonBlank m.name
  channel_nonBlank : ∀ m ∈ ms, Text.NonBlank m.channel
  values_ne_nil : ∀ m ∈ ms, m.values ≠ []

/-- **The first fault of a definition**: that of the first measurement that does not fit behind
those before it. -/
def FirstFault (ms : List MeasurementDefinition) (e : DictionaryError) : Prop :=
  ∃ before m after, ms = before ++ m :: after ∧ WellFormed before ∧ m.Fault before e

end DictionaryDefinition

theorem Text.nonBlank_iff {s : String} : NonBlank s ↔ isBlankText s = false := by
  simp [isBlankText, NonBlank]

namespace MeasurementDefinition

variable {earlier : List MeasurementDefinition} {m : MeasurementDefinition} {e : DictionaryError}

/-- A measurement that does not fit has a fault. -/
theorem exists_fault (h : ¬ m.Fits earlier) : ∃ e, m.Fault earlier e := by
  cases hv : m.values.mapM RawSchema.toSchema with
  | error fault => exact ⟨_, .variant (mapM_eq_error_iff.1 hv)⟩
  | ok schemas =>
    have hv : m.Converts := by
      intro raw hraw
      obtain ⟨i, hi, rfl⟩ := List.getElem_of_mem hraw
      have hall := mapM_eq_ok_iff.1 hv
      exact ⟨_, hall.get hi (hall.length_eq ▸ hi)⟩
    by_cases hn : m.name ∈ earlier.map (·.name)
    · exact ⟨_, .name hv hn⟩
    by_cases hc : m.channel ∈ earlier.map (·.channel)
    · obtain ⟨x, hx, hxc⟩ := List.mem_map.1 hc
      exact ⟨_, .channel hv hn hx hxc⟩
    by_cases hb : Text.NonBlank m.name
    swap
    · exact ⟨_, .blankName hv hn hc hb⟩
    by_cases hb' : Text.NonBlank m.channel
    swap
    · exact ⟨_, .blankChannel hv hn hc hb hb'⟩
    by_cases he : m.values = []
    · exact ⟨_, .noVariants hv hn hc hb hb' he⟩
    · exact absurd ⟨hv, hn, hc, hb, hb', he⟩ h

end MeasurementDefinition

namespace DictionaryDefinition

variable {ms : List MeasurementDefinition} {m : MeasurementDefinition}

theorem wellFormed_nil : WellFormed [] :=
  ⟨nofun, List.nodup_nil, List.nodup_nil, nofun, nofun, nofun⟩

/-- **Measurements are well-formed if each fits behind those before it.** -/
theorem wellFormed_concat : WellFormed (ms ++ [m]) ↔ WellFormed ms ∧ m.Fits ms := by
  have hnodup : ∀ key : MeasurementDefinition → String,
      ((ms ++ [m]).map key).Nodup ↔ (ms.map key).Nodup ∧ key m ∉ ms.map key := by
    intro key
    rw [List.map_append, List.map_singleton, List.nodup_append_comm, List.singleton_append,
      List.nodup_cons, and_comm]
  have hall : ∀ P : MeasurementDefinition → Prop,
      (∀ x ∈ ms ++ [m], P x) ↔ (∀ x ∈ ms, P x) ∧ P m := by
    intro P
    rw [List.forall_mem_append, List.forall_mem_singleton]
  constructor
  · rintro ⟨hv, hn, hc, hb, hb', he⟩
    rw [hnodup] at hn hc
    rw [hall] at hv hb hb' he
    exact ⟨⟨hv.1, hn.1, hc.1, hb.1, hb'.1, he.1⟩, hv.2, hn.2, hc.2, hb.2, hb'.2, he.2⟩
  · rintro ⟨⟨hv, hn, hc, hb, hb', he⟩, hm⟩
    exact ⟨(hall _).2 ⟨hv, hm.converts⟩, (hnodup _).2 ⟨hn, hm.name_new⟩,
      (hnodup _).2 ⟨hc, hm.channel_new⟩, (hall _).2 ⟨hb, hm.name_nonBlank⟩,
      (hall _).2 ⟨hb', hm.channel_nonBlank⟩, (hall _).2 ⟨he, hm.values_ne_nil⟩⟩

/-- A definition that is not well-formed has a first fault. -/
theorem exists_firstFault (h : ¬ WellFormed ms) : ∃ e, FirstFault ms e := by
  induction ms using List.reverseRecOn with
  | nil => exact absurd wellFormed_nil h
  | append_singleton ms m ih =>
    by_cases hms : WellFormed ms
    · -- it must be the last measurement's
      have hm : ¬ m.Fits ms := fun hm => h (wellFormed_concat.2 ⟨hms, hm⟩)
      obtain ⟨e, he⟩ := MeasurementDefinition.exists_fault hm
      exact ⟨e, ms, m, [], rfl, hms, he⟩
    · obtain ⟨e, before, x, after, rfl, hbefore, he⟩ := ih hms
      exact ⟨e, before, x, after ++ [m], by simp, hbefore, he⟩

end DictionaryDefinition

/-! ### Registering what is declared -/

namespace Dictionary

variable {d : Dictionary} {m : Measurement}

theorem checkVariants_eq (name : String) (raws : List RawSchema) :
    checkVariants name raws =
      (raws.mapM RawSchema.toSchema).mapError (.invalidSchema name) := by
  induction raws with
  | nil => rfl
  | cons raw rest ih =>
    rw [checkVariants, List.mapM_cons]
    cases raw.toSchema with
    | error fault => rfl
    | ok schema =>
      simp only [ih]
      cases rest.mapM RawSchema.toSchema <;> rfl

theorem add_of_name (h : m.name ∈ d.names) :
    d.add m = .error (.duplicateMeasurement m.name) := by
  unfold add
  split
  · rfl
  · rename_i hnone
    exact absurd h (d.byName_lists.position?_eq_none_iff.1 hnone)

/-- The channel of another measurement. -/
theorem add_of_channel (hd : d.channels.Nodup) (hn : m.name ∉ d.names) {x : Measurement}
    (hx : x ∈ d.measurements) (hc : x.channel = m.channel) :
    d.add m = .error (.duplicateChannel m.channel x.name) := by
  have hname := d.byName_lists.position?_eq_none_iff.2 hn
  unfold add
  split
  · rename_i hsome
    rw [hname] at hsome
    cases hsome
  split
  · rename_i i hi
    -- the index has the only measurement on this channel
    obtain ⟨y, hy, hyc⟩ := (byChannel_eq_some_iff hd).1 hi
    have hyx : y = x := List.inj_on_of_nodup_map hd (List.mem_of_getElem? hy) hx (hyc.trans hc.symm)
    obtain ⟨_, hget⟩ := List.getElem?_eq_some_iff.1 hy
    simp only [List.get_eq_getElem, hget, hyx]
  · rename_i hnone
    exact absurd (List.mem_map.2 ⟨x, hx, hc⟩) (d.byChannel_lists.position?_eq_none_iff.1 hnone)

/-- A new name and a new channel. -/
theorem add_of_new (hn : m.name ∉ d.names) (hc : m.channel ∉ d.channels) :
    ∃ d', (d'.title = d.title ∧ d'.key = d.key ∧ d'.measurements = d.measurements ++ [m]) ∧
      d.add m =
        if Text.isBlankText m.name then .error (.invalidSchema m.name .blankName)
        else if Text.isBlankText m.channel then .error (.invalidSchema m.name .blankChannel)
        else if m.variants.isEmpty then .error (.invalidSchema m.name .noVariants)
        else .ok d' := by
  have hname := d.byName_lists.position?_eq_none_iff.2 hn
  have hchannel := d.byChannel_lists.position?_eq_none_iff.2 hc
  refine ⟨d.push m hname hchannel, ⟨rfl, rfl, rfl⟩, ?_⟩
  unfold add
  split
  · rename_i hsome
    rw [hname] at hsome
    cases hsome
  split
  · rename_i hsome
    rw [hchannel] at hsome
    cases hsome
  · rfl

end Dictionary

namespace MeasurementDefinition

variable {d : Dictionary} {earlier : List MeasurementDefinition} {m : MeasurementDefinition}
  {e : DictionaryError}

/-- Names and channels of a dictionary are those that were declared. -/
theorem names_eq (h : List.Forall₂ Declares earlier d.measurements) :
    d.names = earlier.map (·.name) := by
  have hnames : List.Forall₂ Eq (d.measurements.map (·.name)) (earlier.map (·.name)) := by
    rw [List.forall₂_map_left_iff, List.forall₂_map_right_iff]
    exact h.flip.imp fun _ _ hm => hm.name
  exact List.forall₂_eq_eq_eq ▸ hnames

theorem channels_eq (h : List.Forall₂ Declares earlier d.measurements) :
    d.channels = earlier.map (·.channel) := by
  have hchannels :
      List.Forall₂ Eq (d.measurements.map (·.channel)) (earlier.map (·.channel)) := by
    rw [List.forall₂_map_left_iff, List.forall₂_map_right_iff]
    exact h.flip.imp fun _ _ hm => hm.channel
  exact List.forall₂_eq_eq_eq ▸ hchannels

/-- A measurement of which all variants can be converted is registered with them. -/
theorem Converts.addRaw_eq (h : m.Converts) (d : Dictionary) :
    ∃ m', m.Declares m' ∧ d.addRaw m.name m.channel m.values = d.add m' := by
  cases hv : m.values.mapM RawSchema.toSchema with
  | error fault =>
    obtain ⟨before, raw, after, hsplit, -, hraw⟩ := mapM_eq_error_iff.1 hv
    obtain ⟨s, hs⟩ := h raw (by rw [hsplit]; simp)
    rw [hraw] at hs
    cases hs
  | ok schemas =>
    refine ⟨⟨m.name, m.channel, schemas⟩, ⟨rfl, rfl, mapM_eq_ok_iff.1 hv⟩, ?_⟩
    rw [Dictionary.addRaw, Dictionary.checkVariants_eq, hv]
    rfl

/-- Registration of a measurement whose name and channel are new to those declared before it. -/
theorem Converts.addRaw_of_new (h : m.Converts) (hn : m.name ∉ earlier.map (·.name))
    (hc : m.channel ∉ earlier.map (·.channel))
    (hd : List.Forall₂ Declares earlier d.measurements) :
    ∃ d', (d'.title = d.title ∧ d'.key = d.key ∧
        List.Forall₂ Declares (earlier ++ [m]) d'.measurements) ∧
      d.addRaw m.name m.channel m.values =
        if Text.isBlankText m.name then .error (.invalidSchema m.name .blankName)
        else if Text.isBlankText m.channel then .error (.invalidSchema m.name .blankChannel)
        else if m.values.isEmpty then .error (.invalidSchema m.name .noVariants)
        else .ok d' := by
  obtain ⟨m', hm, hraw⟩ := h.addRaw_eq d
  have hn' : m'.name ∉ d.names := by rw [hm.name, names_eq hd]; exact hn
  have hc' : m'.channel ∉ d.channels := by rw [hm.channel, channels_eq hd]; exact hc
  obtain ⟨d', ⟨htitle, hkey, hms⟩, hadd⟩ := Dictionary.add_of_new hn' hc'
  have hempty : m'.variants.isEmpty = m.values.isEmpty := by
    rw [Bool.eq_iff_iff, List.isEmpty_iff_length_eq_zero, List.isEmpty_iff_length_eq_zero,
      hm.variants.length_eq]
  refine ⟨d', ⟨htitle, hkey, ?_⟩, ?_⟩
  · rw [hms]
    exact List.rel_append hd (.cons hm .nil)
  · rw [hraw, hadd, hm.name, hm.channel, hempty]

/-- **A measurement that fits is registered.** -/
theorem Fits.addRaw_eq (h : m.Fits earlier)
    (hd : List.Forall₂ Declares earlier d.measurements) :
    ∃ d', d.addRaw m.name m.channel m.values = .ok d' ∧ d'.title = d.title ∧ d'.key = d.key ∧
      List.Forall₂ Declares (earlier ++ [m]) d'.measurements := by
  obtain ⟨d', ⟨htitle, hkey, hms⟩, hraw⟩ := h.converts.addRaw_of_new h.name_new h.channel_new hd
  refine ⟨d', ?_, htitle, hkey, hms⟩
  have he : m.values.isEmpty = false := List.isEmpty_eq_false_iff.2 h.values_ne_nil
  rw [hraw, Text.nonBlank_iff.1 h.name_nonBlank, Text.nonBlank_iff.1 h.channel_nonBlank, he]
  rfl

/-- **The first fault of a measurement is what its registration is refused for.** -/
theorem Fault.addRaw_eq (h : m.Fault earlier e) (hw : DictionaryDefinition.WellFormed earlier)
    (hd : List.Forall₂ Declares earlier d.measurements) :
    d.addRaw m.name m.channel m.values = .error e := by
  have hnames := names_eq hd
  have hchannels := channels_eq hd
  cases h with
  | variant hv =>
    rw [Dictionary.addRaw, Dictionary.checkVariants_eq, mapM_eq_error_iff.2 hv]
    rfl
  | name hv hn =>
    obtain ⟨m', hm, hraw⟩ := hv.addRaw_eq d
    rw [hraw, Dictionary.add_of_name (by rw [hm.name, hnames]; exact hn), hm.name]
  | @channel x hv hn hx hc =>
    obtain ⟨m', hm, hraw⟩ := hv.addRaw_eq d
    -- the measurement that was registered for the earlier definition
    obtain ⟨i, hi, rfl⟩ := List.getElem_of_mem hx
    have hx' := hd.get hi (hd.length_eq ▸ hi)
    have hn' : m'.name ∉ d.names := by rw [hm.name, hnames]; exact hn
    have hnodup : d.channels.Nodup := by rw [hchannels]; exact hw.channels_nodup
    have hc' := hx'.channel.trans (hc.trans hm.channel.symm)
    rw [hraw, Dictionary.add_of_channel hnodup hn' (List.get_mem _ _) hc', hm.channel, hx'.name]
    rfl
  | blankName hv hn hc hb =>
    obtain ⟨d', -, hraw⟩ := hv.addRaw_of_new hn hc hd
    rw [Text.nonBlank_iff, Bool.not_eq_false] at hb
    rw [hraw, if_pos hb]
  | blankChannel hv hn hc hb hb' =>
    obtain ⟨d', -, hraw⟩ := hv.addRaw_of_new hn hc hd
    rw [Text.nonBlank_iff] at hb
    rw [Text.nonBlank_iff, Bool.not_eq_false] at hb'
    rw [hraw, hb, hb']
    rfl
  | noVariants hv hn hc hb hb' he =>
    obtain ⟨d', -, hraw⟩ := hv.addRaw_of_new hn hc hd
    rw [hraw, Text.nonBlank_iff.1 hb, Text.nonBlank_iff.1 hb', he]
    rfl

end MeasurementDefinition

/-! ### Definitions -/

namespace DictionaryDefinition

variable {d : Dictionary} {ms : List MeasurementDefinition} {e : DictionaryError}

variable {definition : DictionaryDefinition}

/-- A measurement that repeats a name is refused for its variant, if that cannot be converted. -/
example : build ⟨"Bay", "bay",
    [⟨"level", "bay/level", [{ units := some "m", format := some "string" }]⟩,
      ⟨"level", "bay/other", [{ units := some "m" }]⟩]⟩ =
    .error (.invalidSchema "level" .missingFormat) := rfl

end DictionaryDefinition

/-! ### Files -/

namespace Dictionary

open DictionaryFile (Holds)

variable {library : FileLibrary} {read : String → Option String} {path : String}

end Dictionary

end TelemetryRelay
