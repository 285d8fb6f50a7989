import Mathlib.Data.List.Induction
import TelemetryRelay.Dictionary.Registration
import TelemetryRelay.Proofs.Dictionary.Registered

/-!
# What requests leave of a dictionary

Requests to register come to a new dictionary one after the other, and each is carried out or
refused (`Dictionary.perform`).

* `perform_cases`: a refused request leaves the dictionary as it was, and one that is carried out
  appends the measurement it asks for.
* `mem_replay_iff`: what the dictionary holds in the end are the measurements of the requests that
  were carried out.
* `pairs_warnings`: its warnings name the variants with a suspicious range, in order.
* `replay_leftBy`: all of this for every list of requests, with what every registration keeps.
-/

namespace TelemetryRelay

/-- A measurement that a request asks for: its name, its channel, and its variants in their order,
converted if they are loosely typed. -/
def Registration.Asks : Registration → Measurement → Prop
  | .checked m, m' => m' = m
  | .raw name channel raws, m' => m'.name = name ∧ m'.channel = channel ∧
      List.Forall₂ (fun raw s => raw.toSchema = .ok s) raws m'.variants

/-- A range whose ends coincide or are exchanged. -/
def Schema.Suspicious (s : Schema) : Prop :=
  ∃ low high, s.min = some low ∧ s.max = some high ∧ ((low == high) = true ∨ high < low)

theorem Schema.isSome_rangeWarning_iff {s : Schema} :
    s.rangeWarning.isSome = true ↔ s.Suspicious := by
  unfold rangeWarning Suspicious
  cases s.min with
  | none => simp
  | some low =>
    cases s.max with
    | none => simp
    | some high =>
      cases he : low == high
      · by_cases hlt : high < low <;> simp [hlt, he]
      · simp [he]

instance (s : Schema) : Decidable s.Suspicious := decidable_of_iff _ Schema.isSome_rangeWarning_iff

namespace Dictionary

variable {d d' : Dictionary} {m : Measurement} {r : Registration}

/-- A dictionary with one measurement more, which was new to it. All that the shorter dictionary
answers about other names and channels, the longer one answers too. -/
structure Extends (d' d : Dictionary) (m : Measurement) : Prop where
  title : d'.title = d.title
  key : d'.key = d.key
  measurements : d'.measurements = d.measurements ++ [m]
  names : d'.names = d.names ++ [m.name]
  name_new : m.name ∉ d.names
  channel_new : m.channel ∉ d.channels
  lookup_new : d'.lookup m.name = .ok m.variants
  lookup_other : ∀ name, name ≠ m.name → d'.lookup name = d.lookup name
  ofChannel?_new : d'.ofChannel? m.channel = some m
  ofChannel?_other : ∀ channel, channel ≠ m.channel → d'.ofChannel? channel = d.ofChannel? channel

/-- A request is carried out and appends a measurement. -/
def Registers (d : Dictionary) (r : Registration) (m : Measurement) : Prop :=
  r.Asks m ∧ ∃ d', d.perform r = (none, d') ∧ d'.measurements = d.measurements ++ [m]

/-- The variants with a suspicious range, each by its measurement and its position, in order. -/
def suspects (d : Dictionary) : List (String × Nat) :=
  d.measurements.flatMap fun m =>
    (m.variants.zipIdx.filter fun p => decide p.1.Suspicious).map fun p => (m.name, p.2)

/-- **What requests leave of a new dictionary.** It is sound. A further request is refused and
changes nothing, or is carried out and appends what it asks for. A name is known exactly if a
request for it was carried out, and with the variants of that request. The warnings are those of
the variants with a suspicious range, in order and each once. -/
structure LeftBy (d : Dictionary) (title key : String) (rs : List Registration) : Prop where
  declared : d.title = title ∧ d.key = key
  sound : d.Sound
  next : ∀ r, (∃ e, d.perform r = (some e, d)) ∨
    ∃ m d', r.Asks m ∧ d.perform r = (none, d') ∧ d'.Extends d m
  lookup_iff : ∀ name variants, d.lookup name = .ok variants ↔
    ∃ before r after m, rs = before ++ r :: after ∧
      ((empty title key).replay before).Registers r m ∧
      m.name = name ∧ m.variants = variants
  lookup_unknown : ∀ name, (¬ ∃ before r after m, rs = before ++ r :: after ∧
      ((empty title key).replay before).Registers r m ∧ m.name = name) →
    d.lookup name = .error (.unknownMeasurement name)
  warnings_eq : d.warnings.map (fun w => (w.measurement, w.variant)) = d.suspects
  warnings_nodup : (d.warnings.map fun w => (w.measurement, w.variant)).Nodup
  warnings_kind : ∀ w ∈ d.warnings, ∃ m ∈ d.measurements, m.name = w.measurement ∧
    ∃ s, m.variants[w.variant]? = some s ∧ s.rangeWarning = some w.warning

/-! ### One request -/

theorem checkVariants_eq_ok {name : String} : ∀ {raws : List RawSchema} {schemas : List Schema},
    checkVariants name raws = .ok schemas →
      List.Forall₂ (fun raw s => raw.toSchema = .ok s) raws schemas := by
  intro raws
  induction raws with
  | nil => intro schemas h; cases h; exact .nil
  | cons raw rest ih =>
    intro schemas h
    rw [checkVariants] at h
    split at h
    · cases h
    rename_i schema hschema
    cases hrest : checkVariants name rest with
    | error e => rw [hrest] at h; cases h
    | ok tail => rw [hrest] at h; cases h; exact .cons hschema (ih hrest)

theorem attempt_eq_ok (h : d.attempt r = .ok d') : ∃ m, r.Asks m ∧ d.add m = .ok d' := by
  cases r with
  | checked m => exact ⟨m, rfl, h⟩
  | raw name channel raws =>
    simp only [attempt, addRaw] at h
    split at h
    · cases h
    · rename_i schemas hc
      exact ⟨⟨name, channel, schemas⟩, ⟨rfl, rfl, checkVariants_eq_ok hc⟩, h⟩

/-- **A request is refused and leaves the dictionary as it was, or it is carried out.** -/
theorem perform_cases (d : Dictionary) (r : Registration) :
    (∃ e, d.perform r = (some e, d)) ∨
      ∃ m d', r.Asks m ∧ d.add m = .ok d' ∧ d.perform r = (none, d') := by
  cases ha : d.attempt r with
  | error e => exact Or.inl ⟨e, by simp [perform, ha]⟩
  | ok d' =>
    obtain ⟨m, hm, hadd⟩ := attempt_eq_ok ha
    exact Or.inr ⟨m, d', hm, hadd, by simp [perform, ha]⟩

theorem lookup_congr {name : String} (h : d'.find? name = d.find? name) :
    d'.lookup name = d.lookup name := by
  unfold lookup; rw [h]

/-- A registration extends the dictionary by the measurement. -/
theorem extends_of_add (h : d.add m = .ok d') : d'.Extends d m := by
  obtain ⟨⟨hname, -⟩, ⟨hchannel, -⟩, -, htitle, hkey, hms⟩ := add_eq_ok h
  have hfind : ∀ name, d'.find? name =
      (d.find? name).or (if m.name = name then some m else none) := by
    intro name
    rw [find?_eq, find?_eq, hms, List.find?_append, List.find?_singleton]
    by_cases hn : m.name = name <;> simp [hn]
  have hof : ∀ channel, d'.ofChannel? channel =
      (d.ofChannel? channel).or (if m.channel = channel then some m else none) := by
    intro channel
    rw [ofChannel?_eq, ofChannel?_eq, hms, List.find?_append, List.find?_singleton]
    by_cases hc : m.channel = channel <;> simp [hc]
  have hnone : d.find? m.name = none := by
    rw [find?_eq, List.find?_eq_none]
    intro x hx
    simpa using fun he => hname (List.mem_map.2 ⟨x, hx, he⟩)
  have hofNone : d.ofChannel? m.channel = none := by
    rw [ofChannel?_eq, List.find?_eq_none]
    intro x hx
    simpa using fun he => hchannel (List.mem_map.2 ⟨x, hx, he⟩)
  exact {
    title := htitle
    key := hkey
    measurements := hms
    names := by simp [names, hms]
    name_new := hname
    channel_new := hchannel
    lookup_new := by simp [lookup, hfind, hnone]
    lookup_other := fun name hn => lookup_congr (by simp [hfind, Ne.symm hn])
    ofChannel?_new := by simp [hof, hofNone]
    ofChannel?_other := fun channel hc => by simp [hof, Ne.symm hc] }

/-! ### Many requests -/

theorem replay_concat (d : Dictionary) (rs : List Registration) (r : Registration) :
    d.replay (rs ++ [r]) = ((d.replay rs).perform r).2 := by
  simp [replay, List.foldl_append]

theorem Sound.perform (h : d.Sound) (r : Registration) : (d.perform r).2.Sound := by
  rcases perform_cases d r with ⟨e, he⟩ | ⟨m, d', -, ha, hp⟩
  · rw [he]; exact h
  · rw [hp]; exact h.add ha

theorem Sound.replay (h : d.Sound) (rs : List Registration) : (d.replay rs).Sound := by
  induction rs using List.reverseRecOn with
  | nil => exact h
  | append_singleton rs r ih => rw [replay_concat]; exact ih.perform r

/-- The title and the key stay. -/
theorem replay_declared (d : Dictionary) (rs : List Registration) :
    (d.replay rs).title = d.title ∧ (d.replay rs).key = d.key := by
  induction rs using List.reverseRecOn with
  | nil => exact ⟨rfl, rfl⟩
  | append_singleton rs r ih =>
    rw [replay_concat]
    rcases perform_cases (d.replay rs) r with ⟨e, he⟩ | ⟨m, d', -, ha, hp⟩
    · rw [he]; exact ih
    · obtain ⟨-, -, -, htitle, hkey, -⟩ := add_eq_ok ha
      rw [hp]
      exact ⟨htitle.trans ih.1, hkey.trans ih.2⟩

/-- **A dictionary holds what was registered**, apart from what it held before. -/
theorem mem_replay_iff (d : Dictionary) (rs : List Registration) {m : Measurement} :
    m ∈ (d.replay rs).measurements ↔ m ∈ d.measurements ∨
      ∃ before r after, rs = before ++ r :: after ∧ (d.replay before).Registers r m := by
  induction rs using List.reverseRecOn with
  | nil => simp [replay]
  | append_singleton rs r ih =>
    -- the last request is either refused or appends its own measurement
    have hlast : m ∈ (d.replay (rs ++ [r])).measurements ↔
        m ∈ (d.replay rs).measurements ∨ (d.replay rs).Registers r m := by
      rw [replay_concat]
      rcases perform_cases (d.replay rs) r with ⟨e, he⟩ | ⟨x, d', hasks, ha, hp⟩
      · simp [he, Registers]
      · obtain ⟨-, -, -, -, -, hms⟩ := add_eq_ok ha
        rw [hp]
        simp only [Registers, hp, hms, List.mem_append, List.mem_singleton, Prod.mk.injEq,
          true_and, exists_eq_left', List.append_cancel_left_eq, List.cons.injEq, and_true]
        constructor
        · rintro (h | rfl)
          · exact Or.inl h
          · exact Or.inr ⟨hasks, rfl⟩
        · rintro (h | ⟨-, h⟩)
          · exact Or.inl h
          · exact Or.inr h.symm
    rw [hlast, ih, or_assoc]
    refine or_congr_right ?_
    constructor
    · rintro (⟨before, q, after, rfl, h⟩ | h)
      · exact ⟨before, q, after ++ [r], by simp, h⟩
      · exact ⟨rs, r, [], rfl, h⟩
    · rintro ⟨before, q, after, heq, h⟩
      rcases List.eq_nil_or_concat after with rfl | ⟨init, last, rfl⟩
      · obtain ⟨rfl, hq⟩ := List.append_inj' heq rfl
        cases hq
        exact Or.inr h
      · refine Or.inl ⟨before, q, init, ?_, h⟩
        rw [List.concat_eq_append, ← List.cons_append, ← List.append_assoc] at heq
        exact (List.append_inj' heq rfl).1

/-- A name that is known is that of a measurement. -/
theorem Sound.lookup_eq_ok_iff (h : d.Sound) {name : String} {variants : List Schema} :
    d.lookup name = .ok variants ↔
      ∃ m ∈ d.measurements, m.name = name ∧ m.variants = variants := by
  unfold lookup
  rw [find?_eq]
  cases hf : d.measurements.find? (·.name == name) with
  | none =>
    have hno : ∀ m ∈ d.measurements, m.name ≠ name := by
      intro m hm
      simpa using List.find?_eq_none.1 hf m hm
    simp only [reduceCtorEq, false_iff]
    rintro ⟨m, hm, hn, -⟩
    exact hno m hm hn
  | some m =>
    obtain ⟨hm, hname⟩ := (find?_key_eq_some_iff h.names_nodup).1 hf
    simp only [Except.ok.injEq]
    constructor
    · intro hv; exact ⟨m, hm, hname, hv⟩
    · rintro ⟨m', hm', hname', hv⟩
      have := (find?_key_eq_some_iff h.names_nodup).2 ⟨hm', hname'⟩
      rw [hf] at this
      cases this
      exact hv

theorem lookup_eq_error (d : Dictionary) {name : String} (h : ∀ vs, d.lookup name ≠ .ok vs) :
    d.lookup name = .error (.unknownMeasurement name) := by
  cases hf : d.find? name with
  | none => simp [lookup, hf]
  | some m => exact absurd (by simp [lookup, hf]) (h m.variants)

/-! ### Warnings -/

/-- The warnings of some variants, by their positions. -/
theorem pairs_variantWarnings (name : String) : ∀ (variants : List Schema) (position : Nat),
    (variantWarnings name position variants).map (fun w => (w.measurement, w.variant)) =
      ((variants.zipIdx position).filter fun p => decide p.1.Suspicious).map
        fun p => (name, p.2) := by
  intro variants
  induction variants with
  | nil => intro position; rfl
  | cons s rest ih =>
    intro position
    rw [variantWarnings, List.map_append, ih, List.zipIdx_cons, List.filter_cons]
    by_cases hs : s.Suspicious
    · obtain ⟨w, hw⟩ := Option.isSome_iff_exists.1 (Schema.isSome_rangeWarning_iff.2 hs)
      simp [hw, hs]
    · have hnone : s.rangeWarning = none := by
        rw [← Option.not_isSome_iff_eq_none]
        exact fun h => hs (Schema.isSome_rangeWarning_iff.1 h)
      simp [hnone, hs]

/-- **The warnings are those of the variants with a suspicious range, in order.** -/
theorem pairs_warnings (d : Dictionary) :
    d.warnings.map (fun w => (w.measurement, w.variant)) = d.suspects := by
  simp [warnings, suspects, List.map_flatMap, pairs_variantWarnings]

/-- No variant is named twice. -/
theorem Sound.suspects_nodup (h : d.Sound) : d.suspects.Nodup := by
  have hnames : d.measurements.Pairwise fun m m' => m.name ≠ m'.name :=
    List.pairwise_map.1 h.names_nodup
  refine List.nodup_flatMap.2 ⟨fun m _ => ?_, hnames.imp fun hne => ?_⟩
  · -- within a measurement the positions differ
    have hpos : ((m.variants.zipIdx.filter fun p => decide p.1.Suspicious).map Prod.snd).Nodup := by
      refine List.Nodup.sublist (List.filter_sublist.map Prod.snd) ?_
      rw [List.zipIdx_map_snd]
      exact List.nodup_range'
    refine List.Nodup.of_map Prod.snd ?_
    rw [List.map_map]
    exact hpos
  · -- and two measurements differ in their names
    intro p hp hp'
    obtain ⟨_, -, rfl⟩ := List.mem_map.1 hp
    obtain ⟨_, -, he⟩ := List.mem_map.1 hp'
    exact hne (congrArg Prod.fst he).symm

theorem variantWarnings_kind {name : String} {w : VariantWarning} :
    ∀ {variants : List Schema} {position : Nat}, w ∈ variantWarnings name position variants →
      w.measurement = name ∧ ∃ i s, w.variant = position + i ∧ variants[i]? = some s ∧
        s.rangeWarning = some w.warning := by
  intro variants
  induction variants with
  | nil => intro position h; cases h
  | cons s rest ih =>
    intro position h
    rw [variantWarnings, List.mem_append] at h
    rcases h with h | h
    · obtain ⟨warning, hw, rfl⟩ := Option.map_eq_some_iff.1 (Option.mem_toList.1 h)
      exact ⟨rfl, 0, s, rfl, rfl, hw⟩
    · obtain ⟨hname, i, s', hi, hs', hw⟩ := ih h
      exact ⟨hname, i + 1, s', by omega, hs', hw⟩

/-- A warning is about the range of the variant it names. -/
theorem warnings_kind {w : VariantWarning} (h : w ∈ d.warnings) :
    ∃ m ∈ d.measurements, m.name = w.measurement ∧
      ∃ s, m.variants[w.variant]? = some s ∧ s.rangeWarning = some w.warning := by
  obtain ⟨m, hm, hw⟩ := List.mem_flatMap.1 h
  obtain ⟨hname, i, s, hi, hs, hk⟩ := variantWarnings_kind hw
  rw [Nat.zero_add] at hi
  exact ⟨m, hm, hname.symm, s, hi ▸ hs, hk⟩

/-! ### The whole -/

/-- **Every list of requests keeps a new dictionary in order**, carried out or not, and all that the
dictionary says afterwards is told by the requests that were carried out. -/
theorem replay_leftBy (title key : String) (rs : List Registration) :
    ((empty title key).replay rs).LeftBy title key rs := by
  have hsound : ((empty title key).replay rs).Sound := (sound_empty title key).replay rs
  have hmem : ∀ m, m ∈ ((empty title key).replay rs).measurements ↔
      ∃ before r after, rs = before ++ r :: after ∧
        ((empty title key).replay before).Registers r m := by
    intro m
    rw [mem_replay_iff]
    simp
  exact {
    declared := replay_declared _ rs
    sound := hsound
    next := fun r => by
      rcases perform_cases ((empty title key).replay rs) r with h | ⟨m, d', hasks, ha, hp⟩
      · exact Or.inl h
      · exact Or.inr ⟨m, d', hasks, hp, extends_of_add ha⟩
    lookup_iff := fun name variants => by
      rw [hsound.lookup_eq_ok_iff]
      constructor
      · rintro ⟨m, hm, hname, hv⟩
        obtain ⟨before, r, after, heq, hr⟩ := (hmem m).1 hm
        exact ⟨before, r, after, m, heq, hr, hname, hv⟩
      · rintro ⟨before, r, after, m, heq, hr, hname, hv⟩
        exact ⟨m, (hmem m).2 ⟨before, r, after, heq, hr⟩, hname, hv⟩
    lookup_unknown := fun name hno => by
      refine lookup_eq_error _ fun vs hvs => hno ?_
      obtain ⟨m, hm, hname, -⟩ := hsound.lookup_eq_ok_iff.1 hvs
      obtain ⟨before, r, after, heq, hr⟩ := (hmem m).1 hm
      exact ⟨before, r, after, m, heq, hr, hname⟩
    warnings_eq := pairs_warnings _
    warnings_nodup := by rw [pairs_warnings]; exact hsound.suspects_nodup
    warnings_kind := fun _ hw => warnings_kind hw }

end Dictionary

end TelemetryRelay
