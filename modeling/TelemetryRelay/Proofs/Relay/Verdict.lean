import Mathlib.Data.List.Nodup
import TelemetryRelay.Proofs.Decimal.Order
import TelemetryRelay.Proofs.Dictionary.Registered
import TelemetryRelay.Proofs.Relay.Trace

/-!
# Verdicts on messages

`Relay.judge` decides on a message by two searches and the range of one schema. Where no channel is
declared twice the searches find the one declaration there is, so the verdict can be said without
them: a message is *unknown*, *malformed* or *relayed* (`Unknown`, `Malformed`, `Relayed`), a relayed
one is *filed* as a record (`Filed`), and its value may be *out of range* (`Exceeding`).

* `judge_unknown_iff`, `judge_malformed_iff`, `record?_isSome_iff`: which verdict is given.
* `record?_eq_some_iff`: the record carries the key and the name of the one declaration.
* `forall₂_filed`: the records of some messages are those of the relayed ones, in their order.
* `outOfRange_iff`: which values are out of range.
-/

namespace TelemetryRelay

/-- What the payload of a message says. -/
def Arrival.decoded (a : Arrival) : Except FrameFault Frame :=
  Frame.decode a.message.topic a.message.payload a.now

namespace Relay

variable {ds : List Dictionary} {a : Arrival}

/-- A measurement that is declared for a channel, and the dictionary that declares it. -/
def Declares (ds : List Dictionary) (channel : String) (d : Dictionary) (m : Measurement) : Prop :=
  d ∈ ds ∧ m ∈ d.measurements ∧ m.channel = channel

/-- No channel is declared twice. -/
def Unambiguous (ds : List Dictionary) : Prop := (ds.flatMap Dictionary.channels).Nodup

/-- No measurement is declared for the channel of the message. -/
def Unknown (ds : List Dictionary) (a : Arrival) : Prop := ∀ d m, ¬ Declares ds a.message.topic d m

/-- The channel is declared, and the payload is no sample. -/
def Malformed (ds : List Dictionary) (a : Arrival) : Prop :=
  (∃ d m, Declares ds a.message.topic d m) ∧ ∃ fault, a.decoded = .error fault

/-- The channel is declared, and the payload is a sample. -/
def Relayed (ds : List Dictionary) (a : Arrival) : Prop :=
  (∃ d m, Declares ds a.message.topic d m) ∧ ∃ frame, a.decoded = .ok frame

/-- **The record of a relayed message**: the key of the dictionary and the name of the measurement
that its channel belongs to, and the time and the value of its sample. -/
def Filed (ds : List Dictionary) (a : Arrival) (r : Record) : Prop :=
  ∃ d m frame, Declares ds a.message.topic d m ∧ a.decoded = .ok frame ∧
    r = ⟨d.key, m.name, frame.timestamp, frame.value⟩

/-- A value below the lower or above the upper end of the range of the first variant, if both ends
are declared and in order. -/
def OutOfRange (m : Measurement) (value : Float) : Prop :=
  ∃ s low high, m.variants.head? = some s ∧ s.min = some low ∧ s.max = some high ∧ low < high ∧
    (value < low ∨ high < value)

/-- A relayed message whose value is out of range. -/
def Exceeding (ds : List Dictionary) (a : Arrival) : Prop :=
  ∃ d m frame, Declares ds a.message.topic d m ∧ a.decoded = .ok frame ∧
    OutOfRange m frame.value

/-! ### The searches -/

theorem declares_cons {d₀ d : Dictionary} {m : Measurement} {channel : String} :
    Declares (d₀ :: ds) channel d m ↔
      (d = d₀ ∧ m ∈ d₀.measurements ∧ m.channel = channel) ∨ Declares ds channel d m := by
  unfold Declares
  rw [List.mem_cons]
  constructor
  · rintro ⟨rfl | hd, hm⟩
    · exact Or.inl ⟨rfl, hm⟩
    · exact Or.inr ⟨hd, hm⟩
  · rintro (⟨rfl, hm⟩ | ⟨hd, hm⟩)
    · exact ⟨Or.inl rfl, hm⟩
    · exact ⟨Or.inr hd, hm⟩

theorem mem_channels {d : Dictionary} {channel : String} :
    channel ∈ d.channels ↔ ∃ m ∈ d.measurements, m.channel = channel := List.mem_map

/-- **The search finds the declaration of a channel.** -/
theorem resolve?_eq_some_iff {channel : String} {d : Dictionary} {m : Measurement} :
    ∀ {ds : List Dictionary}, Unambiguous ds →
      (resolve? ds channel = some (d, m) ↔ Declares ds channel d m) := by
  intro ds
  induction ds with
  | nil => intro _; simp [resolve?, Declares]
  | cons d₀ rest ih =>
    intro hn
    unfold Unambiguous at hn
    rw [List.flatMap_cons, List.nodup_append] at hn
    obtain ⟨hd₀, hrest, hdisj⟩ := hn
    rw [declares_cons, resolve?]
    rw [d₀.ofChannel?_eq channel]
    cases ho : d₀.measurements.find? (·.channel == channel) with
    | some m₀ =>
      obtain ⟨hm₀, hc₀⟩ := (find?_key_eq_some_iff hd₀).1 ho
      simp only [Option.some.injEq, Prod.mk.injEq]
      constructor
      · rintro ⟨rfl, rfl⟩; exact Or.inl ⟨rfl, hm₀, hc₀⟩
      · rintro (⟨rfl, hm, hc⟩ | ⟨hd, hm, hc⟩)
        · have := (find?_key_eq_some_iff hd₀).2 ⟨hm, hc⟩
          rw [ho] at this
          exact ⟨rfl, Option.some.inj this⟩
        · -- two dictionaries would declare the channel
          exfalso
          exact hdisj channel (mem_channels.2 ⟨m₀, hm₀, hc₀⟩) channel
            (List.mem_flatMap.2 ⟨d, hd, mem_channels.2 ⟨m, hm, hc⟩⟩) rfl
    | none =>
      rw [ih hrest]
      constructor
      · exact Or.inr
      · rintro (⟨rfl, hm, hc⟩ | h)
        · have := List.find?_eq_none.1 ho m hm
          simp [hc] at this
        · exact h

theorem resolve?_eq_none_iff {channel : String} : ∀ {ds : List Dictionary},
    resolve? ds channel = none ↔ ∀ d m, ¬ Declares ds channel d m := by
  intro ds
  induction ds with
  | nil => simp [resolve?, Declares]
  | cons d₀ rest ih =>
    rw [resolve?, d₀.ofChannel?_eq channel]
    cases ho : d₀.measurements.find? (·.channel == channel) with
    | some m₀ =>
      have hd : Declares (d₀ :: rest) channel d₀ m₀ :=
        ⟨List.mem_cons_self, List.mem_of_find?_eq_some ho, by simpa using List.find?_some ho⟩
      constructor
      · intro h; cases h
      · intro h; exact absurd hd (h d₀ m₀)
    | none =>
      rw [ih]
      constructor
      · intro h d m hd
        rcases declares_cons.1 hd with ⟨rfl, hm, hc⟩ | hd
        · have := List.find?_eq_none.1 ho m hm
          simp [hc] at this
        · exact h d m hd
      · intro h d m hd
        exact h d m (declares_cons.2 (Or.inr hd))

/-- At most one measurement is declared for a channel. -/
theorem Declares.unique (hn : Unambiguous ds) {channel : String} {d d' : Dictionary}
    {m m' : Measurement} (h : Declares ds channel d m) (h' : Declares ds channel d' m') :
    d' = d ∧ m' = m := by
  have := (resolve?_eq_some_iff hn).2 h
  rw [(resolve?_eq_some_iff hn).2 h'] at this
  cases this
  exact ⟨rfl, rfl⟩

/-! ### The verdict -/

theorem judge_of_not_declared (h : Unknown ds a) :
    judge ds a.now a.message = .unknown := by
  unfold judge
  rw [resolve?_eq_none_iff.2 h]

theorem judge_of_declared (hn : Unambiguous ds) {d : Dictionary} {m : Measurement}
    (h : Declares ds a.message.topic d m) : judge ds a.now a.message =
      match a.decoded with
      | .error _ => .malformed
      | .ok frame => .relay frame ⟨d.key, m.name, frame.timestamp, frame.value⟩
          (exceedsRange m frame.value) := by
  unfold judge
  rw [(resolve?_eq_some_iff hn).2 h]
  rfl

theorem judge_unknown_iff (hn : Unambiguous ds) :
    judge ds a.now a.message = .unknown ↔ Unknown ds a := by
  refine ⟨fun h d m hd => ?_, judge_of_not_declared⟩
  rw [judge_of_declared hn hd] at h
  split at h <;> cases h

theorem judge_malformed_iff (hn : Unambiguous ds) :
    judge ds a.now a.message = .malformed ↔ Malformed ds a := by
  constructor
  · intro h
    by_cases hu : Unknown ds a
    · rw [judge_of_not_declared hu] at h; cases h
    · obtain ⟨d, m, hd⟩ : ∃ d m, Declares ds a.message.topic d m := by
        simpa [Unknown] using hu
      rw [judge_of_declared hn hd] at h
      split at h
      case h_1 fault he => exact ⟨⟨d, m, hd⟩, fault, he⟩
      case h_2 => cases h
  · rintro ⟨⟨d, m, hd⟩, fault, he⟩
    rw [judge_of_declared hn hd, he]

theorem judge_relay_iff (hn : Unambiguous ds) {frame : Frame} {r : Record} {out : Bool} :
    judge ds a.now a.message = .relay frame r out ↔
      ∃ d m, Declares ds a.message.topic d m ∧ a.decoded = .ok frame ∧
        r = ⟨d.key, m.name, frame.timestamp, frame.value⟩ ∧
        out = exceedsRange m frame.value := by
  constructor
  · intro h
    by_cases hu : Unknown ds a
    · rw [judge_of_not_declared hu] at h; cases h
    · obtain ⟨d, m, hd⟩ : ∃ d m, Declares ds a.message.topic d m := by
        simpa [Unknown] using hu
      rw [judge_of_declared hn hd] at h
      split at h
      case h_1 => cases h
      case h_2 frame' he =>
        cases h
        exact ⟨d, m, hd, he, rfl, rfl⟩
  · rintro ⟨d, m, hd, he, rfl, rfl⟩
    rw [judge_of_declared hn hd, he]

/-- **A relayed message gives the record that it is filed as**, and no other message gives one. -/
theorem record?_eq_some_iff (hn : Unambiguous ds) {r : Record} :
    (judge ds a.now a.message).record? = some r ↔ Filed ds a r := by
  constructor
  · intro h
    cases hv : judge ds a.now a.message with
    | unknown => rw [hv] at h; cases h
    | malformed => rw [hv] at h; cases h
    | relay frame r' out =>
      rw [hv] at h; cases h
      obtain ⟨d, m, hd, he, hr, -⟩ := (judge_relay_iff hn).1 hv
      exact ⟨d, m, frame, hd, he, hr⟩
  · rintro ⟨d, m, frame, hd, he, rfl⟩
    rw [(judge_relay_iff hn).2 ⟨d, m, hd, he, rfl, rfl⟩]
    rfl

theorem relayed_iff_filed : Relayed ds a ↔ ∃ r, Filed ds a r := by
  constructor
  · rintro ⟨⟨d, m, hd⟩, frame, he⟩; exact ⟨_, d, m, frame, hd, he, rfl⟩
  · rintro ⟨_, d, m, frame, hd, he, -⟩; exact ⟨⟨d, m, hd⟩, frame, he⟩

theorem record?_isSome_iff (hn : Unambiguous ds) :
    (judge ds a.now a.message).record?.isSome = true ↔ Relayed ds a := by
  rw [Option.isSome_iff_exists, relayed_iff_filed]
  simp only [record?_eq_some_iff hn]

open Classical in
/-- The relayed messages of a list and their records, one by one. -/
theorem forall₂_filed (hn : Unambiguous ds) (arrivals : List Arrival) :
    List.Forall₂ (Filed ds) (arrivals.filter fun a => decide (Relayed ds a))
      (arrivals.filterMap fun a => (judge ds a.now a.message).record?) := by
  induction arrivals with
  | nil => exact .nil
  | cons a rest ih =>
    cases hr : (judge ds a.now a.message).record? with
    | none =>
      have hn' : ¬ Relayed ds a := fun h => by
        rw [← record?_isSome_iff hn, hr] at h; cases h
      rw [List.filter_cons_of_neg (by simpa using hn'), List.filterMap_cons, hr]
      exact ih
    | some r =>
      have hf : Filed ds a r := (record?_eq_some_iff hn).1 hr
      have hr' : Relayed ds a := relayed_iff_filed.2 ⟨r, hf⟩
      rw [List.filter_cons_of_pos (by simpa using hr'), List.filterMap_cons, hr]
      exact .cons hf ih

/-- The text of the frame that is sent for a message. -/
def frameText? (ds : List Dictionary) (a : Arrival) : Option String :=
  match judge ds a.now a.message with
  | .relay frame _ _ => some frame.text
  | _ => none

/-- **A frame is sent for the relayed messages**, and it is that of the sample. -/
theorem frameText?_eq_some_iff {text : String} : frameText? ds a = some text ↔
    Relayed ds a ∧ ∃ frame, a.decoded = .ok frame ∧ frame.text = text := by
  unfold frameText? judge
  cases hr : resolve? ds a.message.topic with
  | none =>
    constructor
    · intro h; cases h
    · rintro ⟨⟨⟨d, m, hd⟩, -⟩, -⟩
      exact absurd hd (resolve?_eq_none_iff.1 hr d m)
  | some p =>
    have hd : ∃ d m, Declares ds a.message.topic d m := by
      by_contra hn
      have : resolve? ds a.message.topic = none :=
        resolve?_eq_none_iff.2 fun d m hd => hn ⟨d, m, hd⟩
      rw [hr] at this; cases this
    cases he : a.decoded with
    | error fault =>
      unfold Arrival.decoded at he
      simp only [he, reduceCtorEq, false_and, exists_false, and_false]
    | ok frame =>
      unfold Arrival.decoded at he
      simp only [he, Option.some.injEq, Except.ok.injEq, exists_eq_left']
      exact ⟨fun h => ⟨⟨hd, frame, he⟩, h⟩, And.right⟩

/-! ### Ranges -/

/-- A schema with finite bounds flags exactly what lies outside a sound range. -/
theorem isOutOfRange_iff {s : Schema}
    (hf : ∀ x, s.min = some x ∨ s.max = some x → Decimal.isFinite x = true) {value : Float} :
    s.isOutOfRange value = true ↔ ∃ low high, s.min = some low ∧ s.max = some high ∧ low < high ∧
      (value < low ∨ high < value) := by
  unfold Schema.isOutOfRange Schema.rangeWarning
  cases hlow : s.min with
  | none => simp
  | some low =>
    cases hhigh : s.max with
    | none => simp
    | some high =>
      have hlt := Decimal.lt_iff_of_finite (hf low (Or.inl hlow)) (hf high (Or.inr hhigh))
      cases he : low == high
      · by_cases hr : high < low
        · simp [hr, hlt, he]
        · simp [hr, hlt, he]
      · simp [hlt, he]

/-- **Which values are counted as out of range**, for a measurement of a registered dictionary. -/
theorem outOfRange_iff {d : Dictionary} {m : Measurement} (hr : d.Registered)
    (hm : m ∈ d.measurements) {value : Float} :
    exceedsRange m value = true ↔ OutOfRange m value := by
  unfold exceedsRange Measurement.primary? OutOfRange
  cases hs : m.variants.head? with
  | none => simp
  | some s =>
    have hsm : s ∈ m.variants := List.mem_of_head? hs
    rw [Option.any_some, isOutOfRange_iff fun x hx => hr.bounds_finite hm hsm hx]
    constructor
    · rintro ⟨low, high, h⟩; exact ⟨s, low, high, rfl, h⟩
    · rintro ⟨s', low, high, hs', h⟩; cases hs'; exact ⟨low, high, h⟩

end Relay

end TelemetryRelay
