import TelemetryRelay.Archive.Memory
import TelemetryRelay.Catalog.Basic
import TelemetryRelay.Proofs.Frame.Timestamp
import TelemetryRelay.Proofs.Relay.Verdict

/-!
# Reading back what was archived

An archive that stores records and gives them back in the order of writing is asked through the
catalog, over all times and without a limit. No two dictionaries share a key and no two measurements
of a dictionary share a name, so a record is found under one measurement alone, and this is the one
whose channel its message came on.

* `readBack_eq`: what the catalog reads of a measurement.
* `named_iff_channel`: the record of a message carries the key and the name of a measurement exactly
  if the message came on its channel.
* `readBack_filed`: **what the catalog reads of a measurement is what came on its channel and was
  written.**
-/

namespace TelemetryRelay

/-- All times. -/
def Window.all : Window := ⟨Decimal.int64Min, Decimal.int64Max⟩

theorem Window.all_contains {time : Int} :
    Window.all.contains time = true ↔ Decimal.IsInt64 time := by
  unfold Window.contains Window.all Decimal.IsInt64
  rw [Bool.and_eq_true, decide_eq_true_iff, decide_eq_true_iff]

theorem Window.all_ordered : ¬ Window.all.finish < Window.all.start := by decide

/-- The point of a record. -/
def Record.point (r : Record) : Point := ⟨r.time, r.value⟩

/-- The sample that the payload of a message holds, as a point. -/
def Arrival.point? (a : Arrival) : Option Point :=
  match a.decoded with
  | .ok frame => some ⟨frame.timestamp, frame.value⟩
  | .error _ => none

/-- **An archive in which these records were written**, one after the other, beginning with none. -/
def MemoryArchive.storing (records : List Record) : MemoryArchive :=
  records.foldl (fun archive r => archive.write r.dictionary r.measurement r.point) {}

/-- **What the catalog reads of a measurement** from such an archive, over all times and without a
limit. -/
def Catalog.readBack (ds : List Dictionary) (records : List Record) (key measurement : String) :
    Except CatalogError (List Point) :=
  Catalog.history (m := Id)
    (fun (archive : MemoryArchive) key measurement window =>
      .ok (archive.query key measurement window))
    ⟨ds, some (.storing records)⟩ ⟨key, measurement, .all, none⟩

namespace MemoryArchive

/-- Writing adds behind what is there. -/
theorem samples_storing (records : List Record) : (storing records).samples =
    records.map fun r => ⟨r.dictionary, r.measurement, r.point⟩ := by
  induction records using List.reverseRecOn with
  | nil => rfl
  | append_singleton records r ih =>
    rw [storing, List.foldl_append, ← storing, List.map_append, ← ih]
    rfl

theorem query_storing (records : List Record) (key measurement : String) (window : Window) :
    (storing records).query key measurement window =
      (records.filter fun r => r.dictionary == key && r.measurement == measurement &&
        window.contains r.time).map Record.point := by
  rw [query, samples_storing, List.filter_map, List.map_map]
  rfl

end MemoryArchive

namespace Catalog

variable {ds : List Dictionary} {d : Dictionary} {m : Measurement} {records : List Record}

/-- The checks of a read pass for a measurement of a dictionary that is served. -/
theorem readBack_eq (hk : (ds.map (·.key)).Nodup) (hr : d.Registered) (hd : d ∈ ds)
    (hm : m ∈ d.measurements) : readBack ds records d.key m.name =
      .ok ((records.filter fun r => r.dictionary == d.key && r.measurement == m.name &&
        Window.all.contains r.time).map Record.point) := by
  have hdict : (ds.find? fun x => x.key == d.key) = some d :=
    (find?_key_eq_some_iff hk).2 ⟨hd, rfl⟩
  have hname : d.find? m.name = some m := by
    rw [d.find?_eq]; exact (find?_key_eq_some_iff hr.sound.names_nodup).2 ⟨hm, rfl⟩
  have hprep : prepare ⟨ds, some (MemoryArchive.storing records)⟩
      ⟨d.key, m.name, .all, none⟩ = .ok (.storing records) := by
    unfold prepare dictionary?
    simp only [Window.all_ordered, if_false, hdict, hname]
  unfold readBack history
  rw [hprep]
  show complete none (.ok ((MemoryArchive.storing records).query d.key m.name .all)) = _
  simp [complete, downsample, MemoryArchive.query_storing]

/-- **A record carries the key and the name of a measurement exactly if its message came on the
measurement's channel.** -/
theorem named_iff_channel (hk : (ds.map (·.key)).Nodup) (hn : Relay.Unambiguous ds)
    (hr : d.Registered) (hd : d ∈ ds) (hm : m ∈ d.measurements) {a : Arrival} {r : Record}
    (hf : Relay.Filed ds a r) :
    (r.dictionary = d.key ∧ r.measurement = m.name) ↔ a.message.topic = m.channel := by
  obtain ⟨d', m', frame, hdec, -, rfl⟩ := hf
  constructor
  · rintro ⟨hkey, hname⟩
    obtain rfl : d' = d := List.inj_on_of_nodup_map hk hdec.1 hd hkey
    obtain rfl : m' = m := List.inj_on_of_nodup_map hr.sound.names_nodup hdec.2.1 hm hname
    exact hdec.2.2.symm
  · intro hc
    obtain ⟨rfl, rfl⟩ := hdec.unique hn ⟨hd, hm, hc.symm⟩
    exact ⟨rfl, rfl⟩

/-- **What the catalog reads of a measurement is what came on its channel and was written**, in this
order, when the records of some messages were written with these outcomes. -/
theorem readBack_filed (hk : (ds.map (·.key)).Nodup) (hn : Relay.Unambiguous ds) (hr : d.Registered)
    (hd : d ∈ ds) (hm : m ∈ d.measurements) {arrivals : List Arrival}
    {writes : List (Record × Outcome)}
    (hf : List.Forall₂ (fun a w => Relay.Filed ds a w.1) arrivals writes)
    (ht : ∀ a ∈ arrivals, Decimal.IsInt64 a.now) :
    readBack ds ((writes.filter fun w => w.2 == .succeeds).map (·.1)) d.key m.name =
      .ok (((arrivals.zip writes).filter fun p =>
        p.1.message.topic == m.channel && p.2.2 == .succeeds).filterMap fun p => p.1.point?) := by
  rw [readBack_eq hk hr hd hm]
  congr 1
  induction hf with
  | nil => rfl
  | @cons a w arrivals writes hfiled hrest ih =>
    have ih := ih fun x hx => ht x (List.mem_cons_of_mem _ hx)
    have hiff := named_iff_channel hk hn hr hd hm hfiled
    obtain ⟨d', m', frame, -, hdec, hrec⟩ := hfiled
    -- the window excludes nothing, so the two sides differ only in how they name the measurement
    have htime : Window.all.contains w.1.time = true := by
      rw [Window.all_contains, hrec]
      exact Frame.decode_isTime (ht a List.mem_cons_self) hdec
    have hpoint : a.point? = some w.1.point := by
      rw [Arrival.point?, hdec, hrec]
      rfl
    rw [List.zip_cons_cons, List.filter_cons, List.filter_cons]
    by_cases hs : w.2 = .succeeds
    · by_cases hc : a.message.topic = m.channel
      · obtain ⟨hkey, hname⟩ := hiff.2 hc
        simp [hs, hc, hkey, hname, htime, hpoint, ih]
      · have hno : ¬ (w.1.dictionary = d.key ∧ w.1.measurement = m.name) := mt hiff.1 hc
        have hno' : (w.1.dictionary == d.key && w.1.measurement == m.name) = false := by
          simpa using hno
        simp [hs, hc, hno', ih]
    · simp [hs, ih]

end Catalog

end TelemetryRelay
