import TelemetryRelay.Proofs.Catalog.ReadBack
import TelemetryRelay.Proofs.Relay.Accounting
import TelemetryRelay.Proofs.Relay.Settling

/-!
# Archiving

The records of the relayed messages reach the archive in the order of routing, each once and under
the measurement it belongs to. At any moment the writes that were begun are the first of these
records; where both tasks have ended without an abort they are all of them (`Flow.Complete`).

* `complete_of_ended`: a run to the end is complete.
* `complete_of_stop`: a stop makes a run complete if no write hangs.
* `archive_exact`: **no record is lost, doubled, moved or misfiled.**
-/

namespace TelemetryRelay

open Relay (Relayed Filed Unambiguous)

open Classical in
/-- **All that was routed is archived.** The writes that were begun are the records of the relayed
messages in order, each of them has succeeded or was counted as a failure, and the catalog reads of
each measurement what came on its channel and was written. -/
structure Flow.Complete (g : Flow) (ds : List Dictionary) (arrivals : List Arrival) : Prop where
  written : List.Forall₂ (Filed ds) (arrivals.filter fun a => decide (Relayed ds a)) g.written
  counted : g.tally.relayed = g.archived.length + g.tally.historyFailures
  recalled : (∀ a ∈ arrivals, Decimal.IsInt64 a.now) → ∀ d ∈ ds, ∀ m ∈ d.measurements,
    Catalog.readBack ds g.archived d.key m.name =
      .ok ((((arrivals.filter fun a => decide (Relayed ds a)).zip g.begun.reverse).filter fun p =>
        p.1.message.topic == m.channel && p.2.2 == .succeeds).filterMap fun p => p.1.point?)

namespace Flow

variable {f g : Flow} {as bs : List Action} {write : Record → Outcome}

open Classical in
/-- **A run to the end is complete**, if no task was aborted. -/
theorem complete_of_ended (hl : f.Launched) (hk : (f.dictionaries.map (·.key)).Nodup)
    (hn : Unambiguous f.dictionaries) (hreg : ∀ d ∈ f.dictionaries, d.Registered)
    (h : f.run as = some g) (hnr : .abortRouter ∉ as) (hnw : .abortWriter ∉ as)
    (hr : g.router = .ended) (hw : g.writer = .ended) :
    g.Complete f.dictionaries (f.routed as) := by
  have hwritten : List.Forall₂ (Filed f.dictionaries)
      ((f.routed as).filter fun a => decide (Relayed f.dictionaries a)) g.written := by
    rw [written_of_ended hl h hnr hnw hr hw]
    exact Relay.forall₂_filed hn _
  refine ⟨hwritten, ?_, fun ht d hd m hm => ?_⟩
  · rw [archived_length_of_ended hl h hnw hw, ← hwritten.length_eq,
      (counts_of_run hl hn hreg h).relayed, List.countP_eq_length_filter]
  · exact Catalog.readBack_filed hk hn (hreg d hd) hd hm (List.forall₂_map_right_iff.1 hwritten)
      fun a ha => ht a (List.mem_filter.1 ha).1

/-- Actions that finish take no message. -/
theorem routed_of_finishing : ∀ {bs : List Action} {f : Flow}, (∀ a ∈ bs, a.Finishing write) →
    f.routed bs = [] := by
  intro bs
  induction bs with
  | nil => intro f _; rfl
  | cons a rest ih =>
    intro f h
    obtain ⟨ha, hrest⟩ := List.forall_mem_cons.1 h
    have htaken : f.taken a = [] := by cases ha <;> rfl
    rw [routed, along, htaken, List.nil_append]
    cases f.step a with
    | none => rfl
    | some g => exact ih hrest

/-- **A stop makes a run complete**, if no write hangs. -/
theorem complete_of_stop (hl : f.Launched) (hk : (f.dictionaries.map (·.key)).Nodup)
    (hn : Unambiguous f.dictionaries) (hreg : ∀ d ∈ f.dictionaries, d.Registered)
    (hc : 0 < f.capacity) {s : Server} (h : f.run as = some s.flow) (hnr : .abortRouter ∉ as)
    (hnw : .abortWriter ∉ as) (hp : s.phase = .running) (hh : s.flow.Hangless)
    (hw : ∀ record, write record ≠ .hangs) (now : Int) (outcome : Call → Outcome) :
    (s.stop now outcome write).1.flow.Complete f.dictionaries (f.routed as) := by
  obtain ⟨bs, g, clients, hrun, hbs, hr, hwe, hstop⟩ :=
    @Server.stop_flow s f as now outcome write hl hc h hnw hp hh hw
  -- a stop adds no abort and takes no message
  have hfin : ∀ a : Action, a ∈ Action.signal :: bs → a ≠ .abortRouter ∧ a ≠ .abortWriter := by
    intro a ha
    rcases List.mem_cons.1 ha with rfl | ha
    · exact ⟨Action.noConfusion, Action.noConfusion⟩
    · cases hbs a ha <;> exact ⟨Action.noConfusion, Action.noConfusion⟩
  have hrouted : f.routed (as ++ .signal :: bs) = f.routed as := by
    have hafter : s.flow.routed (.signal :: bs) = [] := by
      show s.flow.signal.routed bs = []
      exact routed_of_finishing hbs
    rw [routed, along_append _ _ h, ← routed, ← routed, hafter, List.append_nil]
  have hcomplete := complete_of_ended hl hk hn hreg hrun
    (fun hm => (List.mem_append.1 hm).elim hnr fun hm => (hfin _ hm).1 rfl)
    (fun hm => (List.mem_append.1 hm).elim hnw fun hm => (hfin _ hm).2 rfl) hr hwe
  rw [hrouted] at hcomplete
  rw [hstop]
  exact ⟨hcomplete.written, hcomplete.counted, hcomplete.recalled⟩

open Classical in
/-- **No record is lost, doubled, moved or misfiled.** At every moment the writes that were begun
are the first of the records of the relayed messages, in the order of routing. A write that fails is
counted once, and the writer goes on; nothing else is counted unless the writer was aborted. Where
both tasks have ended without an abort, and after a stop in which no write hangs, all that was
routed is archived. -/
theorem archive_exact {config : ServerConfig} (hv : config.validate = .ok ())
    (hreg : ∀ d ∈ config.dictionaries, d.Registered) {clients : Registry} {capacity : Nat}
    {early : List Message}
    (hf : f = launch { dictionaries := config.dictionaries, clients, capacity } early)
    (h : f.run as = some g) :
    (∃ records, List.Forall₂ (Filed config.dictionaries)
        ((f.routed as).filter fun a => decide (Relayed config.dictionaries a)) records ∧
      g.written <+: records) ∧
    (∀ record causes, g.writer = .writing record (.fails causes) → g.step .finishWrite =
      some { g with
        writer := .waiting
        tally := { g.tally with historyFailures := g.tally.historyFailures + 1 } }) ∧
    (.abortWriter ∉ as → g.tally.historyFailures = (f.answered as).countP (·.2.failed)) ∧
    (.abortRouter ∉ as → .abortWriter ∉ as → g.router = .ended → g.writer = .ended →
      g.Complete config.dictionaries (f.routed as)) ∧
    (.abortRouter ∉ as → .abortWriter ∉ as → 0 < capacity → g.Hangless →
      ∀ (s : Server) now outcome write, s.flow = g → s.phase = .running →
        (∀ record, write record ≠ .hangs) →
        (s.stop now outcome write).1.flow.Complete config.dictionaries (f.routed as)) := by
  have hn : Unambiguous config.dictionaries := ServerConfig.channels_nodup hv
  have hk : (config.dictionaries.map (·.key)).Nodup := ServerConfig.keys_nodup hv
  have hl : f.Launched := hf ▸ launched_launch _ _ _ _
  have hfd : f.dictionaries = config.dictionaries := by rw [hf]; rfl
  have hfc : f.capacity = capacity := by rw [hf]; rfl
  rw [← hfd] at hn hk hreg ⊢
  refine ⟨⟨f.records as, Relay.forall₂_filed hn _, ?_⟩, fun record causes hw => ?_, fun hnw => ?_,
    fun hnr hnw hr hw => complete_of_ended hl hk hn hreg h hnr hnw hr hw, ?_⟩
  · obtain ⟨dropped, refused, lost, hp⟩ := exists_placed hl h
    rw [← hp.records]
    simp only [List.append_assoc]
    exact List.prefix_append _ _
  · rw [step, hw]
    rfl
  · exact failures_of_not_aborted hl h hnw
  · rintro hnr hnw hc hh s now outcome write rfl hp hw
    exact complete_of_stop hl hk hn hreg (hfc ▸ hc) h hnr hnw hp hh hw now outcome

/-- A run that routes three messages, of which one is relayed, and fails to write its record. -/
def oneFailedWrite : List Action :=
  [.route 5, .route 6, .route 7, .signal, .enqueue, .beginWrite (.fails ["down"]), .endRouter,
    .finishWrite, .endWriter]

/-- Such a run is complete. -/
theorem one_failed_write_complete : ∃ g,
    (launch { dictionaries := [.avionics], clients := ⟨1, []⟩ } oneOfEach).run oneFailedWrite =
      some g ∧ g.tally.historyFailures = 1 ∧ g.Complete [.avionics]
        ((launch { dictionaries := [.avionics], clients := ⟨1, []⟩ } oneOfEach).routed
          oneFailedWrite) := by
  obtain ⟨g, hg, hended⟩ : ∃ g,
      (launch { dictionaries := [.avionics], clients := ⟨1, []⟩ } oneOfEach).run oneFailedWrite =
        some g ∧ g.tally.historyFailures = 1 ∧ g.router = .ended ∧ g.writer = .ended :=
    ⟨_, rfl, rfl, rfl, rfl⟩
  obtain ⟨-, -, -, hcomplete, -⟩ := @archive_exact _ g _ _ ServerConfig.validate_avionics
    (List.forall_mem_singleton.2 Dictionary.avionics_registered) ⟨1, []⟩ archiveCapacity oneOfEach
    rfl hg
  exact ⟨g, hg, hended.1, hcomplete (by simp [oneFailedWrite]) (by simp [oneFailedWrite])
    hended.2.1 hended.2.2⟩

end Flow

end TelemetryRelay
