import TelemetryRelay.Proofs.Clients.Broadcast
import TelemetryRelay.Proofs.Configuration.Uniqueness
import TelemetryRelay.Proofs.Relay.Ledger
import TelemetryRelay.Proofs.Relay.Verdict

/-!
# Accounting

Every routed message is counted once. The tally is a fold of verdicts, so what it counts is what the
verdicts say of the messages (`Tally.Counts`), and taking a message does nothing beyond what its
verdict says.

* `counts_of_run`: after every run the counters are the numbers of unknown, malformed, relayed and
  exceeding messages among the routed ones.
* `take_unknown`, `take_malformed`, `take_relayed`: what taking a message does.
* `router_accounts`: **the counters partition the routed messages, a dropped message changes its
  counter alone, and a relayed one is offered once to each client and becomes one record.**
-/

namespace TelemetryRelay

open Relay (Unknown Malformed Relayed Filed Exceeding Unambiguous)

open Classical in
/-- **What the counters say of the messages that were routed.** -/
structure Tally.Counts (t : Tally) (ds : List Dictionary) (arrivals : List Arrival) : Prop where
  unknown : t.droppedUnknown = arrivals.countP fun a => decide (Unknown ds a)
  malformed : t.droppedMalformed = arrivals.countP fun a => decide (Malformed ds a)
  relayed : t.relayed = arrivals.countP fun a => decide (Relayed ds a)
  outOfRange : t.outOfRange = arrivals.countP fun a => decide (Exceeding ds a)
  total : t.droppedUnknown + t.droppedMalformed + t.relayed = arrivals.length

namespace Relay

variable {ds : List Dictionary} {a : Arrival}

/-- A message is of at most one kind. -/
theorem Unknown.not_malformed (h : Unknown ds a) : ¬ Malformed ds a :=
  fun ⟨⟨d, m, hd⟩, _⟩ => h d m hd

theorem Unknown.not_relayed (h : Unknown ds a) : ¬ Relayed ds a := fun ⟨⟨d, m, hd⟩, _⟩ => h d m hd

theorem Malformed.not_relayed (h : Malformed ds a) : ¬ Relayed ds a := by
  rintro ⟨-, frame, hf⟩
  obtain ⟨-, fault, he⟩ := h
  rw [hf] at he; cases he

/-- A message whose value is out of range is relayed. -/
theorem Exceeding.relayed (h : Exceeding ds a) : Relayed ds a := by
  obtain ⟨d, m, frame, hd, hf, -⟩ := h
  exact ⟨⟨d, m, hd⟩, frame, hf⟩

/-- Every message is of one of three kinds. -/
theorem trichotomy (ds : List Dictionary) (a : Arrival) :
    Unknown ds a ∨ Malformed ds a ∨ Relayed ds a := by
  by_cases hu : Unknown ds a
  · exact Or.inl hu
  have hd : ∃ d m, Declares ds a.message.topic d m := by simpa [Unknown] using hu
  cases he : a.decoded with
  | error fault => exact Or.inr (Or.inl ⟨hd, fault, he⟩)
  | ok frame => exact Or.inr (Or.inr ⟨hd, frame, he⟩)

/-- **The verdict on a relayed message.** -/
theorem judge_of_relayed (hn : Unambiguous ds) (hr : ∀ d ∈ ds, d.Registered)
    (h : Relayed ds a) : ∃ frame record out, judge ds a.now a.message = .relay frame record out ∧
      a.decoded = .ok frame ∧ (∀ r, Filed ds a r ↔ r = record) ∧ (out = true ↔ Exceeding ds a) := by
  obtain ⟨⟨d, m, hd⟩, frame, hf⟩ := h
  have hj := (judge_relay_iff hn).2 ⟨d, m, hd, hf, rfl, rfl⟩
  refine ⟨frame, _, _, hj, hf, fun r => ?_, ?_⟩
  · rw [← record?_eq_some_iff hn, hj]
    simp [Verdict.record?, eq_comm]
  · rw [outOfRange_iff (hr d hd.1) hd.2.1]
    constructor
    · intro ho; exact ⟨d, m, frame, hd, hf, ho⟩
    · rintro ⟨d', m', frame', hd', hf', ho⟩
      obtain ⟨rfl, rfl⟩ := hd.unique hn hd'
      rw [hf] at hf'; cases hf'
      exact ho

end Relay

namespace Tally

variable {t : Tally} {ds : List Dictionary} {arrivals : List Arrival}

/-- A failure of the archive is not counted among the messages. -/
theorem Counts.addFailure (h : t.Counts ds arrivals) : t.addFailure.Counts ds arrivals :=
  ⟨h.unknown, h.malformed, h.relayed, h.outOfRange, h.total⟩

/-- **One more message is counted once**, as what it is. -/
theorem Counts.count (hn : Unambiguous ds) (hr : ∀ d ∈ ds, d.Registered)
    (h : t.Counts ds arrivals) (a : Arrival) :
    (t.count (Relay.judge ds a.now a.message)).Counts ds (arrivals ++ [a]) := by
  obtain ⟨hunk, hmal, hrel, hout, htot⟩ := h
  -- the kinds exclude each other, so one counter goes up and the others stay
  rcases Relay.trichotomy ds a with hu | hm | hl
  · have hx : ¬ Exceeding ds a := fun hx => hu.not_relayed hx.relayed
    rw [(Relay.judge_unknown_iff hn).2 hu]
    constructor
    all_goals simp [Tally.count, hunk, hmal, hrel, hout, hu, hu.not_malformed, hu.not_relayed, hx]
    omega
  · have hu : ¬ Unknown ds a := fun hu => hu.not_malformed hm
    have hx : ¬ Exceeding ds a := fun hx => hm.not_relayed hx.relayed
    rw [(Relay.judge_malformed_iff hn).2 hm]
    constructor
    all_goals simp [Tally.count, hunk, hmal, hrel, hout, hu, hm, hm.not_relayed, hx]
    omega
  · have hu : ¬ Unknown ds a := fun hu => hu.not_relayed hl
    have hm : ¬ Malformed ds a := fun hm => hm.not_relayed hl
    obtain ⟨frame, record, out, hj, -, -, ho⟩ := Relay.judge_of_relayed hn hr hl
    rw [hj]
    constructor
    case outOfRange =>
      by_cases hx : Exceeding ds a
      · simp [Tally.count, hout, hx, ho.2 hx]
      · have hf : out = false := by simpa using mt ho.1 hx
        simp [Tally.count, hout, hx, hf]
    all_goals simp [Tally.count, hunk, hmal, hrel, hu, hm, hl]
    omega

end Tally

namespace Flow

variable {f g : Flow} {as : List Action} {now : Int} {m : Message} {rest : List Message}

/-- **The counters after a run.** -/
theorem counts_of_run (hl : f.Launched) (hn : Unambiguous f.dictionaries)
    (hr : ∀ d ∈ f.dictionaries, d.Registered) (h : f.run as = some g) :
    g.tally.Counts f.dictionaries (f.routed as) := by
  refine run_induction (P := fun as g => g.tally.Counts f.dictionaries (f.routed as)) ?_ ?_ h
  · rw [hl.tally]; constructor <;> rfl
  intro as g a g' hg ih hs
  rw [routed_concat hg hs]
  cases hs with
  | @route now m rest hrt hst hi =>
    have hc := ih.count hn hr ⟨now, m⟩
    rw [← (run_config hg).1] at hc ⊢
    simpa [taken, hi, take] using hc
  | refuse => simpa [taken] using ih.addFailure
  | failWrite => simpa [taken] using ih.addFailure
  | _ => simpa [taken] using ih

/-! ### Taking a message -/

theorem take_unknown (hn : Unambiguous f.dictionaries) (hr : f.router = .receiving)
    (h : Unknown f.dictionaries ⟨now, m⟩) : f.take now m rest =
      { f with inbound := rest
               tally := { f.tally with droppedUnknown := f.tally.droppedUnknown + 1 } } := by
  have hj : Relay.judge f.dictionaries now m = .unknown := (Relay.judge_unknown_iff hn).2 h
  cases f
  simp only at hr
  subst hr
  simp only [take] at hj ⊢
  rw [hj]
  rfl

theorem take_malformed (hn : Unambiguous f.dictionaries) (hr : f.router = .receiving)
    (h : Malformed f.dictionaries ⟨now, m⟩) : f.take now m rest =
      { f with inbound := rest
               tally := { f.tally with droppedMalformed := f.tally.droppedMalformed + 1 } } := by
  have hj : Relay.judge f.dictionaries now m = .malformed := (Relay.judge_malformed_iff hn).2 h
  cases f
  simp only at hr
  subst hr
  simp only [take] at hj ⊢
  rw [hj]
  rfl

open Classical in
theorem take_relayed (hn : Unambiguous f.dictionaries) (hr : ∀ d ∈ f.dictionaries, d.Registered)
    (h : Relayed f.dictionaries ⟨now, m⟩) :
    ∃ frame record, (Arrival.mk now m).decoded = .ok frame ∧
      (∀ r, Filed f.dictionaries ⟨now, m⟩ r ↔ r = record) ∧
      f.take now m rest = { f with
        inbound := rest
        tally := { f.tally with
          relayed := f.tally.relayed + 1
          outOfRange := f.tally.outOfRange +
            if Exceeding f.dictionaries ⟨now, m⟩ then 1 else 0 }
        clients := { f.clients with
          queues := f.clients.queues.map (Outbound.offered f.clients.capacity frame.text) }
        router := .offering record } := by
  obtain ⟨frame, record, out, hj, hf, hrec, hout⟩ := Relay.judge_of_relayed hn hr h
  refine ⟨frame, record, hf, hrec, ?_⟩
  simp only at hj
  have hcount : (if out = true then 1 else 0) =
      if Exceeding f.dictionaries ⟨now, m⟩ then 1 else 0 := by simp only [hout]
  simp only [take, hj, Verdict.publish, Verdict.record?, Tally.count, Registry.broadcast_eq, hcount]

open Classical in
/-- **The router accounts for every message.** After every run the counters are the numbers of
messages of each kind among those routed, and add up to their number. Routing one more message
changes one counter and nothing else if it is dropped. If it is relayed it is offered once to every
queue, and it becomes the one record it is filed as. The records of a run, in the order of routing,
are those handed to the queue, those refused because the writer is gone, which are counted, the one
that is still offered, and what an abort gave up. -/
theorem router_accounts {config : ServerConfig} (hv : config.validate = .ok ())
    (hr : ∀ d ∈ config.dictionaries, d.Registered) {clients : Registry} {capacity : Nat}
    {early : List Message} {as : List Action} {f g : Flow}
    (hf : f = launch { dictionaries := config.dictionaries, clients, capacity } early)
    (h : f.run as = some g) :
    g.tally.Counts config.dictionaries (f.routed as) ∧
    (∀ now m rest, g.router = .receiving → g.stopping = false → g.inbound = m :: rest →
      ∃ g', g.step (.route now) = some g' ∧
        (Unknown config.dictionaries ⟨now, m⟩ → g' =
          { g with inbound := rest
                   tally := { g.tally with droppedUnknown := g.tally.droppedUnknown + 1 } }) ∧
        (Malformed config.dictionaries ⟨now, m⟩ → g' =
          { g with inbound := rest
                   tally := { g.tally with droppedMalformed := g.tally.droppedMalformed + 1 } }) ∧
        (Relayed config.dictionaries ⟨now, m⟩ → ∃ frame record,
          (Arrival.mk now m).decoded = .ok frame ∧
          (∀ r, Filed config.dictionaries ⟨now, m⟩ r ↔ r = record) ∧
          g' = { g with
            inbound := rest
            tally := { g.tally with
              relayed := g.tally.relayed + 1
              outOfRange := g.tally.outOfRange +
                if Exceeding config.dictionaries ⟨now, m⟩ then 1 else 0 }
            clients := { g.clients with
              queues := g.clients.queues.map (Outbound.offered g.clients.capacity frame.text) }
            router := .offering record })) ∧
    List.Forall₂ (Filed config.dictionaries)
      ((f.routed as).filter fun a => decide (Relayed config.dictionaries a)) (f.records as) ∧
    ∃ dropped refused lost, Placed f as g dropped refused lost := by
  have hn : Unambiguous config.dictionaries := ServerConfig.channels_nodup hv
  have hl : f.Launched := hf ▸ launched_launch _ _ _ _
  have hfd : f.dictionaries = config.dictionaries := by rw [hf]; rfl
  have hgd : g.dictionaries = config.dictionaries := (run_config h).1.trans hfd
  refine ⟨hfd ▸ counts_of_run hl (hfd ▸ hn) (hfd ▸ hr) h, ?_, ?_, ?_⟩
  · intro now m rest hrt hst hi
    refine ⟨g.take now m rest, (Step.route now hrt hst hi).to_step, ?_, ?_, ?_⟩
    · exact fun hu => take_unknown (hgd ▸ hn) hrt (hgd ▸ hu)
    · exact fun hm => take_malformed (hgd ▸ hn) hrt (hgd ▸ hm)
    · intro hrel
      rw [← hgd] at hn hr hrel ⊢
      exact take_relayed hn hr hrel
  · rw [records, hfd]
    exact Relay.forall₂_filed hn _
  · exact exists_placed hl h

/-- A message on a channel of no dictionary, one that is no sample, and one that is out of range. -/
def oneOfEach : List Message :=
  [⟨"av/none", [0x37]⟩, ⟨"av/alt", [0x2d]⟩, ⟨"av/alt", [0x35, 0x30, 0x30, 0x30]⟩]

/-- Three messages of three kinds are three messages. -/
theorem one_of_each_accounted :
    ∃ g, (launch { dictionaries := [.avionics], clients := ⟨1, []⟩ } oneOfEach).run [.client .join,
        .route 5, .route 6, .route 7, .enqueue, .beginWrite (.fails ["down"]), .finishWrite] =
          some g ∧
      g.tally.droppedUnknown + g.tally.droppedMalformed + g.tally.relayed = 3 ∧
      g.tally.historyFailures = 1 := by
  obtain ⟨g, hg⟩ := Option.isSome_iff_exists.1 (rfl :
    ((launch { dictionaries := [.avionics], clients := ⟨1, []⟩ } oneOfEach).run [.client .join,
      .route 5, .route 6, .route 7, .enqueue, .beginWrite (.fails ["down"]),
      .finishWrite]).isSome = true)
  obtain ⟨hcounts, -⟩ := @router_accounts _ ServerConfig.validate_avionics
    (List.forall_mem_singleton.2 Dictionary.avionics_registered) ⟨1, []⟩ archiveCapacity oneOfEach
    _ _ g rfl hg
  refine ⟨g, hg, hcounts.total, ?_⟩
  rw [← Option.some.inj hg]
  rfl

end Flow

end TelemetryRelay
