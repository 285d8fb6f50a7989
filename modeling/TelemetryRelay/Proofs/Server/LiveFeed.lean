import TelemetryRelay.Proofs.Clients.Feed
import TelemetryRelay.Proofs.Server.Lifetime

/-!
# The archive and the live feed

What the clients of a running server get depends on its archive in one way only. A write that never
finishes keeps the writer busy; once the queue behind it is full, the router waits with one more
record, and no message is taken any more. Until then, and with every archive that answers, the feed
is the same.

* `Server.live_feed`: **the feed does not depend on the archive, unless the router is held up**, and
  then what was sent is a beginning of the feed.
* `Server.live_feed_stalls`: an archive that never answers holds up a feed of 1027 samples.
-/

namespace TelemetryRelay

theorem Flow.free_launch (dictionaries : List Dictionary) (clients : Registry)
    (early : List Message) : (launch { dictionaries, clients } early).Free :=
  ⟨rfl, (by decide : 0 < archiveCapacity), RouterTask.noConfusion⟩

namespace Server

variable {config : ServerConfig} {clients : Registry} {s : Server} {log : List (Call × Outcome)}

/-- **The live feed of a running server does not depend on its archive.** In any two runs with the
same arrivals, takes and client events the same frames are sent to the same clients, and the
counters of the messages are equal. Two plays of one script agree in this unless one of them is held
up; what a play sends that is held up is a beginning of what one sends that is not. A router is held
up only by a write that never finishes, with a full queue behind it. -/
theorem live_feed (h : Life config clients log s) (hp : s.phase = .running) :
    (∀ as bs g g', s.flow.run as = some g → s.flow.run bs = some g' →
      as.filter Flow.Action.feeds = bs.filter Flow.Action.feeds →
      s.flow.sendings as = s.flow.sendings bs ∧ g.clients = g'.clients ∧
        g.tally.live = g'.tally.live) ∧
    (∀ start script as bs g g', Flow.Play s.flow start script as g →
      Flow.Play s.flow start script bs g' →
      (¬ g.HeldUp → ¬ g'.HeldUp →
        s.flow.sendings as = s.flow.sendings bs ∧ g.clients = g'.clients ∧
          g.tally.live = g'.tally.live) ∧
      (¬ g.HeldUp → s.flow.sendings bs <+: s.flow.sendings as) ∧
      (g.HeldUp → (∃ late, (late, .hangs) ∈ g.begun) ∧ g.queue.length = archiveCapacity ∧
        g.tally.relayed = g.begun.length + archiveCapacity + 1)) := by
  obtain ⟨-, clients', early, before, hrun, hbefore⟩ := h.orderly.running hp
  have hl := Flow.launched_launch config.dictionaries clients' archiveCapacity early
  have hfree := (Flow.free_launch config.dictionaries clients' early).run hbefore hrun
  refine ⟨fun as bs g g' has hbs hab => ?_, fun start script as bs g g' hplay hplay' => ?_⟩
  · have heq := Flow.feed_congr has hbs hab
    exact ⟨congrArg Feed.sent heq, congrArg Feed.clients heq, congrArg Feed.counted heq⟩
  obtain ⟨-, heq, -⟩ := hplay.feed_eq hfree
  obtain ⟨-, heq', hsent'⟩ := hplay'.feed_eq hfree
  refine ⟨fun hn hn' => ?_, fun hn => ?_, fun hh => ?_⟩
  · have hfeed := (heq hn).trans (heq' hn').symm
    exact ⟨congrArg Feed.sent hfeed, congrArg Feed.clients hfeed, congrArg Feed.counted hfeed⟩
  · rw [← heq hn] at hsent'
    exact hsent'
  · -- the whole run, from the launch of the tasks
    have hall : (Flow.launch { dictionaries := config.dictionaries, clients := clients' }
        early).run (before ++ as) = some g := by
      rw [Flow.run_append, hrun, Option.bind_some, hplay.run_eq]
    have hnone : ∀ a ∈ before ++ as, a.byServer = false := fun a ha =>
      (List.mem_append.1 ha).elim (hbefore a) (hplay.byServer a)
    have hcapacity : g.capacity = archiveCapacity := (Flow.run_config hall).2
    rw [← hcapacity]
    exact hh.relayed_eq hl hall hnone

/-- A sample of the altitude. -/
def altitude : Message := ⟨"av/alt", [0x37]⟩

/-- A client joins, and a number of samples arrive. -/
def burst (n : Nat) : List (Int × Flow.Action) :=
  (0, .client .join) :: List.replicate n (0, .arrive altitude)

theorem burst_comes (n : Nat) : ∀ e ∈ burst n, e.2.comes = true := by
  intro e he
  rcases List.mem_cons.1 he with rfl | he
  · rfl
  · rw [List.eq_of_mem_replicate he]; rfl

theorem judge_altitude : (Relay.judge [.avionics] 0 altitude).record?.isSome = true := rfl

/-- A feed counts each of these samples. -/
theorem relayed_replicate (n : Nat) (c : Feed) (hc : c.inbound = []) :
    ((List.replicate n ((0 : Int), Flow.Action.arrive altitude)).foldl
      (fun c e => (c.act [.avionics] e.2).drain [.avionics] e.1) c).counted.relayed =
      c.counted.relayed + n := by
  induction n generalizing c with
  | zero => rfl
  | succ n ih =>
    have hone : (c.act [.avionics] (.arrive altitude)).drain [.avionics] 0 =
        c.handle [.avionics] 0 altitude := by
      obtain ⟨clients, inbound, counted, sent⟩ := c
      cases hc
      rfl
    have hcount : (c.handle [.avionics] 0 altitude).counted.relayed = c.counted.relayed + 1 := by
      have hrelay := judge_altitude
      rw [Feed.handle]
      cases hj : Relay.judge [.avionics] 0 altitude with
      | relay frame record out => rfl
      | unknown => rw [hj] at hrelay; cases hrelay
      | malformed => rw [hj] at hrelay; cases hrelay
    rw [List.replicate_succ, List.foldl_cons, hone, ih (c.handle [.avionics] 0 altitude) hc, hcount]
    omega

/-- A feed counts every sample of a burst. -/
theorem relayed_burst (n : Nat) (clients : Registry) :
    (((Flow.launch { dictionaries := [.avionics], clients } []).feed []).play [.avionics] 0
      (burst n)).counted.relayed = n := by
  rw [Feed.play, burst, List.foldl_cons, relayed_replicate _ _ rfl]
  exact Nat.zero_add n

/-- There is a server that runs and has done nothing yet. -/
theorem exists_running_launched : ∃ log s, Life { dictionaries := [.avionics] } ⟨256, []⟩ log s ∧
    s.phase = .running ∧
    s.flow = Flow.launch { dictionaries := [.avionics], clients := ⟨256, []⟩ } [] ∧
    s.flow.Launched ∧ s.flow.Free ∧ s.flow.streamOpen = true := by
  obtain ⟨log, s, hlife, hp, -, hflow⟩ :=
    exists_running ServerConfig.validate_avionics ⟨256, []⟩ []
  refine ⟨log, s, hlife, hp, hflow, ?_, ?_, ?_⟩ <;> rw [hflow]
  · exact Flow.launched_launch _ _ _ _
  · exact Flow.free_launch _ _ _
  · rfl

/-- Three plays of a burst of samples, over an archive that stores each, one that refuses each and
one that never answers: the first two send the same frames, and the third a beginning of them. -/
theorem live_feed_burst : ∃ log s as bs cs g g' g'',
    Life { dictionaries := [.avionics] } ⟨256, []⟩ log s ∧ s.phase = .running ∧
    Flow.Play s.flow 0 (burst 1027) as g ∧ Flow.Play s.flow 0 (burst 1027) bs g' ∧
    Flow.Play s.flow 0 (burst 1027) cs g'' ∧
    s.flow.sendings as = s.flow.sendings bs ∧ g.tally.live = g'.tally.live ∧
    s.flow.sendings cs <+: s.flow.sendings as := by
  obtain ⟨log, s, hlife, hp, -, hl, hfree, hopen⟩ := exists_running_launched
  have hcomes := burst_comes 1027
  obtain ⟨as, g, hplay, hn⟩ := Flow.exists_play_prompt hl hfree hopen
    (fun _ => .succeeds) (fun _ => Outcome.noConfusion) 0 _ hcomes
  obtain ⟨bs, g', hplay', hn'⟩ := Flow.exists_play_prompt hl hfree hopen
    (fun _ => .fails ["down"]) (fun _ => Outcome.noConfusion) 0 _ hcomes
  obtain ⟨cs, g'', hplay'', -⟩ := Flow.exists_play hfree hopen (fun _ => .hangs) 0 _ hcomes
  obtain ⟨-, hfeed⟩ := live_feed hlife hp
  obtain ⟨heq, -, -⟩ := hfeed _ _ _ _ _ _ hplay hplay'
  obtain ⟨-, hprefix, -⟩ := hfeed _ _ _ _ _ _ hplay hplay''
  obtain ⟨hsent, -, hlive⟩ := heq hn hn'
  exact ⟨log, s, as, bs, cs, g, g', g'', hlife, hp, hplay, hplay', hplay'', hsent, hlive,
    hprefix hn⟩

/-- **An archive that never answers holds up the feed.** Of 1027 samples it lets 1026 pass, and an
archive that stores each sample lets all of them pass. -/
theorem live_feed_stalls : ∃ log s as bs g g',
    Life { dictionaries := [.avionics] } ⟨256, []⟩ log s ∧ s.phase = .running ∧
    Flow.Play s.flow 0 (burst 1027) as g ∧ Flow.Play s.flow 0 (burst 1027) bs g' ∧
    g.tally.relayed ≤ 1026 ∧ g'.tally.relayed = 1027 := by
  obtain ⟨log, s, hlife, hp, hflow, hl, hfree, hopen⟩ := exists_running_launched
  obtain ⟨as, g, hplay, hdeaf⟩ :=
    Flow.exists_play hfree hopen (fun _ => .hangs) 0 _ (burst_comes 1027)
  obtain ⟨bs, g', hplay', hn⟩ := Flow.exists_play_prompt hl hfree hopen
    (fun _ => .succeeds) (fun _ => Outcome.noConfusion) 0 _ (burst_comes 1027)
  refine ⟨log, s, as, bs, g, g', hlife, hp, hplay, hplay', ?_, ?_⟩
  · -- one write was begun, and the other records wait
    have hbegun := Flow.begun_length_le hl hplay.run_eq fun o ho => (hdeaf o ho).choose_spec
    have hqueue := Flow.queue_le hl hplay.run_eq
    have hcapacity : g.capacity = archiveCapacity := by
      rw [(Flow.run_config hplay.run_eq).2, hflow]
      rfl
    have hoffered : g.offered.toList.length ≤ 1 := by cases g.offered <;> simp
    have hrelayed := Flow.relayed_eq hl hplay.run_eq hplay.byServer
    rw [hcapacity, archiveCapacity] at hqueue
    omega
  · have hds : s.flow.dictionaries = [.avionics] := by rw [hflow]; rfl
    have hcount := congrArg Feed.counted ((hplay'.feed_eq hfree).2.1 hn)
    rw [hds, hflow] at hcount
    rw [← relayed_burst 1027 ⟨256, []⟩, ← hcount]
    rfl

end Server

end TelemetryRelay
