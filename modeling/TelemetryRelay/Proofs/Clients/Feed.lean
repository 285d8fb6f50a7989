import TelemetryRelay.Proofs.Clients.View
import TelemetryRelay.Proofs.Relay.Settling

/-!
# The live feed

What the clients get, the messages that wait and the counters of the messages make up the feed
(`Feed`). The archive has no part in it: an action changes the feed of a flow by a rule that does
not look at the writer, its queue or the outcome of a write (`feed_step`).

The archive can hold the feed up, though. The queue to the writer is bounded, and the router waits
for room in it before it takes the next message. If a write never finishes while that queue is full,
the router waits for ever (`HeldUp`).

A play is a run in which each message, each loss of the broker and each event of a client comes when
both tasks have done what they can (`Play`).

* `feed_run`: the feed of a run is a fold of its actions.
* `feed_congr`: **runs with the same arrivals, takes and client events have the same feed.**
* `HeldUp.step`: a router that is held up stays so, and nothing is sent.
* `AtRest.cases`: where both tasks can do nothing, no message waits, or the router is held up.
* `Play.feed_eq`: **a play that is not held up has the feed of its script**, and any play has sent a
  beginning of it.
* `exists_play`, `exists_play_prompt`: every archive has a play of every script of arrivals and
  client events, and one that answers has one that is not held up.
-/

namespace TelemetryRelay

/-- The counters of the messages, without the one of the archive. -/
def Tally.live (t : Tally) : Tally := { t with historyFailures := 0 }

theorem Tally.live_count (t : Tally) (v : Verdict) : (t.count v).live = t.live.count v := by
  cases v <;> rfl

/-- What the clients get of a flow, and what they will get. -/
structure Feed where
  clients : Registry
  inbound : List Message
  counted : Tally
  /-- The frames that were sent, and to whom. -/
  sent : List (String × List ClientId)

namespace Feed

variable {ds : List Dictionary} {c : Feed} {now : Int}

/-- Sends and counts a message. -/
def handle (ds : List Dictionary) (now : Int) (c : Feed) (m : Message) : Feed :=
  { c with
    clients := (Relay.judge ds now m).publish c.clients
    counted := c.counted.count (Relay.judge ds now m)
    sent := c.sent ++ ((Relay.frameText? ds ⟨now, m⟩).map (·, c.clients.ids)).toList }

/-- Handles the oldest message that waits. -/
def take (ds : List Dictionary) (now : Int) (c : Feed) : Feed :=
  match c.inbound with
  | [] => c
  | m :: rest => handle ds now { c with inbound := rest } m

/-- Handles every message that waits. -/
def drain (ds : List Dictionary) (now : Int) (c : Feed) : Feed :=
  c.inbound.foldl (handle ds now) { c with inbound := [] }

/-- **What an action makes of a feed.** -/
def act (ds : List Dictionary) (c : Feed) : Flow.Action → Feed
  | .arrive m => { c with inbound := c.inbound ++ [m] }
  | .route now => c.take ds now
  | .endRouter => { c with inbound := [] }
  | .abortRouter => { c with inbound := [] }
  | .client e => { c with clients := c.clients.after e }
  | _ => c

/-- **What a script makes of a feed**, if every message is handled at once. -/
def play (ds : List Dictionary) (start : Int) (script : List (Int × Flow.Action)) (c : Feed) :
    Feed :=
  script.foldl (fun c e => (c.act ds e.2).drain ds e.1) (c.drain ds start)

/-- Handling one message and then the others is handling all of them. -/
theorem drain_take : (c.take ds now).drain ds now = c.drain ds now := by
  obtain ⟨clients, inbound, counted, sent⟩ := c
  cases inbound <;> rfl

theorem drain_of_nil (h : c.inbound = []) : c.drain ds now = c := by
  obtain ⟨clients, inbound, counted, sent⟩ := c
  cases h
  rfl

/-- What was sent stays sent. -/
theorem sent_drain : c.sent <+: (c.drain ds now).sent := by
  unfold drain
  refine List.foldlRecOn (motive := fun c' : Feed => c.sent <+: c'.sent) _ _ (List.prefix_refl _) ?_
  exact fun c' h m _ => h.trans (List.prefix_append _ _)

end Feed

/-- Whether an action changes a feed. -/
def Flow.Action.feeds : Flow.Action → Bool
  | .arrive _ => true
  | .route _ => true
  | .endRouter => true
  | .abortRouter => true
  | .client _ => true
  | _ => false

/-- Whether an action, if it takes a message, does so at this time. -/
def Flow.Action.isAt (now : Int) : Flow.Action → Bool
  | .route time => time == now
  | _ => true

namespace Flow

variable {f g g' : Flow} {as bs : List Action} {a : Action} {now start : Int}
  {script : List (Int × Action)} {sent : List (String × List ClientId)}

/-- The frame that an action sends, and to whom. -/
def sending (f : Flow) (a : Action) : List (String × List ClientId) :=
  (f.taken a).filterMap fun x => (Relay.frameText? f.dictionaries x).map (·, f.clients.ids)

/-- **The frames that a run sends**, in this order, each with the clients that are listed then. -/
def sendings (f : Flow) (as : List Action) : List (String × List ClientId) := f.along sending as

/-- The feed of a flow that has sent some frames. -/
def feed (f : Flow) (sent : List (String × List ClientId)) : Feed :=
  ⟨f.clients, f.inbound, f.tally.live, sent⟩

/-- **An action changes the feed by a rule of its own.** -/
theorem feed_step (hs : Step f a g) (sent : List (String × List ClientId)) :
    g.feed (sent ++ f.sending a) = (f.feed sent).act f.dictionaries a := by
  cases hs with
  | @route now m rest hr hst hi =>
    have ht : f.taken (.route now) = [⟨now, m⟩] := by simp [taken, hi]
    simp only [feed, sending, ht, Feed.act, Feed.take, hi, Feed.handle, take, Tally.live_count,
      List.filterMap_cons, List.filterMap_nil]
    cases Relay.frameText? f.dictionaries ⟨now, m⟩ <;> rfl
  | _ => simp [feed, sending, taken, Feed.act, Tally.live, Tally.addFailure]

theorem sendings_append (bs : List Action) (h : f.run as = some g) :
    f.sendings (as ++ bs) = f.sendings as ++ g.sendings bs := along_append sending bs h

theorem sendings_concat (h : f.run as = some g) (hs : Step g a g') :
    f.sendings (as ++ [a]) = f.sendings as ++ g.sending a := along_concat sending h hs

/-- **The feed of a run is a fold of its actions.** -/
theorem feed_run (h : f.run as = some g) (sent : List (String × List ClientId)) :
    g.feed (sent ++ f.sendings as) = as.foldl (Feed.act f.dictionaries) (f.feed sent) := by
  refine run_induction (P := fun as g => g.feed (sent ++ f.sendings as) =
    as.foldl (Feed.act f.dictionaries) (f.feed sent)) ?_ ?_ h
  · simp [sendings, along]
  intro as g a g' hg ih hs
  rw [sendings_concat hg hs, ← List.append_assoc, feed_step hs, ih, (run_config hg).1,
    List.foldl_concat]

/-- **Runs with the same arrivals, takes and client events have the same feed**, whatever the writer
and the archive do. -/
theorem feed_congr (h : f.run as = some g) (h' : f.run bs = some g')
    (hab : as.filter Action.feeds = bs.filter Action.feeds) :
    g.feed (f.sendings as) = g'.feed (f.sendings bs) := by
  have hfeeds : ∀ (l : List Action) (c : Feed), l.foldl (Feed.act f.dictionaries) c =
      (l.filter Action.feeds).foldl (Feed.act f.dictionaries) c := by
    intro l c
    rw [List.foldl_filter]
    refine List.foldl_ext _ _ _ fun c a _ => ?_
    cases a <;> rfl
  have hl := feed_run h []
  have hr := feed_run h' []
  rw [List.nil_append] at hl hr
  rw [hl, hr, hfeeds, hab, ← hfeeds]

/-! ### Rest -/

/-- Neither task can do anything. -/
def AtRest (f : Flow) : Prop := ∀ a g, Step f a g → a.byTask = false

/-- The router waits for room in a full queue, behind a write that never finishes. -/
def HeldUp (f : Flow) : Prop :=
  ∃ record late, f.router = .offering record ∧ f.writer = .writing late .hangs ∧
    f.capacity ≤ f.queue.length

/-- The server has not told the tasks to stop, and has aborted none. -/
structure Free (f : Flow) : Prop where
  going : f.stopping = false
  room : 0 < f.capacity
  shut : f.router = .ended → f.inbound = [] ∧ f.streamOpen = false

/-- What others than the server do leaves a flow free. -/
theorem Free.step (h : f.Free) (ha : a.byServer = false) (hs : Step f a g) : g.Free := by
  refine ⟨?_, (step_config hs).2 ▸ h.room, fun hr => ?_⟩
  · cases hs with
    | signal => cases ha
    | _ => exact h.going
  · cases hs with
    | arrive m ho => rw [(h.shut hr).2] at ho; cases ho
    | lose => exact ⟨(h.shut hr).1, rfl⟩
    | route now =>
      -- after taking a message the router receives again or offers a record
      exfalso
      simp only [take] at hr
      split at hr <;> cases hr
    | refuse => cases hr
    | enqueue => cases hr
    | endRouter => exact ⟨rfl, rfl⟩
    | abortRouter => exact ⟨rfl, rfl⟩
    | _ => exact h.shut hr

theorem Free.run (h : f.Free) (hn : ∀ a ∈ as, a.byServer = false) (hrun : f.run as = some g) :
    g.Free := by
  revert hn
  refine run_induction (P := fun as g => (∀ a ∈ as, a.byServer = false) → g.Free)
    (fun _ => h) ?_ hrun
  exact fun as g a g' _ ih hs hn =>
    (ih fun b hb => hn b (List.mem_append_left _ hb)).step (hn a (by simp)) hs

/-- **A router that is held up stays so.** Neither task does anything more, and nothing is sent. -/
theorem HeldUp.step (h : f.HeldUp) (ha : a.byServer = false) (hs : Step f a g) :
    g.HeldUp ∧ a.byTask = false ∧ f.sending a = [] := by
  obtain ⟨record, late, hr, hw, hq⟩ := h
  cases hs with
  | arrive m ho => exact ⟨⟨record, late, hr, hw, hq⟩, rfl, rfl⟩
  | lose ho => exact ⟨⟨record, late, hr, hw, hq⟩, rfl, rfl⟩
  | client e => exact ⟨⟨record, late, hr, hw, hq⟩, rfl, rfl⟩
  | signal => cases ha
  | abortRouter => cases ha
  | abortWriter => cases ha
  | route now h => rw [hr] at h; cases h
  | endRouter h => rw [hr] at h; cases h
  | refuse _ h => rw [hw] at h; cases h
  | enqueue _ _ h => exact absurd h (Nat.not_lt.2 hq)
  | beginWrite o h => rw [hw] at h; cases h
  | finishWrite h => rw [hw] at h; cases h
  | failWrite h => rw [hw] at h; cases h
  | endWriter h => rw [hw] at h; cases h

/-- **Where both tasks can do nothing**, no message waits, or the router is held up. -/
theorem AtRest.cases (h : f.AtRest) (hf : f.Free) : f.inbound = [] ∨ f.HeldUp := by
  cases hr : f.router with
  | ended => exact Or.inl (hf.shut hr).1
  | receiving =>
    left
    cases hi : f.inbound with
    | nil => rfl
    | cons m rest => cases h _ _ (.route 0 hr hf.going hi)
  | offering record =>
    right
    cases hw : f.writer with
    | ended => cases h _ _ (.refuse hr hw)
    | waiting =>
      -- the queue is empty, so there is room in it
      cases hq : f.queue with
      | cons r rest => cases h _ _ (.beginWrite .succeeds hw hq)
      | nil => cases h _ _ (.enqueue hr (by simp [hw]) (by simpa [hq] using hf.room))
    | writing late outcome =>
      cases outcome with
      | succeeds => cases h _ _ (.finishWrite hw)
      | fails causes => cases h _ _ (.failWrite hw)
      | hangs =>
        refine ⟨record, late, hr, hw, Nat.le_of_not_lt fun hq => ?_⟩
        cases h _ _ (.enqueue hr (by simp [hw]) hq)

/-! ### Plays -/

/-- Both tasks do what they can, at this time. -/
structure Settles (f : Flow) (now : Int) (as : List Action) (g : Flow) : Prop where
  run : f.run as = some g
  byTask : ∀ a ∈ as, a.byTask = true ∧ a.isAt now = true
  rest : g.AtRest

/-- **A play of a script.** The script says what others than the two tasks do, and when. Before and
after each entry both tasks do what they can, in any order and with any outcome of each write. -/
inductive Play (f : Flow) (start : Int) : List (Int × Action) → List Action → Flow → Prop where
  | begin {as : List Action} {g : Flow} (h : f.Settles start as g) : Play f start [] as g
  | next {script : List (Int × Action)} {as bs : List Action} {g g₁ g' : Flow} {now : Int}
    {a : Action} (h : Play f start script as g) (ht : a.byTask = false) (ha : a.byServer = false)
    (hs : Step g a g₁) (hn : g₁.Settles now bs g') :
    Play f start (script ++ [(now, a)]) (as ++ a :: bs) g'

/-- A play is a run. -/
theorem Play.run_eq (h : Play f start script as g) : f.run as = some g := by
  induction h with
  | begin h => exact h.run
  | next _ _ _ hs hn ih =>
    rw [run_append, ih, Option.bind_some, run, hs.to_step]
    exact hn.run

theorem Play.rest (h : Play f start script as g) : g.AtRest := by
  cases h with
  | begin h => exact h.rest
  | next _ _ _ _ hn => exact hn.rest

theorem byServer_of_byTask (h : a.byTask = true) : a.byServer = false := by
  cases a <;> first | rfl | cases h

/-- In a play the server does nothing. -/
theorem Play.byServer (h : Play f start script as g) : ∀ a ∈ as, a.byServer = false := by
  induction h with
  | begin h => exact fun a ha => byServer_of_byTask (h.byTask a ha).1
  | next _ _ ha _ hn ih =>
    intro b hb
    rcases List.mem_append.1 hb with hb | hb
    · exact ih b hb
    rcases List.mem_cons.1 hb with rfl | hb
    · exact ha
    · exact byServer_of_byTask (hn.byTask b hb).1

/-- What both tasks do is to handle the messages that wait. -/
theorem drain_step (hf : f.Free) (ht : a.byTask = true) (hn : a.isAt now = true)
    (hs : Step f a g) :
    (g.feed (sent ++ f.sending a)).drain f.dictionaries now =
      (f.feed sent).drain f.dictionaries now := by
  rw [feed_step hs]
  cases hs with
  | route time hr hst hi =>
    obtain rfl : time = now := by simpa [Action.isAt] using hn
    exact Feed.drain_take
  | endRouter hr he =>
    -- the router ends by itself only where nothing waits
    rcases he with he | ⟨hi, -⟩
    · rw [hf.going] at he; cases he
    · simp [Feed.act, feed, hi]
  | arrive => cases ht
  | lose => cases ht
  | client => cases ht
  | signal => cases ht
  | abortRouter => cases ht
  | abortWriter => cases ht
  | _ => rfl

/-- **What both tasks do until they rest**: they handle the messages that wait, unless the router is
held up before. -/
theorem Settles.feed_eq (h : f.Settles now as g) (hf : f.Free)
    (sent : List (String × List ClientId)) :
    g.Free ∧
      (g.feed (sent ++ f.sendings as)).drain g.dictionaries now =
        (f.feed sent).drain f.dictionaries now ∧
      (f.HeldUp → g.HeldUp ∧ f.sendings as = []) := by
  have hall := h.byTask
  revert hall
  refine run_induction (P := fun as g => (∀ a ∈ as, a.byTask = true ∧ a.isAt now = true) →
    g.Free ∧ (g.feed (sent ++ f.sendings as)).drain g.dictionaries now =
        (f.feed sent).drain f.dictionaries now ∧ (f.HeldUp → g.HeldUp ∧ f.sendings as = []))
    ?_ ?_ h.run
  · exact fun _ => ⟨hf, by simp [sendings, along], fun hh => ⟨hh, rfl⟩⟩
  intro as g a g' hg ih hs hall
  obtain ⟨hfree, hdrain, hheld⟩ := ih fun b hb => hall b (List.mem_append_left _ hb)
  obtain ⟨ht, hn⟩ := hall a (by simp)
  refine ⟨hfree.step (byServer_of_byTask ht) hs, ?_, fun hh => ?_⟩
  · rw [sendings_concat hg hs, ← List.append_assoc, (step_config hs).1, drain_step hfree ht hn hs, hdrain]
  · obtain ⟨-, hno, -⟩ := (hheld hh).1.step (byServer_of_byTask ht) hs
    rw [hno] at ht
    cases ht

/-- **The feed of a play.** A play that is not held up has the feed of its script; a play that is
held up has sent a beginning of what the script sends. -/
theorem Play.feed_eq (h : Play f start script as g) (hf : f.Free) :
    g.Free ∧
      (¬ g.HeldUp → g.feed (f.sendings as) = (f.feed []).play f.dictionaries start script) ∧
      f.sendings as <+: ((f.feed []).play f.dictionaries start script).sent := by
  induction h with
  | @begin as g h =>
    obtain ⟨hfree, hdrain, -⟩ := h.feed_eq hf []
    rw [List.nil_append] at hdrain
    refine ⟨hfree, fun hh => ?_, ?_⟩
    · rw [Feed.play, List.foldl_nil, ← hdrain,
        Feed.drain_of_nil ((h.rest.cases hfree).resolve_right hh)]
    · rw [Feed.play, List.foldl_nil, ← hdrain]
      exact Feed.sent_drain (c := g.feed (f.sendings as))
  | @next script as bs g g₁ g' now a h ht ha hs hn ih =>
    obtain ⟨hfree, heq, hsent⟩ := ih
    have hfree₁ := hfree.step ha hs
    have hds : g.dictionaries = f.dictionaries := (run_config h.run_eq).1
    -- what others do sends nothing
    have hnone : g.sending a = [] := by
      cases a with
      | route => cases ht
      | _ => rfl
    have hall : f.sendings (as ++ a :: bs) = f.sendings as ++ g₁.sendings bs := by
      have hstep : f.run (as ++ [a]) = some g₁ := by
        rw [run_append, h.run_eq, Option.bind_some, run_singleton, hs.to_step]
      rw [List.append_cons, sendings_append _ hstep, sendings_concat h.run_eq hs, hnone,
        List.append_nil]
    have hplay : (f.feed []).play f.dictionaries start (script ++ [(now, a)]) =
        (((f.feed []).play f.dictionaries start script).act f.dictionaries a).drain
          f.dictionaries now := by
      rw [Feed.play, List.foldl_concat]
      rfl
    obtain ⟨hfree', hdrain, hheld⟩ := hn.feed_eq hfree₁ (f.sendings as)
    rw [hall, hplay]
    by_cases hh : g.HeldUp
    · -- nothing more is sent
      obtain ⟨hh', hnil⟩ := hheld (hh.step ha hs).1
      refine ⟨hfree', fun hno => absurd hh' hno, ?_⟩
      rw [hnil, List.append_nil]
      refine hsent.trans (List.IsPrefix.trans ?_ Feed.sent_drain)
      cases a with
      | route => cases ht
      | _ => exact List.prefix_refl _
    · have hact : g₁.feed (f.sendings as) =
          ((f.feed []).play f.dictionaries start script).act f.dictionaries a := by
        have hfeed := feed_step hs (f.sendings as)
        rwa [hnone, List.append_nil, heq hh, hds] at hfeed
      rw [(step_config hs).1, hds, hact] at hdrain
      refine ⟨hfree', fun hno => ?_, ?_⟩
      · rw [← hdrain, Feed.drain_of_nil ((hn.rest.cases hfree').resolve_right hno)]
      · rw [← hdrain]
        exact Feed.sent_drain (c := g'.feed (f.sendings as ++ g₁.sendings bs))

/-! ### What a router that is held up has done -/

/-- The records of a run are those of the messages that it counts as relayed. -/
theorem records_length (hl : f.Launched) (h : f.run as = some g) :
    (f.records as).length = g.tally.relayed := by
  refine run_induction (P := fun as g => (f.records as).length = g.tally.relayed) ?_ ?_ h
  · rw [hl.tally]; rfl
  intro as g a g' hg ih hs
  rw [records_concat hg hs, List.length_append, ih, ← (run_config hg).1]
  cases hs with
  | @route now m rest hr hst hi =>
    have ht : g.taken (.route now) = [⟨now, m⟩] := by simp [taken, hi]
    rw [ht, List.filterMap_cons, List.filterMap_nil]
    simp only [take]
    cases Relay.judge g.dictionaries now m <;> rfl
  | _ => rfl

/-- While no task is aborted, each relayed sample is being written or was, waits, or is on offer. -/
theorem relayed_eq (hl : f.Launched) (h : f.run as = some g) (hn : ∀ a ∈ as, a.byServer = false) :
    g.tally.relayed = g.begun.length + g.queue.length + g.offered.toList.length := by
  obtain ⟨dropped, refused, lost, hp⟩ := exists_placed hl h
  obtain ⟨rfl, rfl⟩ := List.append_eq_nil_iff.1
    (eq_nil_of_imp hp.writer (Action.not_mem_of_byServer rfl hn))
  obtain rfl := eq_nil_of_imp hp.router (Action.not_mem_of_byServer rfl hn)
  rw [← records_length hl h, ← hp.records]
  simp [written, Nat.add_assoc]

/-- **A router that is held up** has relayed a sample for each write that was begun, for each place
in the queue and for itself, and one of these writes never finishes. -/
theorem HeldUp.relayed_eq (hh : g.HeldUp) (hl : f.Launched) (h : f.run as = some g)
    (hn : ∀ a ∈ as, a.byServer = false) :
    (∃ late, (late, .hangs) ∈ g.begun) ∧ g.queue.length = g.capacity ∧
      g.tally.relayed = g.begun.length + g.capacity + 1 := by
  obtain ⟨record, late, hr, hw, hq⟩ := hh
  have hlen : g.queue.length = g.capacity := Nat.le_antisymm (queue_le hl h) hq
  refine ⟨⟨late, ?_⟩, hlen, ?_⟩
  · obtain ⟨cut, hbegun, -⟩ := begun_eq hl h
    have hmem : (late, Outcome.hangs) ∈ g.begun.reverse := by
      rw [← hbegun, inProgress, hw]
      simp
    exact List.mem_reverse.1 hmem
  · rw [Flow.relayed_eq hl h hn, hlen, offered, hr]
    rfl

/-- A write that was begun was begun by an action with its outcome. -/
theorem begun_mem (hl : f.Launched) (h : f.run as = some g) :
    ∀ w ∈ g.begun, .beginWrite w.2 ∈ as := by
  refine run_induction (P := fun as g => ∀ w ∈ g.begun, .beginWrite w.2 ∈ as) ?_ ?_ h
  · rw [hl.begun]; exact fun w hw => by cases hw
  intro as g a g' _ ih hs w hw
  cases hs with
  | beginWrite o =>
    rcases List.mem_cons.1 hw with rfl | hw
    · exact List.mem_append_right _ (List.mem_singleton.2 rfl)
    · exact List.mem_append_left _ (ih w hw)
  | _ => exact List.mem_append_left _ (ih w hw)

/-- A router over an archive that answers is not held up. -/
theorem not_heldUp (hl : f.Launched) (h : f.run as = some g) (hn : ∀ a ∈ as, a.byServer = false)
    (ha : .beginWrite .hangs ∉ as) : ¬ g.HeldUp := by
  intro hh
  obtain ⟨⟨late, hlate⟩, -, -⟩ := hh.relayed_eq hl h hn
  exact ha (begun_mem hl h _ hlate)

/-- An archive that never answers has begun one write at most. -/
theorem begun_length_le (hl : f.Launched) (h : f.run as = some g)
    (ho : ∀ o, .beginWrite o ∈ as → o = .hangs) : g.begun.length ≤ 1 := by
  suffices hall : g.begun.length ≤ 1 ∧ (g.writer = .waiting → g.begun = []) ∧
      ∀ record o, g.writer = .writing record o → o = .hangs from hall.1
  revert ho
  refine run_induction (P := fun as g => (∀ o, .beginWrite o ∈ as → o = .hangs) →
    g.begun.length ≤ 1 ∧ (g.writer = .waiting → g.begun = []) ∧
      ∀ record o, g.writer = .writing record o → o = .hangs) ?_ ?_ h
  · intro _
    rw [hl.begun, hl.writer]
    exact ⟨Nat.zero_le _, fun _ => rfl, fun _ _ => WriterTask.noConfusion⟩
  intro as g a g' _ ih hs ho
  obtain ⟨hone, hnone, hhang⟩ := ih fun o hm => ho o (List.mem_append_left _ hm)
  cases hs with
  | beginWrite o hw hq =>
    refine ⟨by simp [hnone hw], WriterTask.noConfusion, fun _ _ h => ?_⟩
    injection h with _ h
    rw [← h]
    exact ho o (by simp)
  | finishWrite hw => cases hhang _ _ hw
  | failWrite hw => cases hhang _ _ hw
  | endWriter => exact ⟨hone, WriterTask.noConfusion, fun _ _ => WriterTask.noConfusion⟩
  | abortWriter => exact ⟨hone, WriterTask.noConfusion, fun _ _ => WriterTask.noConfusion⟩
  | _ => exact ⟨hone, hnone, hhang⟩

/-! ### Every archive has its plays -/

/-- What the server lets the tasks do at rest is nothing. -/
theorem atRest_of_stuck {write : Record → Outcome} (h : f.advance? now write = none) :
    f.AtRest := by
  obtain ⟨hw, hr⟩ := actions_of_stuck h
  intro a g hs
  cases hs with
  | route time h hst hi => simp [routerAction?, step, h, hst, hi] at hr
  | refuse h hwe => simp [routerAction?, step, h, hwe] at hr
  | enqueue h hwe hq =>
    cases hf : f.writer with
    | ended => exact absurd hf hwe
    | waiting => simp [routerAction?, step, h, hf, hq] at hr
    | writing => simp [routerAction?, step, h, hf, hq] at hr
  | endRouter h he =>
    have he' : (f.stopping || (f.inbound.isEmpty && !f.streamOpen)) = true := by simpa using he
    simp [routerAction?, step, h, he'] at hr
  | beginWrite o h hq => simp [writerAction?, h, hq] at hw
  | finishWrite h => simp [writerAction?, h] at hw
  | failWrite h => simp [writerAction?, h] at hw
  | endWriter h hq hre => simp [writerAction?, h, hq, hre] at hw
  | _ => rfl

/-- The outcome of each write that begins is what the archive gives it. -/
def AnsweredBy (write : Record → Outcome) (as : List Action) : Prop :=
  ∀ o, .beginWrite o ∈ as → ∃ record, o = write record

/-- **The server's own order lets both tasks do what they can**, over any archive. -/
theorem settles_settle (f : Flow) (now : Int) (write : Record → Outcome) :
    ∃ as, f.Settles now as (f.settle now write) ∧ AnsweredBy write as := by
  fun_induction settle now write f with
  | case1 f h =>
    exact ⟨[], ⟨rfl, fun a ha => (by cases ha), atRest_of_stuck h⟩, fun o ho => (by cases ho)⟩
  | case2 f g h ih =>
    obtain ⟨a, hs, ha⟩ := advance?_cases h
    obtain ⟨as, hsettles, hans⟩ := ih
    refine ⟨a :: as, ⟨?_, List.forall_mem_cons.2 ⟨?_, hsettles.byTask⟩, hsettles.rest⟩, fun o ho => ?_⟩
    · rw [run, hs.to_step]
      exact hsettles.run
    · rcases ha with ha | rfl
      · cases ha <;> exact ⟨rfl, rfl⟩
      · exact ⟨rfl, by simp [Action.isAt]⟩
    · rcases List.mem_cons.1 ho with rfl | ho
      · rcases ha with ha | ha
        · cases ha with
          | beginWrite record => exact ⟨record, rfl⟩
        · cases ha
      · exact hans o ho

/-- While messages can arrive, they still can after what the two tasks do. -/
theorem streamOpen_step (hf : f.Free) (ht : a.byTask = true) (hs : Step f a g)
    (ho : f.streamOpen = true) : g.streamOpen = true := by
  cases hs with
  | endRouter hr he =>
    rcases he with he | ⟨-, he⟩
    · rw [hf.going] at he; cases he
    · rw [ho] at he; cases he
  | lose => cases ht
  | abortRouter => cases ht
  | _ => exact ho

theorem Settles.streamOpen (h : f.Settles now as g) (hf : f.Free) (ho : f.streamOpen = true) :
    g.Free ∧ g.streamOpen = true := by
  have hall := h.byTask
  revert hall
  refine run_induction (P := fun as g => (∀ a ∈ as, a.byTask = true ∧ a.isAt now = true) →
    g.Free ∧ g.streamOpen = true) (fun _ => ⟨hf, ho⟩) ?_ h.run
  intro as g a g' _ ih hs hall
  obtain ⟨hfree, hopen⟩ := ih fun b hb => hall b (List.mem_append_left _ hb)
  obtain ⟨ht, -⟩ := hall a (by simp)
  exact ⟨hfree.step (byServer_of_byTask ht) hs, streamOpen_step hfree ht hs hopen⟩

/-- Whether an entry of a script is possible while the broker's connection is up. -/
def Action.comes : Action → Bool
  | .arrive _ => true
  | .client _ => true
  | _ => false

/-- **Every archive has a play of every script** of arrivals and client events. -/
theorem exists_play (hf : f.Free) (ho : f.streamOpen = true) (write : Record → Outcome)
    (start : Int) (script : List (Int × Action)) (hs : ∀ e ∈ script, e.2.comes = true) :
    ∃ as g, Play f start script as g ∧ AnsweredBy write as := by
  suffices h : ∃ as g, Play f start script as g ∧ AnsweredBy write as ∧ g.Free ∧
      g.streamOpen = true by
    obtain ⟨as, g, hplay, hans, -⟩ := h
    exact ⟨as, g, hplay, hans⟩
  induction script using List.reverseRecOn with
  | nil =>
    obtain ⟨as, hsettles, hans⟩ := settles_settle f start write
    exact ⟨as, _, .begin hsettles, hans, hsettles.streamOpen hf ho⟩
  | append_singleton script e ih =>
    obtain ⟨as, g, hplay, hans, hfree, hopen⟩ := ih fun x hx => hs x (List.mem_append_left _ hx)
    have hcomes := hs e (by simp)
    obtain ⟨now, a⟩ := e
    -- the entry is possible, and leaves the stream open
    have hnext : ∃ g₁, Step g a g₁ ∧ a.byTask = false ∧ a.byServer = false ∧
        g₁.streamOpen = true ∧ ∀ o, a ≠ .beginWrite o := by
      cases a with
      | arrive m => exact ⟨_, .arrive m hopen, rfl, rfl, hopen, fun _ => Action.noConfusion⟩
      | client e => exact ⟨_, .client e, rfl, rfl, hopen, fun _ => Action.noConfusion⟩
      | _ => cases hcomes
    obtain ⟨g₁, hstep, ht, ha, hopen₁, hne⟩ := hnext
    obtain ⟨bs, hsettles, hans'⟩ := settles_settle g₁ now write
    refine ⟨_, _, .next hplay ht ha hstep hsettles, fun o ho => ?_,
      hsettles.streamOpen (hfree.step ha hstep) hopen₁⟩
    rcases List.mem_append.1 ho with ho | ho
    · exact hans o ho
    rcases List.mem_cons.1 ho with ho | ho
    · exact absurd ho.symm (hne o)
    · exact hans' o ho

/-- **Every archive that answers has a play of every such script** that is not held up. -/
theorem exists_play_prompt (hl : f.Launched) (hf : f.Free) (ho : f.streamOpen = true)
    (write : Record → Outcome) (hw : ∀ record, write record ≠ .hangs) (start : Int)
    (script : List (Int × Action)) (hs : ∀ e ∈ script, e.2.comes = true) :
    ∃ as g, Play f start script as g ∧ ¬ g.HeldUp := by
  obtain ⟨as, g, hplay, hans⟩ := exists_play hf ho write start script hs
  refine ⟨as, g, hplay, not_heldUp hl hplay.run_eq hplay.byServer fun hm => ?_⟩
  obtain ⟨record, hrecord⟩ := hans _ hm
  exact hw record hrecord.symm

end Flow

end TelemetryRelay
