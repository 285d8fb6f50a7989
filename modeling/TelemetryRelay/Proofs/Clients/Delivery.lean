import TelemetryRelay.Proofs.Clients.View

/-!
# Delivery to clients

A client gets the frames that are sent while it is connected, in their order, but for those that
find its queue full. Neither the other clients nor a full queue can cost it anything else.

* `View.Served.see`: a client that is served stays so, unless it is removed.
* `View.Bounded.see`: no queue holds more frames than it may.
* `offered_cases`: what one frame does to one queue.
* `delivery_exact`: **what a client gets of a run, and that it depends on what the client sees
  alone.**
-/

namespace TelemetryRelay

/-- **A client is served**: it is listed, and what it has received and what waits for it are the
frames that found room. -/
def View.Served (v : View) : Prop :=
  ∃ q, v.queue = some q ∧ (q.receiving = true → q.listed = true ∧
    v.received ++ q.queued = (v.offers.filter fun o => !o.2).map (·.1))

/-- No more frames wait than may. -/
def View.Bounded (capacity : Nat) (v : View) : Prop :=
  ∀ q, v.queue = some q → q.queued.length ≤ capacity

namespace Outbound

variable {capacity : Nat} {text : String} {q : Outbound}

/-- **What one frame does to one queue.** -/
theorem offered_cases (capacity : Nat) (text : String) (q : Outbound) :
    (q.receiving = false → (q.offered capacity text).listed = false) ∧
    (q.receiving = true → q.offered capacity text =
      { q with
        queued := if q.listed && !q.isFull capacity then q.queued ++ [text] else q.queued }) := by
  constructor
  · intro hr
    rw [offered_of_not_receiving hr, unlisted]
  · intro hr
    obtain ⟨listed, receiving, queued⟩ := q
    cases listed with
    | false => rfl
    | true =>
      obtain rfl : receiving = true := hr
      by_cases hf : capacity ≤ queued.length <;> simp [offered, isFull, hf]

theorem offered_length_le (h : q.queued.length ≤ capacity) :
    (q.offered capacity text).queued.length ≤ capacity := by
  unfold offered
  split
  · exact h
  split
  · exact h
  split
  · exact h
  · rw [List.length_append, List.length_singleton]
    omega

end Outbound

namespace View

variable {ds : List Dictionary} {capacity : Nat} {v : View} {s : Sight}

/-- **A client stays served** by all that it sees but its own removal. -/
theorem Served.see (h : v.Served) (hj : s ≠ .join) (hr : s ≠ .remove) :
    (v.see ds capacity s).Served := by
  obtain ⟨q, hq, hs⟩ := h
  cases s with
  | message a =>
    unfold View.see
    dsimp only
    cases Relay.frameText? ds a with
    | none => exact ⟨q, hq, hs⟩
    | some text =>
      refine ⟨q.offered capacity text, by rw [hq]; rfl, fun hrec => ?_⟩
      -- a frame gives no receiver back
      have hqr : q.receiving = true := by
        by_contra hn
        have hn' : q.receiving = false := by simpa using hn
        rw [Outbound.offered_of_not_receiving hn'] at hrec
        exact hn hrec
      obtain ⟨hlist, heq⟩ := hs hqr
      rw [(Outbound.offered_cases capacity text q).2 hqr, hq]
      refine ⟨hlist, ?_⟩
      -- the frame is kept exactly if it found room
      cases hf : q.isFull capacity
      · simp [hlist, hf, ← heq]
      · simp [hf, ← heq]
  | join => exact absurd rfl hj
  | receive =>
    obtain ⟨listed, receiving, queued⟩ := q
    refine ⟨Outbound.taken ⟨listed, receiving, queued⟩, by simp [View.see, hq], fun hrec => ?_⟩
    cases receiving with
    | false => cases hrec
    | true =>
      obtain ⟨hlist, heq⟩ := hs rfl
      refine ⟨hlist, ?_⟩
      -- the oldest frame goes from the queue to what was received
      cases queued <;> simpa [View.see, hq, Outbound.taken, Outbound.ready?] using heq
  | leave => exact ⟨q.dropped, by simp [View.see, hq], fun hrec => by cases hrec⟩
  | remove => exact absurd rfl hr

/-- **A queue stays within its bound**, whatever the client sees. -/
theorem Bounded.see (h : v.Bounded capacity) : (v.see ds capacity s).Bounded capacity := by
  intro q' hq'
  cases s with
  | message a =>
    unfold View.see at hq'
    dsimp only at hq'
    cases hf : Relay.frameText? ds a with
    | none => rw [hf] at hq'; exact h q' hq'
    | some text =>
      rw [hf] at hq'
      obtain ⟨q, hq, rfl⟩ := Option.map_eq_some_iff.1 hq'
      exact Outbound.offered_length_le (h q hq)
  | join => cases hq'; exact Nat.zero_le _
  | receive =>
    obtain ⟨q, hq, rfl⟩ := Option.map_eq_some_iff.1 hq'
    have := h q hq
    unfold Outbound.taken
    split
    · rw [List.length_tail]; omega
    · exact this
  | leave =>
    obtain ⟨q, hq, rfl⟩ := Option.map_eq_some_iff.1 hq'
    exact Nat.zero_le _
  | remove =>
    obtain ⟨q, hq, rfl⟩ := Option.map_eq_some_iff.1 hq'
    exact h q hq

end View

namespace Flow

variable {f g g' : Flow} {as : List Action} {a : Action} {n : ClientId}

/-- A client that is there sees no joining, and its removal only if it is removed. -/
theorem sight_stays {q : Outbound} (hq : g.clients.queue? n = some q)
    (hr : a ≠ .client (.remove n)) (hall : a ≠ .client .removeAll) :
    ∀ s ∈ g.sight n a, s ≠ .join ∧ s ≠ .remove := by
  intro s hs
  cases a with
  | route now =>
    obtain ⟨x, -, rfl⟩ := List.mem_map.1 hs
    exact ⟨Sight.noConfusion, Sight.noConfusion⟩
  | client e =>
    cases e with
    | join =>
      rw [sight, if_neg (Registry.register_fst_ne hq)] at hs
      cases hs
    | receive k =>
      obtain ⟨-, hs⟩ := List.mem_ite_nil_right.1 hs
      rw [List.mem_singleton.1 hs]
      exact ⟨Sight.noConfusion, Sight.noConfusion⟩
    | leave k =>
      obtain ⟨-, hs⟩ := List.mem_ite_nil_right.1 hs
      rw [List.mem_singleton.1 hs]
      exact ⟨Sight.noConfusion, Sight.noConfusion⟩
    | remove k =>
      obtain ⟨⟨hk, -⟩, -⟩ := List.mem_ite_nil_right.1 hs
      exact absurd (by rw [hk]) hr
    | removeAll => exact absurd rfl hall
  | _ => cases hs

/-- **A client that is served stays so** along a run in which it is not removed. -/
theorem served_run (hf : (f.view n [] f).Served) (h : f.run as = some g)
    (hr : .client (.remove n) ∉ as) (hall : .client .removeAll ∉ as) : (f.view n as g).Served := by
  revert hr hall
  refine run_induction (P := fun as g => .client (.remove n) ∉ as → .client .removeAll ∉ as →
    (f.view n as g).Served) (fun _ _ => hf) ?_ h
  intro as g a g' hg ih hs hr hall
  rw [List.mem_append, not_or, List.mem_singleton] at hr hall
  obtain ⟨q, hq, hsv⟩ := ih hr.1 hall.1
  rw [view, received, offers, along_concat _ hg hs, along_concat _ hg hs, view_step hs n]
  refine List.foldlRecOn _ _ ⟨q, hq, hsv⟩ fun v hv s hm => ?_
  obtain ⟨hj, hrm⟩ := sight_stays hq (Ne.symm hr.2) (Ne.symm hall.2) s hm
  exact hv.see hj hrm

/-- The frames that a run sends are those of its relayed messages. -/
theorem offers_fst (n : ClientId) (h : f.run as = some g) :
    (f.offers n as).map (·.1) = (f.routed as).filterMap (Relay.frameText? f.dictionaries) := by
  refine run_induction (P := fun as _ => (f.offers n as).map (·.1) =
    (f.routed as).filterMap (Relay.frameText? f.dictionaries)) rfl ?_ h
  intro as g a g' hg ih hs
  rw [routed_concat hg hs, offers, along_concat _ hg hs, List.map_append, List.filterMap_append,
    ← ih, ← (run_config hg).1, ← offers, offering, List.map_filterMap]
  simp [Function.comp_def]

/-- A client that joins is served from then on. -/
theorem served_join (hn : n = g.clients.register.1) (h : g.run (.client .join :: as) = some g')
    (hr : .client (.remove n) ∉ as) (hall : .client .removeAll ∉ as) :
    (g.view n (.client .join :: as) g').Served := by
  rw [run, Step.to_step (.client .join), Option.bind_some] at h
  have hq : (g.clients.after .join).queue? n = some ⟨true, true, []⟩ := by
    rw [Registry.queue?_after, if_pos hn]
  -- what is seen along the run begins behind the joining
  have hj : ∀ {α : Type} (see : Flow → Action → List α), see g (.client .join) = [] →
      g.along see (.client .join :: as) =
        along see { g with clients := g.clients.after .join } as :=
    fun see hsee => by rw [along, Step.to_step (.client .join), hsee]; rfl
  rw [view, received, offers, hj _ rfl, hj _ rfl]
  exact served_run ⟨_, hq, fun _ => ⟨rfl, rfl⟩⟩ h hr hall

/-- A client's queue stays within the bound of its registry. -/
theorem bounded_run (hf : (f.view n [] f).Bounded f.clients.capacity) (h : f.run as = some g) :
    (f.view n as g).Bounded f.clients.capacity := by
  rw [view_run n h]
  exact List.foldlRecOn _ _ hf fun v hv s _ => hv.see

/-- **Every client gets what is sent to it, and no client can cost another anything.** No queue ever
holds more frames than there is room for. A client that joins, keeps its receiver and is not removed
is listed, and what it has received and what waits for it are the frames of the messages relayed
since, in order, but for those that found its queue full. A frame takes a client off the list
exactly if its receiver is gone, and reaches every other client that has room. Two runs that are
alike to a client, whatever they are to others, give it the same frames. -/
theorem delivery_exact {ds : List Dictionary} {room capacity : Nat} {early : List Message}
    (hf : f = launch { dictionaries := ds, clients := ⟨room, []⟩, capacity } early)
    (h : f.run as = some g) :
    (∀ n q, g.clients.queue? n = some q → q.queued.length ≤ room) ∧
    (∀ n after g', n = g.clients.register.1 → g.run (.client .join :: after) = some g' →
      (g.offers n (.client .join :: after)).map (·.1) =
        (g.routed (.client .join :: after)).filterMap (Relay.frameText? ds) ∧
      (.client (.remove n) ∉ after → .client .removeAll ∉ after →
        ∃ q, g'.clients.queue? n = some q ∧ (q.receiving = true → q.listed = true ∧
          g.received n (.client .join :: after) ++ q.queued =
            ((g.offers n (.client .join :: after)).filter fun o => !o.2).map (·.1)))) ∧
    (∀ now m rest g' text, g.inbound = m :: rest → g.step (.route now) = some g' →
      Relay.frameText? ds ⟨now, m⟩ = some text → ∀ n q, g.clients.queue? n = some q →
        ∃ q', g'.clients.queue? n = some q' ∧
          (q.receiving = false → q'.listed = false) ∧
          (q.receiving = true → q' = { q with
            queued := if q.listed && !q.isFull room then q.queued ++ [text] else q.queued })) ∧
    (∀ capacity' early' f' bs g' n n',
      f' = launch { dictionaries := ds, clients := ⟨room, []⟩, capacity := capacity' } early' →
      f'.run bs = some g' → f.sights n as = f'.sights n' bs →
        f.received n as = f'.received n' bs ∧ g.clients.queue? n = g'.clients.queue? n') ∧
    ∀ a text, Relay.frameText? ds a = some text ↔
      Relay.Relayed ds a ∧ ∃ frame, a.decoded = .ok frame ∧ frame.text = text := by
  have hds : g.dictionaries = ds := by rw [(run_config h).1, hf]; rfl
  have hroom : f.clients.capacity = room := by rw [hf]; rfl
  have hnone : ∀ n, f.clients.queue? n = none := fun n => by
    rw [hf]; cases n <;> rfl
  refine ⟨fun n q hq => ?_, fun n after g' hn hrun => ⟨?_, fun hr hall => ?_⟩, ?_, ?_,
    fun a text => Relay.frameText?_eq_some_iff⟩
  · have hb : (f.view n [] f).Bounded f.clients.capacity := fun q hq => by
      rw [view, hnone] at hq; cases hq
    rw [← hroom]
    exact bounded_run hb h q hq
  · rw [offers_fst n hrun, hds]
  · exact served_join hn hrun hr hall
  · intro now m rest g' text hi hstep htext n q hq
    cases Step.of_step hstep with
    | route now hr hst hi' =>
      rw [hi] at hi'; cases hi'
      refine ⟨q.offered room text, ?_, Outbound.offered_cases room text q⟩
      rw [clients_take, hds, htext]
      simp only [Registry.queue?_broadcast, hq, capacity_run h, hroom, Option.map_some]
  · intro capacity' early' f' bs g' n n' hf' h' hs
    have hnone' : f'.clients.queue? n' = none := by rw [hf']; cases n' <;> rfl
    have hv : f.view n as g = f'.view n' bs g' := by
      rw [view_run n h, view_run n' h', hs, hnone, hnone', hf, hf']
      rfl
    exact ⟨congrArg View.received hv, congrArg View.queue hv⟩

/-- Two samples on one channel. -/
def twoSamples : List Message := [⟨"av/alt", [0x37]⟩, ⟨"av/alt", [0x38]⟩]

/-- A client that takes no frame stays listed, and its one place stays filled. -/
theorem stalled_client_stays_listed :
    ∃ g q, (launch { dictionaries := [.avionics], clients := ⟨1, []⟩ } twoSamples).run
        ([.client .join] ++ [.client .join, .route 5, .enqueue, .route 6]) = some g ∧
      g.clients.queue? 2 = some q ∧ q.listed = true ∧ q.queued.length ≤ 1 := by
  obtain ⟨g, hg⟩ : ∃ g, (launch { dictionaries := [.avionics], clients := ⟨1, []⟩ } twoSamples).run
    [.client .join] = some g := ⟨_, rfl⟩
  have hrun : ((g.run [.client .join, .route 5, .enqueue, .route 6]).bind fun g' =>
      (g'.clients.queue? 2).map (·.receiving)) = some true := by
    rw [← Option.some.inj hg]; rfl
  obtain ⟨g', hg', hrec⟩ := Option.bind_eq_some_iff.1 hrun
  have htwo : 2 = g.clients.register.1 := by rw [← Option.some.inj hg]; rfl
  obtain ⟨-, hserved, -⟩ := delivery_exact rfl hg
  obtain ⟨q, hq, hlisted⟩ := (hserved 2 _ g' htwo hg').2 (by simp) (by simp)
  rw [hq] at hrec
  have hall : (launch { dictionaries := [.avionics], clients := ⟨1, []⟩ } twoSamples).run
      ([.client .join] ++ [.client .join, .route 5, .enqueue, .route 6]) = some g' := by
    rw [run_append, hg]; exact hg'
  obtain ⟨hbound, -⟩ := delivery_exact rfl hall
  exact ⟨g', q, hall, hq, (hlisted (Option.some.inj hrec)).1, hbound 2 q hq⟩

end Flow

end TelemetryRelay
