import TelemetryRelay.Proofs.Clients.Broadcast
import TelemetryRelay.Proofs.Relay.Verdict

/-!
# What one client sees of a run

A client's queue changes with the messages that are routed and with the client's own events. All
that others do passes it by. So there is a small machine that goes through what the client sees
(`sights`) and gets, at every moment, its queue, the frames it has received and the frames it was
offered (`View.see`).

* `view_step`: one action changes what a client has got as the client's sights say.
* `view_run`: **after every run the machine holds what the run has come to**, as far as the client
  is concerned.
-/

namespace TelemetryRelay

/-- What a client sees. -/
inductive Sight where
  /-- A message is routed. -/
  | message (arrival : Arrival)
  | join
  | receive
  | leave
  | remove

/-- What a client has got. -/
structure View where
  queue : Option Outbound := none
  received : List String := []
  /-- The frames that were sent while the client was there or before, and whether each found the
  client's queue full. -/
  offers : List (String × Bool) := []

/-- Whether a queue is full. -/
def Outbound.isFull (capacity : Nat) (q : Outbound) : Bool := decide (capacity ≤ q.queued.length)

/-- The frame that a session can take from its queue. -/
def Outbound.ready? (q : Outbound) : Option String := if q.receiving then q.queued.head? else none

namespace View

/-- **What a sight makes of it.** -/
def see (ds : List Dictionary) (capacity : Nat) (v : View) : Sight → View
  | .message a =>
    match Relay.frameText? ds a with
    | some text =>
      { v with
        queue := v.queue.map (Outbound.offered capacity text)
        offers := v.offers ++ [(text, v.queue.any (Outbound.isFull capacity))] }
    | none => v
  | .join => { v with queue := some ⟨true, true, []⟩ }
  | .receive =>
    { v with
      queue := v.queue.map Outbound.taken
      received := v.received ++ (v.queue.bind Outbound.ready?).toList }
  | .leave => { v with queue := v.queue.map Outbound.dropped }
  | .remove => { v with queue := v.queue.map Outbound.unlisted }

end View

namespace Flow

variable {f g g' : Flow} {as : List Action} {a : Action}

/-- Whether a client is or was connected. -/
def hasClient (f : Flow) (n : ClientId) : Bool := (f.clients.queue? n).isSome

/-- What a client sees of an action. -/
def sight (n : ClientId) (f : Flow) : Action → List Sight
  | .route now => (f.taken (.route now)).map .message
  | .client .join => if n = f.clients.register.1 then [.join] else []
  | .client (.receive k) => if n = k ∧ f.hasClient n then [.receive] else []
  | .client (.leave k) => if n = k ∧ f.hasClient n then [.leave] else []
  | .client (.remove k) => if n = k ∧ f.hasClient n then [.remove] else []
  | .client .removeAll => if f.hasClient n then [.remove] else []
  | _ => []

/-- The frame that a client receives by an action. -/
def delivering (n : ClientId) (f : Flow) : Action → List String
  | .client (.receive k) =>
    if n = k then
      match (f.clients.receive k).1 with
      | .frame payload => [payload]
      | _ => []
    else []
  | _ => []

/-- The frame that an action sends, and whether it finds a client's queue full. -/
def offering (n : ClientId) (f : Flow) (a : Action) : List (String × Bool) :=
  (f.taken a).filterMap fun x => (Relay.frameText? f.dictionaries x).map fun text =>
    (text, (f.clients.queue? n).any (Outbound.isFull f.clients.capacity))

/-- **What a client sees of a run.** -/
def sights (f : Flow) (n : ClientId) (as : List Action) : List Sight := f.along (sight n) as

/-- **The frames that a client has received**, in this order. -/
def received (f : Flow) (n : ClientId) (as : List Action) : List String :=
  f.along (delivering n) as

/-- **The frames that were sent**, and whether each found a client's queue full. -/
def offers (f : Flow) (n : ClientId) (as : List Action) : List (String × Bool) :=
  f.along (offering n) as

/-- What a client has got by a state. -/
def view (f : Flow) (n : ClientId) (as : List Action) (g : Flow) : View :=
  ⟨g.clients.queue? n, f.received n as, f.offers n as⟩

/-! ### One action -/

/-- Taking a message sends its frame, if it has one. -/
theorem clients_take (now : Int) (m : Message) (rest : List Message) :
    (f.take now m rest).clients =
      match Relay.frameText? f.dictionaries ⟨now, m⟩ with
      | some text => f.clients.broadcast text
      | none => f.clients := by
  unfold take Relay.frameText?
  dsimp only
  cases Relay.judge f.dictionaries now m <;> rfl

theorem capacity_step (hs : Step g a g') : g'.clients.capacity = g.clients.capacity := by
  cases hs with
  | route now hr hst hi =>
    rw [clients_take]
    split
    · exact Registry.capacity_broadcast
    · rfl
  | client e => exact Registry.capacity_after e
  | _ => rfl

/-- What a client receives is what its queue gives first. -/
theorem delivering_receive (n : ClientId) : g.delivering n (.client (.receive n)) =
    ((g.clients.queue? n).bind Outbound.ready?).toList := by
  unfold delivering Registry.receive
  dsimp only
  rw [if_pos rfl]
  cases g.clients.queue? n with
  | none => rfl
  | some q =>
    obtain ⟨listed, receiving, queued⟩ := q
    cases receiving with
    | false => rfl
    | true =>
      cases queued with
      | nil => cases listed <;> rfl
      | cons payload rest => rfl

/-- **One action, as a client sees it.** -/
theorem view_step (hs : Step g a g') (n : ClientId) (got : List String)
    (sent : List (String × Bool)) :
    (⟨g'.clients.queue? n, got ++ g.delivering n a, sent ++ g.offering n a⟩ : View) =
      (g.sight n a).foldl (View.see g.dictionaries g.clients.capacity)
        ⟨g.clients.queue? n, got, sent⟩ := by
  cases hs with
  | @route now m rest hr hst hi =>
    rw [clients_take]
    -- the only sight is the message, and it changes the queue if it has a frame
    have ht : g.taken (.route now) = [⟨now, m⟩] := by simp [taken, hi]
    simp only [sight, delivering, offering, ht, List.map_cons, List.map_nil, List.foldl_cons,
      List.foldl_nil, View.see, List.append_nil]
    cases hf : Relay.frameText? g.dictionaries ⟨now, m⟩ with
    | none => simp [hf]
    | some text => simp [hf, Registry.queue?_broadcast]
  | client e =>
    simp only [Registry.queue?_after, offering, taken, List.filterMap_nil, List.append_nil]
    cases e with
    | join =>
      simp only [sight, delivering, List.append_nil]
      split <;> rfl
    | receive k =>
      by_cases hk : n = k
      · subst hk
        rw [delivering_receive]
        cases hq : g.clients.queue? n <;> simp [sight, hasClient, hq, View.see]
      · simp [sight, delivering, hk]
    | leave k =>
      by_cases hk : n = k
      · subst hk
        cases hq : g.clients.queue? n <;> simp [sight, delivering, hasClient, hq, View.see]
      · simp [sight, delivering, hk]
    | remove k =>
      by_cases hk : n = k
      · subst hk
        cases hq : g.clients.queue? n <;> simp [sight, delivering, hasClient, hq, View.see]
      · simp [sight, delivering, hk]
    | removeAll =>
      cases hq : g.clients.queue? n <;> simp [sight, delivering, hasClient, hq, View.see]
  | _ => simp [sight, delivering, offering, taken]

/-! ### Runs -/

theorem capacity_run (h : f.run as = some g) : g.clients.capacity = f.clients.capacity :=
  run_induction (P := fun _ g => g.clients.capacity = f.clients.capacity) rfl
    (fun _ _ _ _ _ ih hs => (capacity_step hs).trans ih) h

/-- **A run, as a client sees it.** -/
theorem view_run (n : ClientId) (h : f.run as = some g) : f.view n as g =
    (f.sights n as).foldl (View.see f.dictionaries f.clients.capacity)
      { queue := f.clients.queue? n } := by
  refine run_induction (P := fun as g => f.view n as g =
    (f.sights n as).foldl (View.see f.dictionaries f.clients.capacity)
      { queue := f.clients.queue? n }) rfl ?_ h
  intro as g a g' hg ih hs
  rw [sights, along_concat _ hg hs, List.foldl_append, ← sights, ← ih, view, received, offers,
    along_concat _ hg hs, along_concat _ hg hs, view_step hs n, (run_config hg).1, capacity_run hg]
  rfl

end Flow

end TelemetryRelay
