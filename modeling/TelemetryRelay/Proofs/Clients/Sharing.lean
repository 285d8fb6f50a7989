import Mathlib.Data.List.Iterate
import TelemetryRelay.Clients.Sharing
import TelemetryRelay.Proofs.Clients.Closing
import TelemetryRelay.Proofs.Clients.View

/-!
# What a shared registry keeps

Sends race with everything else that is done to the registry: between the look-up and the delivery a
client can be removed, end or give up its queue, and others can join. All the same the log of what
was done tells who is listed and what each client gets.

* `queue?_after`: what an action leaves of each queue, and from it `isListed_after`.
* `delivery_after`: how a delivery ends.
* `Kept.after`: what every action keeps of the registry and its log.
* `leftBy_run`: **whatever is done to a registry, in whatever order, the log tells its state**: no
  number is given out twice, listed are those who joined and were not removed since, a send removes
  nobody but its own client, and every receiver gets what its queue accepted.
-/

namespace TelemetryRelay

/-- A client's number as the word of 64 bits that is handed out. -/
def ClientId.word (client : ClientId) : UInt64 := UInt64.ofNat client

namespace RegistryEntry

/-- The client that joins. -/
def joined? : RegistryEntry → Option ClientId
  | ⟨_, .joined client⟩ => some client
  | _ => none

/-- Whether an entry takes a client off the list: it removes this client or every client, or it is
a delivery that found the queue closed. -/
def removes (client : ClientId) : RegistryEntry → Bool
  | ⟨.event (.remove k), _⟩ => k == client
  | ⟨.event .removeAll, _⟩ => true
  | ⟨.deliver k _, .sent (.error (.disconnected _))⟩ => k == client
  | _ => false

/-- The frame that a client's queue accepts. -/
def accepted? (client : ClientId) : RegistryEntry → Option String
  | ⟨.deliver k payload, .sent (.ok ())⟩ => if k = client then some payload else none
  | _ => none

/-- The frame that a client receives. -/
def yielded? (client : ClientId) : RegistryEntry → Option String
  | ⟨.event (.receive k), .received (.frame payload)⟩ =>
    if k = client then some payload else none
  | _ => none

end RegistryEntry

namespace SharedRegistry

/-- The clients that joined, in this order. -/
def joined (log : List RegistryEntry) : List ClientId := log.filterMap RegistryEntry.joined?

/-- The frames that a client's queue accepted, in this order. -/
def accepted (client : ClientId) (log : List RegistryEntry) : List String :=
  log.filterMap (RegistryEntry.accepted? client)

/-- The frames that a client received, in this order. -/
def yielded (client : ClientId) (log : List RegistryEntry) : List String :=
  log.filterMap (RegistryEntry.yielded? client)

/-- **Who is listed, by the log**: a client that joined and was not removed since. -/
def ListedBy (log : List RegistryEntry) (client : ClientId) : Prop :=
  ∃ before after, log = before ++ ⟨.event .join, .joined client⟩ :: after ∧
    ∀ e ∈ after, e.removes client = false

/-- How a delivery that is possible can end, and what it leaves. -/
inductive Delivery (s : SharedRegistry) (client : ClientId) (payload : String) :
    Except SendFault Unit → SharedRegistry → Prop where
  /-- The frame waits behind the others. -/
  | accepted {q : Outbound} (hq : s.registry.queue? client = some q) (hr : q.receiving = true)
    (hroom : q.queued.length < s.registry.capacity) :
    Delivery s client payload (.ok ())
      ⟨s.registry.update client fun q => { q with queued := q.queued ++ [payload] },
        s.sending.erase (client, payload)⟩
  /-- The registry stays as it is. -/
  | full {q : Outbound} (hq : s.registry.queue? client = some q) (hr : q.receiving = true)
    (hfull : s.registry.capacity ≤ q.queued.length) :
    Delivery s client payload (.error (.queueFull client))
      ⟨s.registry, s.sending.erase (client, payload)⟩
  /-- The client is removed. -/
  | closed (hr : ∀ q, s.registry.queue? client = some q → q.receiving = false) :
    Delivery s client payload (.error (.disconnected client))
      ⟨s.registry.unregister client, s.sending.erase (client, payload)⟩

/-- **What the actions of a log leave of a registry.** -/
structure LeftBy (s : SharedRegistry) (log : List RegistryEntry) : Prop where
  /-- The numbers are those of a counter of 64 bits that starts at one. -/
  counter : (joined log).map ClientId.word = List.iterate (· + 1) 1 (joined log).length
  numbers_nodup : ((joined log).map ClientId.word).Nodup
  /-- The list is in the order in which the clients joined. -/
  ids_sublist : s.registry.ids.Sublist (joined log)
  ids_increasing : (s.registry.ids.map ClientId.word).Pairwise (· < ·)
  mem_ids_iff : ∀ client, client ∈ s.registry.ids ↔ ListedBy log client
  never_again : ∀ client ∈ joined log, client ∉ s.registry.ids → ∀ as log' t,
    s.run as = some (log', t) → client ∉ t.registry.ids
  /-- A send to a client that is not listed says so and changes nothing. -/
  not_found : ∀ client payload, client ∉ s.registry.ids →
    s.answer (.lookUp client payload) = .sent (.error (.disconnected client)) ∧
      s.after (.lookUp client payload) = s
  /-- A delivery ends in one of three ways, and it changes nothing of the other clients. -/
  delivery : ∀ client payload, ∃ result,
    s.answer (.deliver client payload) = .sent result ∧
      s.Delivery client payload result (s.after (.deliver client payload)) ∧
      ∀ k, k ≠ client →
        (s.after (.deliver client payload)).registry.queue? k = s.registry.queue? k ∧
        (k ∈ (s.after (.deliver client payload)).registry.ids ↔ k ∈ s.registry.ids)
  /-- A send whose two actions follow each other is `Registry.send`. -/
  undivided : ∀ client payload, client ∈ s.registry.ids →
    (s.after (.lookUp client payload)).answer (.deliver client payload) =
        .sent (s.registry.send client payload).1 ∧
      ((s.after (.lookUp client payload)).after (.deliver client payload)).registry =
        (s.registry.send client payload).2
  /-- Everybody who joined has a queue. -/
  mem_joined_iff : ∀ client, client ∈ joined log ↔ ∃ q, s.registry.queue? client = some q
  yielded_prefix : ∀ client, yielded client log <+: accepted client log
  waiting : ∀ client q, s.registry.queue? client = some q → q.receiving = true →
    yielded client log ++ q.queued = accepted client log
  closed_iff : ∀ client, s.received client = .closed ↔ ∃ q, s.registry.queue? client = some q ∧
    q.receiving = true ∧ client ∉ s.registry.ids ∧ yielded client log = accepted client log ∧
    ∀ payload, (client, payload) ∉ s.sending

variable {s t : SharedRegistry} {a : RegistryAction} {as : List RegistryAction}
  {log : List RegistryEntry} {capacity : Nat} {client k : ClientId} {payload : String}

/-! ### One action -/

/-- **How a delivery ends.** -/
theorem delivery_after (s : SharedRegistry) (client : ClientId) (payload : String) :
    s.Delivery client payload (s.registry.offer client payload).1
      (s.after (.deliver client payload)) := by
  simp only [after, Registry.offer]
  cases hq : s.registry.queue? client with
  | none =>
    have hsame : s.registry.unregister client = s.registry :=
      Registry.update_self fun q h => by rw [hq] at h; cases h
    have hclosed : s.Delivery client payload (.error (.disconnected client)) _ :=
      .closed fun q h => by rw [hq] at h; cases h
    rw [hsame] at hclosed
    exact hclosed
  | some q =>
    by_cases hr : q.receiving = true
    · by_cases hfull : s.registry.capacity ≤ q.queued.length
      · simp only [hr, hfull, Bool.not_true, Bool.false_eq_true, if_false, if_true]
        exact .full hq hr hfull
      · simp only [hr, hfull, Bool.not_true, Bool.false_eq_true, if_false]
        exact .accepted hq hr (Nat.not_le.1 hfull)
    · have hr : q.receiving = false := by simpa using hr
      simp only [hr, Bool.not_false, if_true]
      refine .closed fun q' h => ?_
      rw [hq] at h
      cases h
      exact hr

/-- **What an action leaves of each queue.** -/
theorem queue?_after (a : RegistryAction) (k : ClientId) : (s.after a).registry.queue? k =
    match a with
    | .event e => (s.registry.after e).queue? k
    | .lookUp _ _ => s.registry.queue? k
    | .deliver c payload =>
      if k = c then (s.registry.queue? k).map (Outbound.delivered s.registry.capacity payload)
      else s.registry.queue? k := by
  cases a with
  | event e => rfl
  | lookUp c payload =>
    simp only [after]
    split <;> rfl
  | deliver c payload =>
    simp only [after, Registry.offer_snd]
    exact Registry.queue?_update _ c k

/-- How many numbers have been given out after an action. -/
theorem length_after (a : RegistryAction) : (s.after a).registry.queues.length =
    s.registry.queues.length + if a = .event .join then 1 else 0 := by
  cases a with
  | event e =>
    cases e with
    | join => simp [after, Registry.after, Registry.register]
    | receive => simp [after, Registry.after, Registry.receive_snd, Registry.length_update]
    | leave => simp [after, Registry.after, Registry.dropReceiver, Registry.length_update]
    | remove => simp [after, Registry.after, Registry.unregister, Registry.length_update]
    | removeAll => simp [after, Registry.after, Registry.disconnectAll]
  | lookUp =>
    simp only [after]
    split <;> simp
  | deliver => simp [after, Registry.offer_snd, Registry.length_update]

/-- A client joins exactly if it gets the next number. -/
theorem joined?_entry (a : RegistryAction) : RegistryEntry.joined? ⟨a, s.answer a⟩ =
    if a = .event .join then some (s.registry.queues.length + 1) else none := by
  cases a with
  | event e => cases e <;> rfl
  | lookUp =>
    simp only [answer]
    split <;> rfl
  | deliver => rfl

/-- Who is listed after a delivery. -/
theorem isListed_deliver (client : ClientId) (payload : String) (k : ClientId) :
    (s.after (.deliver client payload)).registry.isListed k =
      (s.registry.isListed k && (k != client || (s.registry.queue? k).any (·.receiving))) := by
  unfold Registry.isListed
  rw [queue?_after]
  by_cases hk : k = client
  · cases hq : s.registry.queue? k with
    | none => simp
    | some q => simp [hk, (Outbound.delivered_flags _ payload q).2]
  · simp [hk]

/-- A delivery takes its client off the list exactly if nobody receives for it. -/
theorem removes_deliver (client : ClientId) (payload : String) (k : ClientId) :
    RegistryEntry.removes k ⟨.deliver client payload, s.answer (.deliver client payload)⟩ =
      (client == k && !(s.registry.queue? client).any (·.receiving)) := by
  have hd := delivery_after s client payload
  simp only [answer]
  generalize (s.registry.offer client payload).1 = result at hd ⊢
  generalize s.after (.deliver client payload) = t at hd
  cases hd with
  | accepted hq hr => simp [RegistryEntry.removes, hq, hr]
  | full hq hr => simp [RegistryEntry.removes, hq, hr]
  | closed hr =>
    have hnone : (s.registry.queue? client).any (·.receiving) = false := by
      cases hq : s.registry.queue? client with
      | none => rfl
      | some q => exact hr q hq
    simp [RegistryEntry.removes, hnone]

/-- **Who is listed after an action**: who joins by it, and who was listed and is not removed. -/
theorem isListed_after (a : RegistryAction) (k : ClientId) :
    (s.after a).registry.isListed k = true ↔ s.answer a = .joined k ∨
      s.registry.isListed k = true ∧ RegistryEntry.removes k ⟨a, s.answer a⟩ = false := by
  cases a with
  | event e =>
    simp only [Registry.isListed, queue?_after, Registry.queue?_after]
    cases e with
    | join =>
      by_cases hk : k = s.registry.register.1
      · simp [hk, answer]
      · simp [hk, answer, RegistryEntry.removes, Ne.symm hk]
    | receive c =>
      by_cases hk : k = c
      · cases hq : s.registry.queue? k with
        | none => simp [answer]
        | some q => simp [hk, (Outbound.taken_flags q).2, answer, RegistryEntry.removes]
      · simp [hk, answer, RegistryEntry.removes]
    | leave c =>
      by_cases hk : k = c
      · cases hq : s.registry.queue? k <;>
          simp [hk, Outbound.dropped, answer, RegistryEntry.removes]
      · simp [hk, answer, RegistryEntry.removes]
    | remove c =>
      by_cases hk : k = c
      · cases hq : s.registry.queue? k <;>
          simp [hk, Outbound.unlisted, answer, RegistryEntry.removes]
      · simp [hk, answer, RegistryEntry.removes, Ne.symm hk]
    | removeAll =>
      cases hq : s.registry.queue? k <;> simp [Outbound.unlisted, answer, RegistryEntry.removes]
  | lookUp c payload =>
    simp only [after, answer]
    split <;> simp [RegistryEntry.removes]
  | deliver c payload =>
    rw [isListed_deliver, removes_deliver]
    by_cases hk : k = c
    · simp [hk, answer]
    · simp [hk, Ne.symm hk, answer]

/-! ### What a client gets -/

/-- **What one client's queue has accepted, and what of it was received**: what was received comes
first, and the rest waits as long as somebody receives. -/
structure Balanced (q : Option Outbound) (yielded accepted : List String) : Prop where
  nil_of_none : q = none → accepted = []
  isPrefix : yielded <+: accepted
  waiting : ∀ q', q = some q' → q'.receiving = true → yielded ++ q'.queued = accepted

namespace Balanced

variable {q : Option Outbound} {got kept : List String}

theorem joins (h : Balanced none got kept) : Balanced (some ⟨true, true, []⟩) got kept := by
  have hnil : kept = [] := h.nil_of_none rfl
  have hgot : got = [] := List.prefix_nil.1 (hnil ▸ h.isPrefix)
  refine ⟨nofun, h.isPrefix, fun q' hq' _ => ?_⟩
  cases hq'
  rw [hgot, hnil, List.append_nil]

theorem unlisted (h : Balanced q got kept) : Balanced (q.map Outbound.unlisted) got kept := by
  refine ⟨fun hn => h.nil_of_none (Option.map_eq_none_iff.1 hn), h.isPrefix, fun q' hq' hr => ?_⟩
  obtain ⟨q₀, hq₀, rfl⟩ := Option.map_eq_some_iff.1 hq'
  exact h.waiting q₀ hq₀ hr

theorem dropped (h : Balanced q got kept) : Balanced (q.map Outbound.dropped) got kept := by
  refine ⟨fun hn => h.nil_of_none (Option.map_eq_none_iff.1 hn), h.isPrefix, fun q' hq' hr => ?_⟩
  obtain ⟨q₀, hq₀, rfl⟩ := Option.map_eq_some_iff.1 hq'
  cases hr

theorem taken (h : Balanced q got kept) :
    Balanced (q.map Outbound.taken) (got ++ (q.bind Outbound.ready?).toList) kept := by
  cases q with
  | none => exact ⟨fun _ => h.nil_of_none rfl, by simpa using h.isPrefix, nofun⟩
  | some q₀ =>
    obtain ⟨listed, receiving, queued⟩ := q₀
    cases receiving with
    | false =>
      refine ⟨nofun, by simpa [Outbound.ready?] using h.isPrefix, fun q' hq' hr => ?_⟩
      cases hq'
      cases hr
    | true =>
      have hwait : got ++ queued = kept := h.waiting _ rfl rfl
      cases queued with
      | nil =>
        refine ⟨nofun, by simpa [Outbound.ready?] using h.isPrefix, fun q' hq' _ => ?_⟩
        cases hq'
        simpa [Outbound.ready?, Outbound.taken] using hwait
      | cons payload rest =>
        -- the oldest frame goes from the queue to what was received
        have hwait' : (got ++ [payload]) ++ rest = kept := by simpa using hwait
        refine ⟨nofun, ⟨rest, by simpa [Outbound.ready?] using hwait'⟩, fun q' hq' _ => ?_⟩
        cases hq'
        simpa [Outbound.ready?, Outbound.taken] using hwait'

theorem delivered {capacity : Nat} {payload : String} (h : Balanced q got kept) :
    Balanced (q.map (Outbound.delivered capacity payload)) got
      (kept ++ if q.any fun q => q.receiving && !q.isFull capacity then [payload] else []) := by
  cases q with
  | none => exact ⟨fun _ => by simpa using h.nil_of_none rfl, by simpa using h.isPrefix, nofun⟩
  | some q₀ =>
    refine ⟨nofun, h.isPrefix.trans (List.prefix_append _ _), fun q' hq' hr => ?_⟩
    cases hq'
    have hr : q₀.receiving = true := by
      rw [← (Outbound.delivered_flags capacity payload q₀).1]
      exact hr
    have hwait : got ++ q₀.queued = kept := h.waiting q₀ rfl hr
    by_cases hfull : capacity ≤ q₀.queued.length
    · simp [Outbound.delivered, Outbound.isFull, hr, hfull, hwait]
    · simp [Outbound.delivered, Outbound.isFull, hr, hfull, ← hwait]

end Balanced

/-- What a receiving end gives, by its queue. -/
theorem received_eq (s : SharedRegistry) (client : ClientId) : s.received client =
    match s.registry.queue? client with
    | none => .noReceiver
    | some q =>
      if q.receiving = false then .noReceiver
      else
        match q.queued with
        | payload :: _ => .frame payload
        | [] => if q.listed || s.sending.any (·.1 == client) then .empty else .closed := by
  unfold received Registry.receive
  cases s.registry.queue? client with
  | none => rfl
  | some q =>
    obtain ⟨listed, receiving, queued⟩ := q
    cases receiving with
    | false => rfl
    | true =>
      cases queued with
      | cons payload rest => rfl
      | nil => cases listed <;> rfl

/-- What a client receives is what its queue gives first. -/
theorem yielded?_receive (client : ClientId) : RegistryEntry.yielded? client
    ⟨.event (.receive client), s.answer (.event (.receive client))⟩ =
      (s.registry.queue? client).bind Outbound.ready? := by
  simp only [answer]
  rw [received_eq]
  cases s.registry.queue? client with
  | none => rfl
  | some q =>
    obtain ⟨listed, receiving, queued⟩ := q
    cases receiving with
    | false => rfl
    | true =>
      cases queued with
      | cons payload rest => simp [RegistryEntry.yielded?, Outbound.ready?]
      | nil => cases hl : listed || s.sending.any (·.1 == client) <;>
          simp [RegistryEntry.yielded?, Outbound.ready?, hl]

/-- A queue accepts a frame exactly if somebody receives and there is room. -/
theorem accepted?_deliver (client : ClientId) (payload : String) : RegistryEntry.accepted? client
    ⟨.deliver client payload, s.answer (.deliver client payload)⟩ =
      if (s.registry.queue? client).any fun q => q.receiving && !q.isFull s.registry.capacity
      then some payload else none := by
  have hd := delivery_after s client payload
  simp only [answer]
  generalize (s.registry.offer client payload).1 = result at hd ⊢
  generalize s.after (.deliver client payload) = t at hd
  cases hd with
  | accepted hq hr hroom => simp [RegistryEntry.accepted?, hq, hr, Outbound.isFull, hroom]
  | full hq hr hfull => simp [RegistryEntry.accepted?, hq, hr, Outbound.isFull, hfull]
  | closed hr =>
    cases hq : s.registry.queue? client with
    | none => rfl
    | some q => simp [RegistryEntry.accepted?, hr q hq]

/-- A client receives nothing when another one does. -/
theorem yielded?_other {client : ClientId} (h : k ≠ client) (answer : RegistryAnswer) :
    RegistryEntry.yielded? k ⟨.event (.receive client), answer⟩ = none := by
  have h' : ¬ client = k := Ne.symm h
  cases answer with
  | received what => cases what <;> simp [RegistryEntry.yielded?, h']
  | joined | found | sent | done => rfl

/-- A queue accepts nothing when something is delivered to another one. -/
theorem accepted?_other {client : ClientId} (h : k ≠ client) (answer : RegistryAnswer) :
    RegistryEntry.accepted? k ⟨.deliver client payload, answer⟩ = none := by
  have h' : ¬ client = k := Ne.symm h
  cases answer with
  | sent result => cases result <;> simp [RegistryEntry.accepted?, h']
  | joined | received | found | done => rfl

/-! ### Every action -/

/-- **What every action keeps** of a registry and the log of what was done to it. -/
structure Kept (s : SharedRegistry) (log : List RegistryEntry) : Prop where
  joined_eq : joined log = List.range' 1 s.registry.queues.length
  isListed_iff : ∀ client, s.registry.isListed client = true ↔ ListedBy log client
  balanced : ∀ client, Balanced (s.registry.queue? client) (yielded client log)
    (accepted client log)

/-- What a log gives with one entry more. -/
theorem filterMap_concat {α β : Type} (f : α → Option β) (l : List α) (x : α) :
    (l ++ [x]).filterMap f = l.filterMap f ++ (f x).toList := by
  rw [List.filterMap_append]
  rfl

/-- Who is listed by a log with one entry more. -/
theorem listedBy_concat {e : RegistryEntry}
    (he : ∀ c, e.answer = .joined c → e.action = .event .join) :
    ListedBy (log ++ [e]) k ↔
      e.answer = .joined k ∨ ListedBy log k ∧ e.removes k = false := by
  constructor
  · rintro ⟨before, after, heq, hafter⟩
    rcases List.eq_nil_or_concat after with rfl | ⟨init, last, rfl⟩
    · obtain ⟨-, hlast⟩ := List.append_inj' heq rfl
      obtain rfl := List.singleton_inj.1 hlast
      exact .inl rfl
    · rw [List.concat_eq_append, ← List.cons_append, ← List.append_assoc] at heq
      obtain ⟨hlog, hlast⟩ := List.append_inj' heq rfl
      obtain rfl := List.singleton_inj.1 hlast
      refine .inr ⟨⟨before, init, hlog, fun x hx => hafter x ?_⟩, hafter e ?_⟩
      · simp [hx]
      · simp
  · rintro (hjoin | ⟨⟨before, after, rfl, hafter⟩, hlast⟩)
    · obtain ⟨action, answer⟩ := e
      obtain rfl : answer = .joined k := hjoin
      obtain rfl : action = .event .join := he k rfl
      exact ⟨log, [], rfl, fun x hx => by cases hx⟩
    · refine ⟨before, after ++ [e], by simp, fun x hx => ?_⟩
      rcases List.mem_append.1 hx with hx | hx
      · exact hafter x hx
      · rw [List.mem_singleton.1 hx]
        exact hlast

/-- Only joining is answered with a number. -/
theorem answer_joined (h : s.answer a = .joined k) : a = .event .join := by
  cases a with
  | event e =>
    cases e with
    | join => rfl
    | receive | leave | remove | removeAll => cases h
  | lookUp =>
    simp only [answer] at h
    split at h <;> cases h
  | deliver => cases h

/-- An action keeps what each client gets in balance. -/
theorem Kept.balanced_after (h : s.Kept log) (a : RegistryAction) (k : ClientId) :
    Balanced ((s.after a).registry.queue? k) (yielded k (log ++ [⟨a, s.answer a⟩]))
      (accepted k (log ++ [⟨a, s.answer a⟩])) := by
  have hk := h.balanced k
  simp only [yielded, accepted, filterMap_concat] at hk ⊢
  rw [queue?_after]
  cases a with
  | event e =>
    simp only [Registry.queue?_after]
    cases e with
    | join =>
      by_cases hn : k = s.registry.register.1
      · rw [hn, Registry.queue?_register_fst, ← hn] at hk
        simpa [hn, RegistryEntry.yielded?, RegistryEntry.accepted?, answer] using hk.joins
      · simpa [hn, RegistryEntry.yielded?, RegistryEntry.accepted?, answer] using hk
    | receive c =>
      by_cases hc : k = c
      · subst hc
        rw [yielded?_receive]
        simpa [RegistryEntry.accepted?] using hk.taken
      · rw [yielded?_other hc]
        simpa [hc, RegistryEntry.accepted?] using hk
    | leave c =>
      by_cases hc : k = c
      · simpa [hc, RegistryEntry.yielded?, RegistryEntry.accepted?] using hk.dropped
      · simpa [hc, RegistryEntry.yielded?, RegistryEntry.accepted?] using hk
    | remove c =>
      by_cases hc : k = c
      · simpa [hc, RegistryEntry.yielded?, RegistryEntry.accepted?] using hk.unlisted
      · simpa [hc, RegistryEntry.yielded?, RegistryEntry.accepted?] using hk
    | removeAll => simpa [RegistryEntry.yielded?, RegistryEntry.accepted?] using hk.unlisted
  | lookUp => simpa [RegistryEntry.yielded?, RegistryEntry.accepted?] using hk
  | deliver c payload =>
    by_cases hc : k = c
    · subst hc
      rw [accepted?_deliver]
      have hd := @Balanced.delivered _ _ _ s.registry.capacity payload hk
      have hlist : ∀ b : Bool, (if b = true then some payload else none).toList =
          if b = true then [payload] else [] := fun b => by cases b <;> rfl
      rw [hlist]
      simpa [RegistryEntry.yielded?] using hd
    · rw [accepted?_other hc]
      simpa [hc, RegistryEntry.yielded?] using hk

/-- **Every action keeps it.** -/
theorem Kept.after (h : s.Kept log) (a : RegistryAction) :
    (s.after a).Kept (log ++ [⟨a, s.answer a⟩]) where
  joined_eq := by
    rw [joined, filterMap_concat, ← joined, h.joined_eq, joined?_entry, length_after]
    split
    · rw [List.range'_concat, Nat.one_mul, Nat.add_comm 1]
      rfl
    · exact List.append_nil _
  isListed_iff k := by
    rw [isListed_after, listedBy_concat fun c hc => answer_joined hc, h.isListed_iff]
  balanced k := h.balanced_after a k

theorem kept_fresh (capacity : Nat) : (fresh capacity).Kept [] := by
  have hnone : ∀ client, (fresh capacity).registry.queue? client = none := fun client => by
    cases client <;> rfl
  refine ⟨rfl, fun client => ?_, fun client => ?_⟩
  · rw [Registry.isListed, hnone]
    refine ⟨nofun, ?_⟩
    rintro ⟨before, after, heq, -⟩
    cases before <;> cases heq
  · rw [hnone]
    exact ⟨fun _ => rfl, List.prefix_rfl, nofun⟩

/-! ### Runs -/

theorem run_cons_eq_some_iff {log : List RegistryEntry} :
    s.run (a :: as) = some (log, t) ↔ s.allows a = true ∧
      ∃ rest, (s.after a).run as = some (rest, t) ∧ log = ⟨a, s.answer a⟩ :: rest := by
  rw [run]
  split
  case isTrue ha =>
    rw [Option.map_eq_some_iff]
    constructor
    · rintro ⟨⟨rest, t'⟩, hrun, heq⟩
      cases heq
      exact ⟨ha, rest, hrun, rfl⟩
    · rintro ⟨-, rest, hrun, rfl⟩
      exact ⟨(rest, t), hrun, rfl⟩
  case isFalse ha => simp [ha]

theorem Kept.run {more : List RegistryEntry} (h : s.Kept log) (hr : s.run as = some (more, t)) :
    t.Kept (log ++ more) := by
  induction as generalizing s log more with
  | nil =>
    cases hr
    rw [List.append_nil]
    exact h
  | cons a rest ih =>
    obtain ⟨-, more', hrest, rfl⟩ := run_cons_eq_some_iff.1 hr
    have hall := ih (h.after a) hrest
    rwa [List.append_assoc] at hall

theorem length_run (h : s.run as = some (log, t)) : t.registry.queues.length =
    s.registry.queues.length + as.count (.event .join) := by
  induction as generalizing s log with
  | nil =>
    cases h
    rfl
  | cons a rest ih =>
    obtain ⟨-, more, hrest, -⟩ := run_cons_eq_some_iff.1 h
    rw [ih hrest, length_after, List.count_cons]
    simp only [beq_iff_eq]
    omega

/-- Who has a number and is not listed is never listed again. -/
theorem not_listed_run (hk : k ≤ s.registry.queues.length) (hl : ¬ s.registry.isListed k = true)
    (h : s.run as = some (log, t)) : ¬ t.registry.isListed k = true := by
  induction as generalizing s log with
  | nil =>
    cases h
    exact hl
  | cons a rest ih =>
    obtain ⟨-, more, hrest, -⟩ := run_cons_eq_some_iff.1 h
    refine ih ?_ ?_ hrest
    · rw [length_after]
      exact Nat.le_add_right_of_le hk
    · rw [isListed_after]
      rintro (hjoin | ⟨hlisted, -⟩)
      · -- a number that is given out now is greater than all before
        have hnew := joined?_entry (s := s) a
        rw [hjoin, if_pos (answer_joined hjoin)] at hnew
        have hnew : k = s.registry.queues.length + 1 := Option.some.inj hnew
        rw [hnew] at hk
        exact Nat.not_succ_le_self _ hk
      · exact hl hlisted

/-! ### Numbers as words -/

theorem map_word_range' (first n : Nat) : (List.range' first n).map ClientId.word =
    List.iterate (· + 1) (ClientId.word first) n := by
  induction n generalizing first with
  | zero => rfl
  | succ n ih =>
    have hnext : ClientId.word (first + 1) = ClientId.word first + 1 := UInt64.ofNat_add first 1
    rw [List.range'_succ, List.map_cons, ih, hnext]
    rfl

theorem word_lt {m n : Nat} (hn : n < 2 ^ 64) (h : m < n) :
    ClientId.word m < ClientId.word n := by
  have hm : (ClientId.word m).toNat = m := UInt64.toNat_ofNat_of_lt' (Nat.lt_trans h hn)
  have hn : (ClientId.word n).toNat = n := UInt64.toNat_ofNat_of_lt' hn
  rw [UInt64.lt_iff_toNat_lt, hm, hn]
  exact h

/-- Numbers in increasing order are words in increasing order, below the greatest word. -/
theorem words_increasing {l : List Nat} (hl : l.Pairwise (· < ·)) (hn : ∀ n ∈ l, n < 2 ^ 64) :
    (l.map ClientId.word).Pairwise (· < ·) := by
  refine List.pairwise_map.2 (hl.imp_of_mem fun _ hb hab => ?_)
  exact word_lt (hn _ hb) hab

/-! ### What is left -/

namespace Kept

theorem mem_joined (h : s.Kept log) : k ∈ joined log ↔ 0 < k ∧ k ≤ s.registry.queues.length := by
  rw [h.joined_eq, List.mem_range'_1, Nat.add_comm 1, Nat.lt_succ_iff]
  exact Iff.rfl

/-- Everybody who joined has a queue. -/
theorem mem_joined_iff (h : s.Kept log) (client : ClientId) :
    client ∈ joined log ↔ ∃ q, s.registry.queue? client = some q := by
  rw [h.mem_joined, ← Option.isSome_iff_exists]
  cases client with
  | zero => simp
  | succ i =>
    rw [Registry.queue?_succ, isSome_getElem?]
    exact and_iff_right (Nat.succ_pos i)

theorem mem_ids_iff (h : s.Kept log) : k ∈ s.registry.ids ↔ ListedBy log k := by
  rw [Registry.mem_ids, h.isListed_iff]

/-- A queue has ended when it is drained, its client is not listed and no send holds on to it. -/
theorem closed_iff (h : s.Kept log) (client : ClientId) : s.received client = .closed ↔
    ∃ q, s.registry.queue? client = some q ∧ q.receiving = true ∧ client ∉ s.registry.ids ∧
      yielded client log = accepted client log ∧ ∀ payload, (client, payload) ∉ s.sending := by
  have hb := h.balanced client
  have hheld : s.sending.any (·.1 == client) = false ↔
      ∀ payload, (client, payload) ∉ s.sending := by
    rw [List.any_eq_false]
    refine ⟨fun hall payload hp => hall _ hp (beq_self_eq_true client), fun hall p hp hc => ?_⟩
    obtain ⟨k, payload⟩ := p
    obtain rfl : k = client := beq_iff_eq.1 hc
    exact hall payload hp
  rw [received_eq, Registry.mem_ids, Registry.isListed]
  cases hq : s.registry.queue? client with
  | none => simp
  | some q =>
    obtain ⟨listed, receiving, queued⟩ := q
    cases receiving with
    | false => simp
    | true =>
      have hwait : yielded client log ++ queued = accepted client log := hb.waiting _ hq rfl
      simp only [Option.some.injEq, exists_eq_left', Option.any_some, ← hheld, ← hwait]
      cases queued with
      | cons payload rest => simp
      | nil => cases listed <;> cases s.sending.any (·.1 == client) <;> simp

end Kept

/-- Sending is the look-up and the delivery, one right after the other. -/
theorem send_eq (h : s.registry.isListed client = true) (payload : String) :
    (s.after (.lookUp client payload)).answer (.deliver client payload) =
        .sent (s.registry.send client payload).1 ∧
      ((s.after (.lookUp client payload)).after (.deliver client payload)).registry =
        (s.registry.send client payload).2 := by
  simp only [after, answer, h, if_true, Registry.send]
  exact ⟨trivial, trivial⟩

/-- **What is done to a shared registry.** Fewer than `2 ^ 64 - 1` clients join. Then, in whatever
order they join, receive, leave and are removed and sends look up and deliver, the log of what was
done tells what is left. -/
theorem leftBy_run (h : (fresh capacity).run as = some (log, s))
    (hn : as.count (.event .join) < 2 ^ 64 - 1) : s.LeftBy log := by
  have hk : s.Kept log := (kept_fresh capacity).run h
  have hlen : s.registry.queues.length < 2 ^ 64 - 1 := by
    rw [length_run h]
    exact (Nat.zero_add _).symm ▸ hn
  have hsub : s.registry.ids.Sublist (joined log) := hk.joined_eq ▸ List.filter_sublist
  have hsorted : (joined log).Pairwise (· < ·) := by
    rw [hk.joined_eq]
    exact List.pairwise_lt_range'
  have hbound : ∀ n ∈ joined log, n < 2 ^ 64 := fun n hm =>
    Nat.lt_of_le_of_lt (hk.mem_joined.1 hm).2 (Nat.lt_trans hlen (by decide))
  exact {
    counter := by
      rw [hk.joined_eq, map_word_range', List.length_range']
      rfl
    numbers_nodup := (words_increasing hsorted hbound).imp UInt64.ne_of_lt
    ids_sublist := hsub
    ids_increasing := words_increasing (hsorted.sublist hsub) fun n hm => hbound n (hsub.subset hm)
    mem_ids_iff := fun client => hk.mem_ids_iff
    never_again := fun client hj hni as' log' t hrun => by
      rw [Registry.mem_ids] at hni ⊢
      exact not_listed_run (hk.mem_joined.1 hj).2 hni hrun
    not_found := fun client payload hni => by
      rw [Registry.mem_ids] at hni
      simp [answer, SharedRegistry.after, hni]
    delivery := fun client payload => by
      refine ⟨_, rfl, delivery_after s client payload, fun k hkc => ?_⟩
      have hsame := queue?_after (s := s) (.deliver client payload) k
      simp only [if_neg hkc] at hsame
      refine ⟨hsame, ?_⟩
      rw [Registry.mem_ids, Registry.mem_ids, Registry.isListed, hsame, Registry.isListed]
    undivided := fun client payload hl => send_eq (Registry.mem_ids.1 hl) payload
    mem_joined_iff := hk.mem_joined_iff
    yielded_prefix := fun client => (hk.balanced client).isPrefix
    waiting := fun client => (hk.balanced client).waiting
    closed_iff := hk.closed_iff }

/-- A frame is still accepted and received when its client is removed between the look-up and the
delivery; only then has the queue ended. The other client gives up its queue in between, and the
delivery removes it. -/
theorem leftBy_run_race : ∃ log s,
    (fresh 1).run [.event .join, .event .join, .lookUp 1 "a", .event (.remove 1), .deliver 1 "a",
      .event (.receive 1), .lookUp 2 "b", .event (.leave 2), .deliver 2 "b"] = some (log, s) ∧
      s.LeftBy log ∧ yielded 1 log = ["a"] ∧ s.received 1 = .closed ∧
      log.getLast? = some ⟨.deliver 2 "b", .sent (.error (.disconnected 2))⟩ ∧
      s.registry.ids = [] := by
  have hrun : (fresh 1).run [.event .join, .event .join, .lookUp 1 "a", .event (.remove 1),
      .deliver 1 "a", .event (.receive 1), .lookUp 2 "b", .event (.leave 2), .deliver 2 "b"] =
      some (_, _) := rfl
  exact ⟨_, _, hrun, leftBy_run hrun (by decide), rfl, rfl, rfl, rfl⟩

end SharedRegistry

end TelemetryRelay
