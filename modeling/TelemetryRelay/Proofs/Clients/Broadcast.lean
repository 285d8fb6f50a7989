import Mathlib.Data.List.Nodup
import TelemetryRelay.Clients.Registry

/-!
# One frame and every queue

Sending changes the queue of the client it is for and no other, so a frame that is sent to every
listed client can be followed queue by queue.

* `queue?_update`, `queue?_register`, `queue?_disconnectAll`: what the operations of the registry
  leave of each queue.
* `send_snd`: a send changes its client's queue by `Outbound.offered`.
* `queue?_broadcast`, `broadcast_eq`: **a frame changes every queue by `Outbound.offered`, once.**
-/

namespace TelemetryRelay

/-- **What one frame makes of a queue.** A queue that is not listed stays as it is, a listed one
without a receiver is taken off the list, and a full one misses the frame. -/
def Outbound.offered (capacity : Nat) (payload : String) (q : Outbound) : Outbound :=
  if !q.listed then q
  else if !q.receiving then { q with listed := false }
  else if capacity ≤ q.queued.length then q
  else { q with queued := q.queued ++ [payload] }

/-- What the session makes of its queue when it takes a frame. -/
def Outbound.taken (q : Outbound) : Outbound :=
  if q.receiving then { q with queued := q.queued.tail } else q

/-- What is left of a queue whose receiver is given up. -/
def Outbound.dropped (q : Outbound) : Outbound := { q with receiving := false, queued := [] }

/-- What is left of a queue that is taken off the list. -/
def Outbound.unlisted (q : Outbound) : Outbound := { q with listed := false }

namespace Outbound

variable {capacity : Nat} {payload : String} {q : Outbound}

theorem offered_of_not_listed (h : q.listed = false) : q.offered capacity payload = q := by
  simp [offered, h]

theorem offered_of_not_receiving (h : q.receiving = false) :
    q.offered capacity payload = q.unlisted := by
  cases q
  simp only at h
  subst h
  simp only [offered, unlisted]
  split <;> simp_all

theorem offered_of_full (hl : q.listed = true) (hr : q.receiving = true)
    (hf : capacity ≤ q.queued.length) : q.offered capacity payload = q := by
  simp [offered, hl, hr, hf]

theorem offered_of_room (hl : q.listed = true) (hr : q.receiving = true)
    (hf : q.queued.length < capacity) :
    q.offered capacity payload = { q with queued := q.queued ++ [payload] } := by
  simp [offered, hl, hr, Nat.not_le.2 hf]

end Outbound

namespace Registry

variable {r : Registry} {payload : String}

/-! ### Queues -/

@[simp] theorem queue?_zero : r.queue? 0 = none := rfl

@[simp] theorem queue?_succ (i : Nat) : r.queue? (i + 1) = r.queues[i]? := rfl

theorem queue?_update (f : Outbound → Outbound) (n k : ClientId) :
    (r.update n f).queue? k = if k = n then (r.queue? k).map f else r.queue? k := by
  cases k with
  | zero => simp
  | succ k =>
    cases n with
    | zero => simp [update]
    | succ n =>
      rw [queue?_succ, update, if_neg (Nat.succ_ne_zero n)]
      by_cases h : k = n
      · subst h; simp
      · have hne : ¬ k + 1 = n + 1 := fun he => h (Nat.succ.inj he)
        rw [if_neg hne]
        simp [Ne.symm h]

theorem capacity_update (f : Outbound → Outbound) (n : ClientId) :
    (r.update n f).capacity = r.capacity := by
  unfold update
  split <;> rfl

theorem length_update (f : Outbound → Outbound) (n : ClientId) :
    (r.update n f).queues.length = r.queues.length := by
  unfold update
  split
  · rfl
  · exact List.length_modify _ _ _

/-- Registries of one capacity are told apart by their queues. -/
theorem ext_queue? {r' : Registry} (hc : r.capacity = r'.capacity)
    (h : ∀ n, r.queue? n = r'.queue? n) : r = r' := by
  obtain ⟨c, qs⟩ := r
  obtain ⟨c', qs'⟩ := r'
  obtain rfl : c = c' := hc
  suffices qs = qs' by rw [this]
  refine List.ext_getElem? fun i => ?_
  have := h (i + 1)
  simpa [queue?] using this

/-- Changes that agree on the queue of the client are the same change. -/
theorem update_congr {n : ClientId} {f f' : Outbound → Outbound}
    (h : ∀ q, r.queue? n = some q → f q = f' q) : r.update n f = r.update n f' := by
  refine ext_queue? (by rw [capacity_update, capacity_update]) fun k => ?_
  rw [queue?_update, queue?_update]
  by_cases hk : k = n
  · rw [if_pos hk, if_pos hk, hk]
    cases hq : r.queue? n with
    | none => rfl
    | some q => rw [Option.map_some, Option.map_some, h q hq]
  · rw [if_neg hk, if_neg hk]

/-- Two changes of one queue are one change. -/
theorem update_update {n : ClientId} (f f' : Outbound → Outbound) :
    (r.update n f).update n f' = r.update n (f' ∘ f) := by
  refine ext_queue? (by simp only [capacity_update]) fun k => ?_
  simp only [queue?_update]
  split
  · rw [Option.map_map]
  · rfl

/-- A change that leaves the queue of the client as it is changes nothing. -/
theorem update_self {n : ClientId} {f : Outbound → Outbound}
    (h : ∀ q, r.queue? n = some q → f q = q) : r.update n f = r := by
  rw [@update_congr r n f id h]
  refine ext_queue? (capacity_update _ _) fun k => ?_
  rw [queue?_update, Option.map_id, id_eq, ite_self]

theorem queue?_register (n : ClientId) : r.register.2.queue? n =
    if n = r.register.1 then some ⟨true, true, []⟩ else r.queue? n := by
  by_cases h : n = r.register.1
  · rw [if_pos h, h]
    simp [register]
  rw [if_neg h]
  cases n with
  | zero => rfl
  | succ i =>
    have hne : i ≠ r.queues.length := fun he => h (by rw [he]; rfl)
    rw [queue?_succ, queue?_succ, register, List.getElem?_append]
    split
    · rfl
    · rw [List.getElem?_eq_none (by rw [List.length_singleton]; omega),
        List.getElem?_eq_none (by omega)]

theorem queue?_disconnectAll (n : ClientId) :
    r.disconnectAll.queue? n = (r.queue? n).map Outbound.unlisted := by
  cases n with
  | zero => rfl
  | succ i => rw [queue?_succ, queue?_succ, disconnectAll, List.getElem?_map]; rfl

theorem isListed_iff {n : ClientId} :
    r.isListed n = true ↔ ∃ q, r.queue? n = some q ∧ q.listed = true := by
  unfold isListed
  cases r.queue? n <;> simp

/-- A number that no client has. -/
theorem queue?_register_fst : r.queue? r.register.1 = none := by
  simp [register, queue?]

theorem register_fst_ne {n : ClientId} {q : Outbound} (h : r.queue? n = some q) :
    n ≠ r.register.1 := by
  rintro rfl
  rw [queue?_register_fst] at h; cases h

theorem receive_snd (n : ClientId) : (r.receive n).2 = r.update n Outbound.taken := by
  unfold receive
  cases hq : r.queue? n with
  | none => exact (update_self fun q h => by rw [hq] at h; cases h).symm
  | some q =>
    obtain ⟨listed, receiving, queued⟩ := q
    cases receiving with
    | false =>
      show r = r.update n Outbound.taken
      exact (update_self fun q h => by rw [hq] at h; cases h; rfl).symm
    | true =>
      cases queued with
      | nil =>
        show r = r.update n Outbound.taken
        exact (update_self fun q h => by rw [hq] at h; cases h; rfl).symm
      | cons payload rest => exact update_congr fun q h => by rw [hq] at h; cases h; rfl

/-- **What an event leaves of each queue.** -/
theorem queue?_after (e : ClientEvent) (n : ClientId) : (r.after e).queue? n =
    match e with
    | .join => if n = r.register.1 then some ⟨true, true, []⟩ else r.queue? n
    | .receive k => if n = k then (r.queue? n).map Outbound.taken else r.queue? n
    | .leave k => if n = k then (r.queue? n).map Outbound.dropped else r.queue? n
    | .remove k => if n = k then (r.queue? n).map Outbound.unlisted else r.queue? n
    | .removeAll => (r.queue? n).map Outbound.unlisted := by
  cases e with
  | join => exact queue?_register n
  | receive k => rw [after, receive_snd]; exact queue?_update _ k n
  | leave k => exact queue?_update _ k n
  | remove k => exact queue?_update _ k n
  | removeAll => exact queue?_disconnectAll n

theorem capacity_after (e : ClientEvent) : (r.after e).capacity = r.capacity := by
  cases e with
  | join => rfl
  | receive k => rw [after, receive_snd]; exact capacity_update _ _
  | leave k => exact capacity_update _ _
  | remove k => exact capacity_update _ _
  | removeAll => rfl

/-! ### Sending -/

/-- **A send changes the queue of its client alone.** -/
theorem send_snd (n : ClientId) :
    (r.send n payload).2 = r.update n (Outbound.offered r.capacity payload) := by
  unfold send
  -- the cases of `offer`, each against the same case of `Outbound.offered`
  by_cases hl : r.isListed n = true
  · obtain ⟨q, hq, hlq⟩ := isListed_iff.1 hl
    rw [if_pos hl, offer, hq]
    by_cases hr : q.receiving = true
    · by_cases hf : r.capacity ≤ q.queued.length
      · simp only [hr, hf, if_true, Bool.not_true, Bool.false_eq_true, if_false]
        refine (update_self fun q' h => ?_).symm
        rw [hq] at h; cases h
        exact Outbound.offered_of_full hlq hr hf
      · simp only [hr, hf, Bool.not_true, Bool.false_eq_true, if_false]
        refine update_congr fun q' h => ?_
        rw [hq] at h; cases h
        exact (Outbound.offered_of_room hlq hr (Nat.not_le.1 hf)).symm
    · have hr' : q.receiving = false := by simpa using hr
      simp only [hr', Bool.not_false, if_true, unregister]
      refine update_congr fun q' h => ?_
      rw [hq] at h; cases h
      exact (Outbound.offered_of_not_receiving hr').symm
  · rw [if_neg hl]
    refine (update_self fun q h => Outbound.offered_of_not_listed ?_).symm
    by_contra hlq
    exact hl (isListed_iff.2 ⟨q, h, by simpa using hlq⟩)

theorem capacity_send (n : ClientId) : (r.send n payload).2.capacity = r.capacity := by
  rw [send_snd, capacity_update]

theorem capacity_sendEach : ∀ {r : Registry} (ns : List ClientId),
    (r.sendEach payload ns).capacity = r.capacity := by
  intro r ns
  induction ns generalizing r with
  | nil => rfl
  | cons n rest ih => rw [sendEach, ih, capacity_send]

/-- Sending to some clients, none of them twice, changes the queues of these clients once. -/
theorem queue?_sendEach {k : ClientId} : ∀ {ns : List ClientId} {r : Registry}, ns.Nodup →
    (r.sendEach payload ns).queue? k =
      if k ∈ ns then (r.queue? k).map (Outbound.offered r.capacity payload) else r.queue? k := by
  intro ns
  induction ns with
  | nil => intro r _; simp [sendEach]
  | cons n rest ih =>
    intro r hn
    obtain ⟨hnr, hrest⟩ := List.nodup_cons.1 hn
    rw [sendEach, ih hrest, capacity_send, send_snd, queue?_update]
    by_cases hk : k = n
    · subst hk
      rw [if_neg hnr, if_pos rfl, if_pos List.mem_cons_self]
    · rw [if_neg hk]
      simp [hk]

theorem ids_nodup : r.ids.Nodup := (List.nodup_range' 1).filter _

theorem mem_ids {n : ClientId} : n ∈ r.ids ↔ r.isListed n = true := by
  unfold ids
  rw [List.mem_filter]
  refine ⟨And.right, fun h => ⟨?_, h⟩⟩
  obtain ⟨q, hq, -⟩ := isListed_iff.1 h
  cases n with
  | zero => cases hq
  | succ i =>
    have := (List.getElem?_eq_some_iff.1 hq).1
    rw [List.mem_range'_1]; omega

theorem capacity_broadcast : (r.broadcast payload).capacity = r.capacity := capacity_sendEach _

/-- **A frame for every listed client is offered to each queue once.** -/
theorem queue?_broadcast (k : ClientId) : (r.broadcast payload).queue? k =
    (r.queue? k).map (Outbound.offered r.capacity payload) := by
  rw [broadcast, queue?_sendEach ids_nodup]
  split
  · rfl
  case isFalse h =>
    cases hq : r.queue? k with
    | none => rfl
    | some q =>
      have : q.listed = false := by
        by_contra hl
        exact h (mem_ids.2 (isListed_iff.2 ⟨q, hq, by simpa using hl⟩))
      rw [Option.map_some, Outbound.offered_of_not_listed this]

/-- The same, for the registry as a whole. -/
theorem broadcast_eq : r.broadcast payload =
    { r with queues := r.queues.map (Outbound.offered r.capacity payload) } := by
  refine ext_queue? capacity_broadcast fun n => ?_
  rw [queue?_broadcast]
  cases n with
  | zero => rfl
  | succ i => rw [queue?_succ, queue?_succ, List.getElem?_map]

end Registry

end TelemetryRelay
