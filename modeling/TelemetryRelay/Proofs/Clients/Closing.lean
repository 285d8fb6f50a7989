import TelemetryRelay.Clients.Listener
import TelemetryRelay.Proofs.Clients.Broadcast

/-!
# What the closing of a listener leaves

The closing removes every client that is listed at one moment. A session that begins later lists
its client again, and nobody removes it.

* `queue?_after`: what an action leaves of each queue, and from it `isListed_after` and
  `isRunning_after`.
* `Emptied.after`, `Emptied.run`: from the moment of the removal on, exactly the later sessions that
  still run are listed.
* `sessions_left`: **the registry lists the sessions that began after it was emptied**, and these
  wait on, while the queues of the earlier ones have ended.
* `late_session_stays`: so a closed listener can have a client left.
-/

namespace TelemetryRelay

/-- What a delivery makes of a queue whose sending end is at hand. -/
def Outbound.delivered (capacity : Nat) (payload : String) (q : Outbound) : Outbound :=
  if !q.receiving then q.unlisted
  else if capacity ≤ q.queued.length then q
  else { q with queued := q.queued ++ [payload] }

theorem Outbound.delivered_flags (capacity : Nat) (payload : String) (q : Outbound) :
    (q.delivered capacity payload).receiving = q.receiving ∧
      (q.delivered capacity payload).listed = (q.listed && q.receiving) := by
  obtain ⟨listed, receiving, queued⟩ := q
  cases receiving with
  | false => simp [delivered, unlisted]
  | true => by_cases hf : capacity ≤ queued.length <;> simp [delivered, hf]

theorem Outbound.taken_flags (q : Outbound) :
    q.taken.receiving = q.receiving ∧ q.taken.listed = q.listed := by
  unfold taken
  split <;> exact ⟨rfl, rfl⟩

/-- **A delivery changes the queue of its client alone.** -/
theorem Registry.offer_snd {r : Registry} {payload : String} (n : ClientId) :
    (r.offer n payload).2 = r.update n (Outbound.delivered r.capacity payload) := by
  unfold offer
  -- the cases of `offer`, each against the same case of `Outbound.delivered`
  cases hq : r.queue? n with
  | none => exact (update_self fun q h => by rw [hq] at h; cases h).symm
  | some q =>
    simp only
    by_cases hr : q.receiving = true
    · by_cases hf : r.capacity ≤ q.queued.length
      · simp only [hr, hf, Bool.not_true, Bool.false_eq_true, if_false, if_true]
        refine (update_self fun q' h => ?_).symm
        rw [hq] at h; cases h
        simp [Outbound.delivered, hr, hf]
      · simp only [hr, hf, Bool.not_true, Bool.false_eq_true, if_false]
        refine update_congr fun q' h => ?_
        rw [hq] at h; cases h
        simp [Outbound.delivered, hr, hf]
    · have hr' : q.receiving = false := by simpa using hr
      simp only [hr', Bool.not_false, if_true, unregister]
      refine update_congr fun q' h => ?_
      rw [hq] at h; cases h
      simp [Outbound.delivered, hr', Outbound.unlisted]

namespace Listener

variable {l l' : Listener} {a : ListenerAction} {as bs : List ListenerAction} {capacity : Nat}

/-! ### One action -/

/-- **What an action leaves of each queue.** -/
theorem queue?_after (a : ListenerAction) (k : ClientId) : (l.after a).registry.queue? k =
    match a with
    | .beginSession =>
      if k = l.registry.register.1 then some ⟨true, true, []⟩ else l.registry.queue? k
    | .take c => if k = c then (l.registry.queue? k).map Outbound.taken else l.registry.queue? k
    | .endSession c =>
      if k = c then (l.registry.queue? k).map fun q => q.unlisted.dropped else l.registry.queue? k
    | .deliver c payload =>
      if k = c then (l.registry.queue? k).map (Outbound.delivered l.registry.capacity payload)
      else l.registry.queue? k
    | .empty => (l.registry.queue? k).map Outbound.unlisted
    | _ => l.registry.queue? k := by
  cases a with
  | beginSession => exact Registry.queue?_register k
  | take c =>
    simp only [after, Registry.receive_snd]
    exact Registry.queue?_update _ c k
  | endSession c =>
    -- the client is removed, and then its receiver is given up
    simp only [after, Registry.dropReceiver, Registry.unregister, Registry.update_update]
    exact Registry.queue?_update _ c k
  | deliver c payload =>
    simp only [after, Registry.offer_snd]
    exact Registry.queue?_update _ c k
  | empty => exact Registry.queue?_disconnectAll k
  | lookUp c payload =>
    simp only [after]
    split <;> rfl
  | accept | refuse | finish => rfl

/-- Who is listed after an action. -/
theorem isListed_after (a : ListenerAction) (k : ClientId) : (l.after a).registry.isListed k =
    match a with
    | .beginSession => k == l.registry.register.1 || l.registry.isListed k
    | .endSession c => l.registry.isListed k && k != c
    | .deliver c _ => l.registry.isListed k && (k != c || l.isRunning k)
    | .empty => false
    | _ => l.registry.isListed k := by
  unfold Registry.isListed isRunning
  rw [queue?_after]
  cases a with
  | beginSession => by_cases hk : k = l.registry.register.1 <;> simp [hk]
  | take c =>
    by_cases hk : k = c
    · cases hqk : l.registry.queue? k with
      | none => simp
      | some q => simp [hk, (Outbound.taken_flags q).2]
    · simp [hk]
  | endSession c =>
    by_cases hk : k = c
    · cases hqk : l.registry.queue? k <;> simp [hk, Outbound.unlisted, Outbound.dropped]
    · simp [hk]
  | deliver c payload =>
    by_cases hk : k = c
    · cases hqk : l.registry.queue? k with
      | none => simp
      | some q => simp [hk, (Outbound.delivered_flags _ payload q).2]
    · simp [hk]
  | empty => cases l.registry.queue? k <;> simp [Outbound.unlisted]
  | accept | lookUp | refuse | finish => rfl

/-- Whose session runs after an action. -/
theorem isRunning_after (a : ListenerAction) (k : ClientId) : (l.after a).isRunning k =
    match a with
    | .beginSession => k == l.registry.register.1 || l.isRunning k
    | .endSession c => l.isRunning k && k != c
    | _ => l.isRunning k := by
  unfold isRunning
  rw [queue?_after]
  cases a with
  | beginSession => by_cases hk : k = l.registry.register.1 <;> simp [hk]
  | take c =>
    by_cases hk : k = c
    · cases hqk : l.registry.queue? k with
      | none => simp
      | some q => simp [hk, (Outbound.taken_flags q).1]
    · simp [hk]
  | endSession c =>
    by_cases hk : k = c
    · cases hqk : l.registry.queue? k <;> simp [hk, Outbound.dropped]
    · simp [hk]
  | deliver c payload =>
    by_cases hk : k = c
    · cases hqk : l.registry.queue? k with
      | none => simp
      | some q => simp [hk, (Outbound.delivered_flags _ payload q).1]
    · simp [hk]
  | empty => cases l.registry.queue? k <;> simp [Outbound.unlisted]
  | accept | lookUp | refuse | finish => rfl

/-- A session that runs has a number that was given out. -/
theorem isRunning_le {c : ClientId} (h : l.isRunning c = true) :
    c ≤ l.registry.queues.length := by
  obtain ⟨q, hq, -⟩ := (Option.any_eq_true _ _).1 h
  cases c with
  | zero => cases hq
  | succ i =>
    have hi : i < l.registry.queues.length := (List.getElem?_eq_some_iff.1 hq).1
    exact hi

/-- How many numbers have been given out after an action. -/
theorem length_after (a : ListenerAction) : (l.after a).registry.queues.length =
    l.registry.queues.length + [a].count .beginSession := by
  cases a with
  | beginSession => simp [after, Registry.register]
  | take => simp [after, Registry.receive_snd, Registry.length_update]
  | endSession =>
    simp [after, Registry.dropReceiver, Registry.unregister, Registry.length_update]
  | deliver => simp [after, Registry.offer_snd, Registry.length_update]
  | empty => simp [after, Registry.disconnectAll]
  | lookUp =>
    simp only [after]
    split <;> rfl
  | accept | refuse | finish => rfl

/-- A send that holds a queue held it before, or looks it up now, its client being listed. -/
theorem mem_sending_after {p : ClientId × String} (hp : p ∈ (l.after a).sending) :
    p ∈ l.sending ∨ a = .lookUp p.1 p.2 ∧ l.registry.isListed p.1 = true := by
  cases a with
  | lookUp c payload =>
    simp only [after] at hp
    split at hp
    case isTrue hl =>
      refine (List.mem_append.1 hp).imp_right fun hp => ?_
      obtain rfl := List.mem_singleton.1 hp
      exact ⟨rfl, hl⟩
    case isFalse => exact .inl hp
  | deliver c payload => exact .inl (List.mem_of_mem_erase hp)
  | accept | beginSession | take | endSession | empty | refuse | finish => exact .inl hp

/-- Every session has begun with the next number. -/
def Numbered (l : Listener) : Prop := l.sessions = List.range' 1 l.registry.queues.length

theorem Numbered.after (h : l.Numbered) (a : ListenerAction) : (l.after a).Numbered := by
  unfold Numbered at h ⊢
  rw [length_after]
  cases a with
  | beginSession =>
    have hone : [ListenerAction.beginSession].count .beginSession = 1 := rfl
    rw [hone, List.range'_concat, Nat.one_mul, Nat.add_comm 1, ← h]
    rfl
  | lookUp =>
    simp only [Listener.after]
    split <;> exact h
  | accept | take | endSession | deliver | empty | refuse | finish => exact h

/-! ### Runs -/

theorem step_eq_some_iff : l.step a = some l' ↔ l.allows a = true ∧ l.after a = l' := by
  unfold step
  split <;> simp_all

theorem run_cons_eq_some_iff :
    l.run (a :: as) = some l' ↔ l.allows a = true ∧ (l.after a).run as = some l' := by
  rw [run, Option.bind_eq_some_iff]
  simp only [step_eq_some_iff]
  exact ⟨fun ⟨_, ⟨ha, hl⟩, h⟩ => ⟨ha, hl ▸ h⟩, fun ⟨ha, h⟩ => ⟨_, ⟨ha, rfl⟩, h⟩⟩

theorem run_append_eq_some_iff :
    l.run (as ++ bs) = some l' ↔ ∃ m, l.run as = some m ∧ m.run bs = some l' := by
  induction as generalizing l with
  | nil => simp [run]
  | cons a rest ih =>
    simp only [List.cons_append, run_cons_eq_some_iff, ih]
    exact ⟨fun ⟨ha, m, h⟩ => ⟨m, ⟨ha, h.1⟩, h.2⟩, fun ⟨m, ⟨ha, h⟩, hm⟩ => ⟨ha, m, h, hm⟩⟩

/-- What every possible action keeps, a run keeps. -/
theorem run_keeps {P : Listener → Prop}
    (hP : ∀ {l a}, P l → l.allows a = true → P (l.after a)) (hl : P l) (h : l.run as = some l') :
    P l' := by
  induction as generalizing l with
  | nil => cases h; exact hl
  | cons a rest ih =>
    obtain ⟨ha, hrest⟩ := run_cons_eq_some_iff.1 h
    exact ih (hP hl ha) hrest

theorem length_run (h : l.run as = some l') : l'.registry.queues.length =
    l.registry.queues.length + as.count .beginSession := by
  induction as generalizing l with
  | nil => cases h; rfl
  | cons a rest ih =>
    have hcount : (a :: rest).count .beginSession =
        [a].count .beginSession + rest.count .beginSession :=
      @List.count_append _ _ _ [a] rest
    rw [ih (run_cons_eq_some_iff.1 h).2, length_after, hcount, Nat.add_assoc]

theorem Numbered.run (hn : l.Numbered) (h : l.run as = some l') : l'.Numbered :=
  run_keeps (fun hn _ => hn.after _) hn h

/-- A send that holds a queue has looked it up. -/
theorem mem_sending_run {p : ClientId × String} (h : l.run as = some l') (hp : p ∈ l'.sending) :
    p ∈ l.sending ∨ .lookUp p.1 p.2 ∈ as := by
  induction as generalizing l with
  | nil => cases h; exact .inl hp
  | cons a rest ih =>
    rcases ih (run_cons_eq_some_iff.1 h).2 with hmid | hmem
    · rcases mem_sending_after hmid with hold | ⟨rfl, -⟩
      · exact .inl hold
      · exact .inr List.mem_cons_self
    · exact .inr (List.mem_cons_of_mem _ hmem)

/-! ### After the removal -/

/-- **The registry has been emptied**, `early` sessions having begun before: listed are exactly the
clients of later sessions that still run, and only the sends `held` may still hold the queue of an
earlier one. -/
structure Emptied (early : Nat) (held : List (ClientId × String)) (l : Listener) : Prop where
  begun : l.closing ≠ .notBegun
  early_le : early ≤ l.registry.queues.length
  listed_iff : ∀ c, l.registry.isListed c = true ↔ early < c ∧ l.isRunning c = true
  sending : ∀ p ∈ l.sending, p.1 ≤ early → p ∈ held

/-- The removal itself. -/
theorem emptied_after_empty : (l.after .empty).Emptied l.registry.queues.length l.sending := by
  have hlen : (l.after .empty).registry.queues.length = l.registry.queues.length := length_after _
  refine ⟨nofun, Nat.le_of_eq hlen.symm, fun c => ?_, fun p hp _ => hp⟩
  rw [isListed_after]
  -- no session is a later one yet
  refine ⟨nofun, fun ⟨hlate, hrun⟩ => ?_⟩
  have hle := isRunning_le hrun
  rw [hlen] at hle
  exact absurd hle (Nat.not_le.2 hlate)

variable {early : Nat} {held : List (ClientId × String)}

theorem Emptied.after (h : l.Emptied early held) (ha : l.allows a = true) :
    (l.after a).Emptied early held := by
  have hbegun : (l.after a).closing ≠ .notBegun := by
    cases a with
    | lookUp =>
      simp only [Listener.after]
      split <;> exact h.begun
    | empty | refuse | finish => exact nofun
    | accept | beginSession | take | endSession | deliver => exact h.begun
  have hlen : early ≤ (l.after a).registry.queues.length := by
    rw [length_after]
    exact Nat.le_add_right_of_le h.early_le
  refine ⟨hbegun, hlen, fun c => ?_, fun p hp hle => ?_⟩
  · rw [isListed_after, isRunning_after]
    have hc := h.listed_iff c
    cases a with
    | beginSession =>
      -- the new number is above all that were given out before the removal
      have hnew : early < l.registry.register.1 := Nat.lt_succ_of_le h.early_le
      simp only [Bool.or_eq_true, beq_iff_eq, hc]
      refine ⟨?_, ?_⟩
      · rintro (rfl | ⟨hlate, hrun⟩)
        · exact ⟨hnew, .inl rfl⟩
        · exact ⟨hlate, .inr hrun⟩
      · rintro ⟨hlate, heq | hrun⟩
        · exact .inl heq
        · exact .inr ⟨hlate, hrun⟩
    | endSession k => simp only [Bool.and_eq_true, hc, and_assoc]
    | deliver k payload =>
      -- a delivery takes off the list only whom nobody receives for
      simp only [Bool.and_eq_true, Bool.or_eq_true, hc]
      exact ⟨And.left, fun hboth => ⟨hboth, .inr hboth.2⟩⟩
    | empty =>
      -- the registry is emptied once only
      exact absurd (beq_iff_eq.1 ha) h.begun
    | accept | take | lookUp | refuse | finish => exact hc
  · rcases mem_sending_after hp with hp | ⟨-, hl⟩
    · exact h.sending p hp hle
    · exact absurd ((h.listed_iff p.1).1 hl).1 (Nat.not_lt.2 hle)

theorem Emptied.run (he : l.Emptied early held) (h : l.run as = some l') :
    l'.Emptied early held :=
  run_keeps Emptied.after he h

/-! ### What sessions get -/

/-- A running session gets its oldest frame, or it waits, or its queue has ended. -/
theorem received_cases {c : ClientId} (h : l.isRunning c = true) :
    (∃ payload, l.received c = .frame payload) ∨ l.received c =
      if l.registry.isListed c || l.sending.any (·.1 == c) then .empty else .closed := by
  obtain ⟨⟨listed, receiving, queued⟩, hq, hr⟩ := (Option.any_eq_true _ _).1 h
  obtain rfl : receiving = true := hr
  unfold received Registry.receive Registry.isListed
  rw [hq]
  cases queued with
  | cons payload rest => exact .inl ⟨payload, rfl⟩
  | nil =>
    -- the queue has ended if neither the registry nor a send has its sending end
    right
    cases listed with
    | true => rfl
    | false => cases l.sending.any (·.1 == c) <;> rfl

/-- Once the registry has been emptied it lists the later sessions that still run. -/
theorem Emptied.ids_eq (he : l.Emptied early held) (hn : l.Numbered) :
    l.registry.ids = (l.sessions.drop early).filter l.isRunning := by
  have hsplit : l.registry.ids = (l.sessions.take early).filter l.registry.isListed ++
      (l.sessions.drop early).filter l.registry.isListed := by
    rw [← List.filter_append, List.take_append_drop, hn]
    rfl
  have hearlier : (l.sessions.take early).filter l.registry.isListed = [] := by
    refine List.filter_eq_nil_iff.2 fun c hc hlisted => ?_
    have hlate : early < c := ((he.listed_iff c).1 hlisted).1
    rw [hn, List.mem_take_iff_getElem] at hc
    obtain ⟨i, hi, rfl⟩ := hc
    rw [List.getElem_range'] at hlate
    omega
  have hlater : (l.sessions.drop early).filter l.registry.isListed =
      (l.sessions.drop early).filter l.isRunning := by
    refine List.filter_congr fun c hc => ?_
    rw [hn, List.drop_range', List.mem_range'_1] at hc
    have hlate : early < c := by omega
    rw [Bool.eq_iff_iff, he.listed_iff c]
    exact and_iff_right hlate
  rw [hsplit, hearlier, List.nil_append, hlater]

/-- An earlier session comes to the end of its queue, unless a send still holds it. -/
theorem Emptied.received_early (he : l.Emptied early held) {c : ClientId}
    (hrun : l.isRunning c = true) (hearly : c ≤ early) :
    (∃ payload, l.received c = .frame payload) ∨ l.received c = .closed ∨
      ∃ payload, (c, payload) ∈ l.sending ∧ (c, payload) ∈ held := by
  refine (received_cases hrun).imp_right fun hreceived => ?_
  have hlisted : l.registry.isListed c = false := by
    rw [Bool.eq_false_iff]
    exact fun hlisted => Nat.not_lt.2 hearly ((he.listed_iff c).1 hlisted).1
  rw [hlisted, Bool.false_or] at hreceived
  cases hsending : l.sending.any (·.1 == c) with
  | false => rw [hreceived, hsending]; exact .inl rfl
  | true =>
    obtain ⟨⟨k, payload⟩, hp, hk⟩ := List.any_eq_true.1 hsending
    obtain rfl : k = c := beq_iff_eq.1 hk
    exact .inr ⟨payload, hp, he.sending _ hp hearly⟩

/-- A later session never comes to the end of its queue. -/
theorem Emptied.received_late (he : l.Emptied early held) {c : ClientId}
    (hrun : l.isRunning c = true) (hlate : early < c) :
    (∃ payload, l.received c = .frame payload) ∨ l.received c = .empty := by
  refine (received_cases hrun).imp_right fun hreceived => ?_
  rw [hreceived, (he.listed_iff c).2 ⟨hlate, hrun⟩]
  rfl

/-- **What the closing leaves.** Whatever happens before and after the moment at which the registry
is emptied: it lists the clients of the sessions that began later and still run. The sessions that
began earlier come to the end of their queues, once the sends that had found these before have been
made; the later ones never do. -/
theorem sessions_left {before after : List ListenerAction}
    (h : (bound capacity).run (before ++ .empty :: after) = some l) :
    l.sessions =
        List.range' 1 (before.count .beginSession + after.count .beginSession) ∧
      l.registry.ids = (l.sessions.drop (before.count .beginSession)).filter l.isRunning ∧
      (∀ c, l.isRunning c = true → c ≤ before.count .beginSession →
        (∃ payload, l.received c = .frame payload) ∨ l.received c = .closed ∨
          ∃ payload, (c, payload) ∈ l.sending ∧ .lookUp c payload ∈ before) ∧
      (∀ c, l.isRunning c = true → before.count .beginSession < c →
        (∃ payload, l.received c = .frame payload) ∨ l.received c = .empty) := by
  -- `m` is the listener at the moment of the removal
  obtain ⟨m, hbefore, hrest⟩ := run_append_eq_some_iff.1 h
  have hafter := (run_cons_eq_some_iff.1 hrest).2
  have hm : m.registry.queues.length = before.count .beginSession := by
    rw [length_run hbefore]
    exact Nat.zero_add _
  have hl : l.registry.queues.length = before.count .beginSession + after.count .beginSession := by
    rw [length_run hafter, length_after, hm]
    rfl
  have hn : l.Numbered := Numbered.run (l := bound capacity) rfl h
  have he : l.Emptied (before.count .beginSession) m.sending := by
    rw [← hm]
    exact emptied_after_empty.run hafter
  refine ⟨by rw [hn, hl], he.ids_eq hn, fun c hrun hearly => ?_, fun c => he.received_late⟩
  refine (he.received_early hrun hearly).imp_right (Or.imp_right ?_)
  rintro ⟨payload, hp, hheld⟩
  -- nothing held a queue when the listener was bound
  exact ⟨payload, hp, (mem_sending_run hbefore hheld).resolve_left nofun⟩

/-- A session that begins while the listener closes is left. The client whose session ran before
comes to the end of its queue; the other one, whom the listener had accepted too, is listed and
waits. -/
theorem sessions_left_two : ∃ l,
    (bound Registry.defaultCapacity).run
        ([.accept, .accept, .beginSession] ++ .empty :: [.refuse, .finish, .beginSession]) =
          some l ∧
      l.closing = .closed ∧ l.accepted = 0 ∧ l.registry.ids = [2] ∧ l.received 1 = .closed ∧
      l.received 2 = .empty := by
  have hrun : (bound Registry.defaultCapacity).run
      ([.accept, .accept, .beginSession] ++ .empty :: [.refuse, .finish, .beginSession]) =
      some _ := rfl
  exact ⟨_, hrun, rfl, rfl, (sessions_left hrun).2.1, rfl, rfl⟩

/-- **Closing a listener can leave a client behind**, though every accepted client has begun its
session: here the session begins when the registry has already been emptied. -/
theorem late_session_stays : ¬ ∀ (as : List ListenerAction) (l : Listener),
    (bound Registry.defaultCapacity).run as = some l → l.closing = .closed → l.accepted = 0 →
      l.registry.ids = [] ∧ ∀ c ∈ l.sessions, l.registry.isListed c = false := by
  intro h
  have hids := (h [.accept, .empty, .refuse, .finish, .beginSession] _ rfl rfl rfl).1
  exact absurd hids (by decide)

end Listener

end TelemetryRelay
