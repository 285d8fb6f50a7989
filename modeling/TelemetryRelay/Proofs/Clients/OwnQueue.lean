import TelemetryRelay.Proofs.Clients.Sharing

/-!
# One queue of a shared registry

What becomes of the queue of one client, whatever is done to the registry.

* `queue?_after_changed`: the queue stays, and an action changes it only in certain ways
  (`Outbound.Changed`).
* `isListed_after_of_some`: so a client that is off the list stays off it.
* `Idle.after`: a queue that is off the list and that no send holds stays so, and it accepts
  nothing any more.
* `load_after`: **to a client that is off the list no more comes than what waits for it and what
  sends hold**, and each of these sends is made once.
-/

namespace TelemetryRelay

/-- Whether an action is a delivery to a client. -/
def RegistryAction.delivers (client : ClientId) : RegistryAction → Bool
  | .deliver c _ => c == client
  | _ => false

/-! ### A queue -/

namespace Outbound

variable {client c : ClientId} {q q' : Outbound} {b : RegistryAction}

/-- **How an action can change the queue of a client.** Nothing lists it again, only who holds it
gives it up, and at most one frame is added, by a delivery. -/
structure Changed (client : ClientId) (b : RegistryAction) (q q' : Outbound) : Prop where
  listed : q'.listed = true → q.listed = true
  receiving : b ≠ .event (.leave client) → q'.receiving = q.receiving
  length_le : q'.queued.length ≤ q.queued.length + if b.delivers client then 1 else 0

namespace Changed

theorem refl (client : ClientId) (b : RegistryAction) (q : Outbound) : Changed client b q q :=
  ⟨id, fun _ => rfl, Nat.le_add_right _ _⟩

theorem taken (client : ClientId) (b : RegistryAction) (q : Outbound) :
    Changed client b q q.taken where
  listed h := (taken_flags q).2 ▸ h
  receiving _ := (taken_flags q).1
  length_le := by
    refine Nat.le_add_right_of_le ?_
    unfold Outbound.taken
    split
    · simp
    · exact Nat.le_refl _

theorem dropped (client : ClientId) (q : Outbound) :
    Changed client (.event (.leave client)) q q.dropped :=
  ⟨id, fun h => absurd rfl h, Nat.zero_le _⟩

theorem unlisted (client : ClientId) (b : RegistryAction) (q : Outbound) :
    Changed client b q q.unlisted :=
  ⟨nofun, fun _ => rfl, Nat.le_add_right _ _⟩

theorem delivered (capacity : Nat) (client : ClientId) (payload : String) (q : Outbound) :
    Changed client (.deliver client payload) q (q.delivered capacity payload) where
  listed h := by
    rw [(delivered_flags capacity payload q).2, Bool.and_eq_true] at h
    exact h.1
  receiving _ := (delivered_flags capacity payload q).1
  length_le := by
    have hd : RegistryAction.delivers client (.deliver client payload) = true := beq_self_eq_true _
    rw [if_pos hd]
    unfold Outbound.delivered
    split
    · exact Nat.le_succ _
    · split <;> simp

end Changed

end Outbound

namespace SharedRegistry

variable {s t : SharedRegistry} {client : ClientId} {q : Outbound} {b : RegistryAction}
  {bs : List RegistryAction} {log : List RegistryEntry} {payload : String}

/-- **What an action leaves of a queue that is there.** -/
theorem queue?_after_changed (hq : s.registry.queue? client = some q) (b : RegistryAction) :
    ∃ q', (s.after b).registry.queue? client = some q' ∧ q.Changed client b q' := by
  rw [queue?_after]
  cases b with
  | event e =>
    simp only [Registry.queue?_after, hq]
    cases e with
    | join => exact ⟨q, if_neg (Registry.register_fst_ne hq), .refl ..⟩
    | receive c =>
      by_cases hc : client = c
      · exact ⟨q.taken, by simp [hc], .taken ..⟩
      · exact ⟨q, by simp [hc], .refl ..⟩
    | leave c =>
      by_cases hc : client = c
      · subst hc
        exact ⟨q.dropped, by simp, .dropped ..⟩
      · exact ⟨q, by simp [hc], .refl ..⟩
    | remove c =>
      by_cases hc : client = c
      · exact ⟨q.unlisted, by simp [hc], .unlisted ..⟩
      · exact ⟨q, by simp [hc], .refl ..⟩
    | removeAll => exact ⟨q.unlisted, rfl, .unlisted ..⟩
  | lookUp => exact ⟨q, hq, .refl ..⟩
  | deliver c payload =>
    by_cases hc : client = c
    · subst hc
      exact ⟨q.delivered s.registry.capacity payload, by simp [hq], .delivered ..⟩
    · exact ⟨q, by simp [hq, hc], .refl ..⟩

/-- Who has a queue and is not listed is not listed again. -/
theorem isListed_after_of_some (hq : s.registry.queue? client = some q)
    (hl : s.registry.isListed client = false) (b : RegistryAction) :
    (s.after b).registry.isListed client = false := by
  obtain ⟨q', hq', hc⟩ := queue?_after_changed hq b
  rw [Bool.eq_false_iff] at hl ⊢
  intro h
  obtain ⟨q'', hq'', hlisted⟩ := Registry.isListed_iff.1 h
  obtain rfl : q' = q'' := Option.some.inj (hq'.symm.trans hq'')
  exact hl (Registry.isListed_iff.2 ⟨q, hq, hc.listed hlisted⟩)

/-- A client that is removed is off the list. -/
theorem isListed_after_remove (s : SharedRegistry) (client : ClientId) :
    (s.after (.event (.remove client))).registry.isListed client = false := by
  rw [Registry.isListed, queue?_after]
  simp only [Registry.queue?_after, if_true]
  cases s.registry.queue? client <;> rfl

/-- A send that holds a queue held it before, or looks it up now, its client being listed. -/
theorem mem_sending_after {p : ClientId × String} (hp : p ∈ (s.after b).sending) :
    p ∈ s.sending ∨ s.registry.isListed p.1 = true := by
  cases b with
  | event e => exact .inl hp
  | lookUp c payload =>
    simp only [after] at hp
    split at hp
    case isTrue hl =>
      refine (List.mem_append.1 hp).imp_right fun hp => ?_
      rw [List.mem_singleton.1 hp]
      exact hl
    case isFalse => exact .inl hp
  | deliver c payload => exact .inl (List.mem_of_mem_erase hp)

theorem run_concat (h : s.run bs = some (log, t)) (hb : t.allows b = true) :
    s.run (bs ++ [b]) = some (log ++ [⟨b, t.answer b⟩], t.after b) := by
  induction bs generalizing s log with
  | nil =>
    cases h
    exact run_cons_eq_some_iff.2 ⟨hb, [], rfl, rfl⟩
  | cons a rest ih =>
    obtain ⟨ha, more, hrest, rfl⟩ := run_cons_eq_some_iff.1 h
    exact run_cons_eq_some_iff.2 ⟨ha, _, ih hrest, rfl⟩

/-! ### No more frames -/

/-- **Nothing more comes to a client**: it is off the list, and no send holds its queue. -/
structure Idle (s : SharedRegistry) (client : ClientId) : Prop where
  off_list : s.registry.isListed client = false
  no_sends : ∀ payload, (client, payload) ∉ s.sending

namespace Idle

theorem after (h : s.Idle client) (hq : s.registry.queue? client = some q) (b : RegistryAction) :
    (s.after b).Idle client where
  off_list := isListed_after_of_some hq h.off_list b
  no_sends payload hp := by
    rcases mem_sending_after hp with hp | hl
    · exact h.no_sends payload hp
    · rw [h.off_list] at hl
      cases hl

/-- An idle queue accepts nothing. -/
theorem accepted?_eq_none (h : s.Idle client) (hb : s.allows b = true) :
    RegistryEntry.accepted? client ⟨b, s.answer b⟩ = none := by
  cases b with
  | event e => rfl
  | lookUp => rfl
  | deliver c payload =>
    by_cases hc : client = c
    · subst hc
      exact absurd (List.contains_iff_mem.1 hb) (h.no_sends payload)
    · exact accepted?_other hc _

end Idle

/-- How much can still come to a client that is off the list, a frame that waits counting three and
a send that holds the queue four. -/
def load (s : SharedRegistry) (client : ClientId) : Nat :=
  4 * s.sending.countP (·.1 == client) +
    3 * ((s.registry.queue? client).map fun q => q.queued.length).getD 0

theorem load_eq (hq : s.registry.queue? client = some q) :
    s.load client = 4 * s.sending.countP (·.1 == client) + 3 * q.queued.length := by
  simp [load, hq]

/-- No new send comes to hold the queue of a client that is off the list. -/
theorem countP_sending_after (hl : s.registry.isListed client = false) (hb : s.allows b = true) :
    (s.after b).sending.countP (·.1 == client) + (if b.delivers client then 1 else 0) =
      s.sending.countP (·.1 == client) := by
  cases b with
  | event e => rfl
  | lookUp c payload =>
    simp only [after]
    split
    case isTrue hlc =>
      have hc : ¬ c = client := by
        rintro rfl
        rw [hl] at hlc
        cases hlc
      simp [RegistryAction.delivers, hc]
    case isFalse => rfl
  | deliver c payload =>
    have hm : (c, payload) ∈ s.sending := List.contains_iff_mem.1 hb
    rw [(List.perm_cons_erase hm).countP_eq, List.countP_cons]
    rfl

/-- **No more comes to a client that is off the list than its load**, and a delivery lessens it. -/
theorem load_after (hq : s.registry.queue? client = some q)
    (hl : s.registry.isListed client = false) (hb : s.allows b = true) :
    (s.after b).load client + (if b.delivers client then 1 else 0) ≤ s.load client := by
  obtain ⟨q', hq', hc⟩ := queue?_after_changed hq b
  have hsends := countP_sending_after hl hb
  have hlen := hc.length_le
  rw [load_eq hq, load_eq hq']
  generalize (if b.delivers client = true then 1 else 0) = made at hsends hlen ⊢
  omega

/-- A frame that is received stands first in its queue. -/
theorem queued_of_received (hr : s.received client = .frame payload) : ∃ q rest,
    s.registry.queue? client = some q ∧ q.receiving = true ∧ q.queued = payload :: rest := by
  rw [received_eq] at hr
  split at hr
  case h_1 => cases hr
  case h_2 q hq =>
    split at hr
    case isTrue => cases hr
    case isFalse hrec =>
      split at hr
      case h_1 rest hqueued =>
        cases hr
        exact ⟨q, rest, hq, by simpa using hrec, hqueued⟩
      case h_2 => split at hr <;> cases hr

/-- Taking a frame lessens the load by what the frame counts. -/
theorem load_after_receive (hr : s.received client = .frame payload) :
    (s.after (.event (.receive client))).load client + 3 = s.load client := by
  obtain ⟨q, rest, hq, hrec, hqueued⟩ := queued_of_received hr
  have hafter : (s.after (.event (.receive client))).registry.queue? client =
      some { q with queued := rest } := by
    rw [queue?_after]
    simp [Registry.queue?_after, hq, Outbound.taken, hrec, hqueued]
  rw [load_eq hq, load_eq hafter, hqueued, List.length_cons]
  rfl

end SharedRegistry

end TelemetryRelay
