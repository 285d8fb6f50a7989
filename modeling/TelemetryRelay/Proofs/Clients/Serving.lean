import TelemetryRelay.Proofs.Clients.SessionTrace

/-!
# What a session does for its client

A session can end in many ways and at many points, while others send to its client, remove it or
join. Whatever happens, its socket gets the frames of the queue from the first one on, and in the
end its client is off the list.

* `Follows.moved`: **every action keeps the log of the registry, the queue and what was written in
  step**; `Drained.moved`: once everything has been written it stays so.
* `drained_run`: a session that is not broken off says goodbye only when everything is written.
* `listedBy_run`: the session takes nobody else off the list.
* `work_run`, `exists_advance`: once its client is off the list the session comes to its end.
* `serves_run`: all this, for every run.
-/

namespace TelemetryRelay

open SharedRegistry (accepted yielded ListedBy)

/-- The entry with which a session is opened. -/
def SharedRegistry.opening (r : SharedRegistry) : RegistryEntry :=
  ⟨.event .join, r.answer (.event .join)⟩

/-- How many actions of its own a session can still make that gets no more frames. -/
def SessionStage.weight : SessionStage → Nat
  | .sending _ => 6
  | .flushing => 5
  | .waiting | .closing (some _) => 4
  | .closing none => 3
  | .leaving => 2
  | .removed => 1
  | .ended => 0

/-- As long as both loops run there are the goodbye, the removal and the queue to do. -/
theorem SessionStage.weight_of_isOpen {stage : SessionStage} (h : stage.isOpen = true) :
    SessionStage.leaving.weight + 1 ≤ stage.weight := by
  cases stage with
  | waiting | sending | flushing => simp [weight]
  | closing held => cases held <;> simp [weight]
  | leaving | removed | ended => cases h

namespace ClientSession

variable {s t m : ClientSession} {a : SessionAction} {as : List SessionAction}
  {stage : SessionStage} {r : SharedRegistry} {b : RegistryAction} {capacity : Nat}
  {entries past : List RegistryEntry} {k : ClientId}

/-! ### What every action keeps -/

/-- **A session is in step** with its registry, `entries` being the log of everything that was ever
done to the registry. -/
structure Follows (capacity : Nat) (entries : List RegistryEntry) (s : ClientSession) : Prop where
  recorded : ∃ bs, (SharedRegistry.fresh capacity).run bs = some (entries, s.shared)
  queue : ∃ q, s.shared.registry.queue? s.client = some q ∧
    (s.stage ≠ .ended → q.receiving = true)
  /-- What was taken from the queue was written, but for a frame in hand while both loops run, and
  for one that may be lost with them. -/
  in_step : ∃ rest, s.written ++ rest = yielded s.client entries ∧
    (s.stage.isOpen = true → rest = s.stage.held?.toList)
  off_list : s.stage = .removed ∨ s.stage = .ended →
    s.shared.registry.isListed s.client = false

/-- What an action of a session does to the registry is possible there. -/
theorem Moves.allows (h : Moves s a stage) (hb : s.request? a = some b) :
    s.shared.allows b = true := by
  cases h with
  | other ha => cases hb; exact ha
  | take | find | remove | giveUp => cases hb; rfl
  | write | writeLate | flush | fail | failFlushing | sayGoodbye | read | readLast => cases hb

/-- Only the last action of a session gives up its queue. -/
theorem Moves.keeps_queue (h : Moves s a stage) (hne : stage ≠ .ended)
    (hb : s.request? a = some b) : b ≠ .event (.leave s.client) := by
  cases h with
  | other ha hc =>
    cases hb
    rintro rfl
    simp [concernsOthers] at hc
  | take | find | remove => cases hb; simp
  | giveUp => exact absurd rfl hne
  | write | writeLate | flush | fail | failFlushing | sayGoodbye | read | readLast => cases hb

/-- A session that has ended does nothing more. -/
theorem Moves.of_ended (h : Moves s a stage) (he : s.stage = .ended) : stage = .ended := by
  cases h <;> simp_all [SessionStage.isOpen]

/-- **Only by taking a frame the client receives one**, and then the session has it in hand. -/
theorem Moves.yields (h : Moves s a stage) : (s.logged? a).bind (RegistryEntry.yielded? s.client) =
    if a = .take then stage.held? else none := by
  cases h with
  | take hs hr | find hs hr =>
    simp [logged?, request?, SharedRegistry.answer, hr, RegistryEntry.yielded?, SessionStage.held?]
  | @other b ha hc =>
    cases b with
    | event e =>
      cases e with
      | receive c =>
        have hne : s.client ≠ c := fun heq => by simp [concernsOthers, heq] at hc
        exact SharedRegistry.yielded?_other hne _
      | join | leave | remove | removeAll => rfl
    | lookUp | deliver => rfl
  | remove | giveUp | write | writeLate | flush | fail | failFlushing | sayGoodbye | read
  | readLast => rfl

namespace Follows

theorem kept (h : Follows capacity entries s) : s.shared.Kept entries := by
  obtain ⟨bs, hrun⟩ := h.recorded
  exact (SharedRegistry.kept_fresh capacity).run hrun

theorem recorded_moved (h : Follows capacity entries s) (hm : Moves s a stage) :
    ∃ bs, (SharedRegistry.fresh capacity).run bs =
      some (entries ++ (s.logged? a).toList, (s.moved a stage).shared) := by
  obtain ⟨bs, hrun⟩ := h.recorded
  simp only [logged?, moved]
  cases hb : s.request? a with
  | none => exact ⟨bs, by simpa using hrun⟩
  | some b => exact ⟨bs ++ [b], SharedRegistry.run_concat hrun (hm.allows hb)⟩

theorem queue_moved (h : Follows capacity entries s) (hm : Moves s a stage) :
    ∃ q, (s.moved a stage).shared.registry.queue? s.client = some q ∧
      (stage ≠ .ended → q.receiving = true) := by
  obtain ⟨q, hq, hr⟩ := h.queue
  have hr' : stage ≠ .ended → q.receiving = true := fun hne => hr (mt hm.of_ended hne)
  simp only [moved]
  cases hb : s.request? a with
  | none => exact ⟨q, hq, hr'⟩
  | some b =>
    obtain ⟨q', hq', hc⟩ := SharedRegistry.queue?_after_changed hq b
    exact ⟨q', hq', fun hne => (hc.receiving (hm.keeps_queue hne hb)).trans (hr' hne)⟩

theorem in_step_moved (h : Follows capacity entries s) (hm : Moves s a stage) :
    ∃ rest, (s.moved a stage).written ++ rest =
        yielded s.client (entries ++ (s.logged? a).toList) ∧
      (stage.isOpen = true → rest = stage.held?.toList) := by
  obtain ⟨rest, hrest, hopen⟩ := h.in_step
  have hyields : yielded s.client (entries ++ (s.logged? a).toList) =
      s.written ++ rest ++ (if a = .take then stage.held? else none).toList := by
    rw [← hm.yields, hrest, yielded, List.filterMap_append]
    cases s.logged? a <;> rfl
  rw [hyields]
  -- what is in hand by the old stage goes into what is written, or stays in hand
  cases hm with
  | take hs hr | find hs hr =>
    obtain rfl : rest = [] := by simpa [hs, SessionStage.isOpen, SessionStage.held?] using hopen
    exact ⟨_, by simp [moved, writes], fun _ => rfl⟩
  | write hs | writeLate hs =>
    have hheld := hopen (by rw [hs]; rfl)
    rw [hs] at hheld
    exact ⟨[], by simp [moved, writes, hs, hheld, SessionStage.held?], fun _ => rfl⟩
  | flush hs | fail hs | failFlushing hs =>
    have hheld := hopen (by rw [hs]; rfl)
    rw [hs] at hheld
    exact ⟨rest, by simp [moved, writes], fun _ => hheld⟩
  | sayGoodbye | readLast | remove | giveUp =>
    exact ⟨rest, by simp [moved, writes], fun ho => by cases ho⟩
  | read | other => exact ⟨rest, by simp [moved, writes], hopen⟩

/-- A session that has removed its client finds it off the list ever after. -/
theorem off_list_moved (h : Follows capacity entries s) (hm : Moves s a stage)
    (hstage : stage = .removed ∨ stage = .ended) :
    (s.moved a stage).shared.registry.isListed s.client = false := by
  obtain ⟨q, hq, -⟩ := h.queue
  cases hm with
  | remove => exact SharedRegistry.isListed_after_remove s.shared s.client
  | giveUp hs =>
    exact SharedRegistry.isListed_after_of_some hq (h.off_list (.inl hs))
      (.event (.leave s.client))
  | other => exact SharedRegistry.isListed_after_of_some hq (h.off_list hstage) _
  | read ho =>
    rcases hstage with hs | hs <;> rw [hs] at ho <;> cases ho
  | take | find | write | writeLate | flush | fail | failFlushing | sayGoodbye | readLast =>
    rcases hstage with hs | hs <;> cases hs

/-- **Every action keeps a session in step.** -/
theorem moved (h : Follows capacity entries s) (hm : Moves s a stage) :
    Follows capacity (entries ++ (s.logged? a).toList) (s.moved a stage) :=
  ⟨h.recorded_moved hm, h.queue_moved hm, h.in_step_moved hm, h.off_list_moved hm⟩

end Follows

/-! ### Runs -/

/-- **The log of the registry** when a run has been made, `past` being what was done to it before the
session was opened. -/
def history (past : List RegistryEntry) (r : SharedRegistry) (as : List SessionAction) :
    List RegistryEntry :=
  past ++ r.opening :: (opened r).log as

theorem history_concat (a : SessionAction) (h : (opened r).run as = some m) :
    history past r (as ++ [a]) = history past r as ++ (m.logged? a).toList := by
  simp [history, log_concat a h]

variable {before : List RegistryAction}

theorem follows_opened (hr : (SharedRegistry.fresh capacity).run before = some (past, r)) :
    Follows capacity (history past r []) (opened r) where
  recorded := ⟨_, SharedRegistry.run_concat hr rfl⟩
  queue := ⟨⟨true, true, []⟩, by simp [opened, SharedRegistry.after, Registry.after,
    Registry.queue?_register], fun _ => rfl⟩
  in_step := by
    have hkept : r.Kept past := (SharedRegistry.kept_fresh capacity).run hr
    have hnone : yielded r.registry.register.1 past = [] := by
      have hbalanced := hkept.balanced r.registry.register.1
      rw [Registry.queue?_register_fst] at hbalanced
      exact List.prefix_nil.1 (hbalanced.nil_of_none rfl ▸ hbalanced.isPrefix)
    refine ⟨[], ?_, fun _ => rfl⟩
    rw [history, yielded, List.filterMap_append, ← yielded]
    exact (List.append_eq_nil_iff.2 ⟨hnone, rfl⟩).symm
  off_list := by rintro (h | h) <;> cases h

theorem follows_run (hr : (SharedRegistry.fresh capacity).run before = some (past, r))
    (h : (opened r).run as = some t) : Follows capacity (history past r as) t := by
  refine run_induction (P := fun as t => Follows capacity (history past r as) t)
    (follows_opened hr) ?_ h
  intro as m a stage hrun ih hm
  rw [history_concat a hrun]
  exact ih.moved hm

/-! ### Everything is written -/

/-- **Everything is written** that was ever queued for the client of a session, and nothing more
comes. -/
structure Drained (entries : List RegistryEntry) (s : ClientSession) : Prop where
  all_written : s.written = accepted s.client entries
  idle : s.shared.Idle s.client

/-- A session that finds that its queue has ended has written everything. -/
theorem Follows.drained (h : Follows capacity entries s) (hs : s.stage = .waiting)
    (hr : s.shared.received s.client = .closed) : s.Drained entries := by
  obtain ⟨rest, hrest, hopen⟩ := h.in_step
  obtain rfl : rest = [] := by simpa [hs, SessionStage.isOpen, SessionStage.held?] using hopen
  obtain ⟨q, -, -, hids, hyielded, hsending⟩ := (h.kept.closed_iff s.client).1 hr
  rw [Registry.mem_ids, Bool.not_eq_true] at hids
  exact ⟨by rw [← hyielded, ← hrest, List.append_nil], hids, hsending⟩

theorem Drained.moved (h : s.Drained entries) (hf : Follows capacity entries s)
    (hm : Moves s a stage) (hheld : s.stage.held? = none) :
    (s.moved a stage).Drained (entries ++ (s.logged? a).toList) := by
  have hwrites : s.writes a = [] := by
    cases a <;> simp [writes, hheld]
  have haccepted : (s.logged? a).toList.filterMap (RegistryEntry.accepted? s.client) = [] := by
    simp only [logged?]
    cases hb : s.request? a with
    | none => rfl
    | some b => simp [h.idle.accepted?_eq_none (hm.allows hb)]
  obtain ⟨q, hq, -⟩ := hf.queue
  refine ⟨?_, ?_⟩
  · show s.written ++ s.writes a = accepted s.client (entries ++ (s.logged? a).toList)
    rw [hwrites, List.append_nil, accepted, List.filterMap_append, haccepted, List.append_nil]
    exact h.all_written
  · show ((s.request? a).elim s.shared s.shared.after).Idle s.client
    cases s.request? a with
    | none => exact h.idle
    | some b => exact h.idle.after hq b

/-- A session begins to say goodbye when it finds that its queue has ended, or else it is broken
off. -/
theorem Moves.parts (h : Moves s a stage) (hs : s.stage.isParting = false)
    (hp : stage.isParting = true) : a.isBreak = true ∨
      s.stage = .waiting ∧ s.shared.received s.client = .closed ∧ stage = .closing none := by
  cases h with
  | find hs hr => exact .inr ⟨hs, hr, rfl⟩
  | fail | failFlushing => exact .inl rfl
  | readLast ho hi => exact .inl hi
  | take | write | flush => cases hp
  | read | other =>
    rw [hs] at hp
    cases hp
  | writeLate hst | sayGoodbye hst | remove hst | giveUp hst =>
    rw [hst] at hs
    cases hs

/-- A session that parts with nothing in hand takes nothing in hand. -/
theorem Moves.held?_eq_none (h : Moves s a stage) (hs : s.stage.isParting = true)
    (hheld : s.stage.held? = none) : stage.held? = none := by
  cases h with
  | read | other => exact hheld
  | find | writeLate | sayGoodbye | readLast | remove | giveUp | write | flush | failFlushing => rfl
  | take hst | fail hst =>
    rw [hst] at hs
    cases hs

/-- **A session that is not broken off says goodbye only when everything is written.** -/
theorem drained_run (hr : (SharedRegistry.fresh capacity).run before = some (past, r))
    (h : (opened r).run as = some t) : (opened r).Unbroken as → t.stage.isParting = true →
      t.stage.held? = none ∧ t.Drained (history past r as) := by
  refine run_induction (P := fun as t => (opened r).Unbroken as → t.stage.isParting = true →
    t.stage.held? = none ∧ t.Drained (history past r as)) (fun _ hp => by cases hp) ?_ h
  intro as m a stage hrun ih hm hunbroken hp
  obtain ⟨hbefore, hbreak⟩ := (unbroken_concat_iff a hrun).1 hunbroken
  have hf := follows_run hr hrun
  rw [history_concat a hrun]
  cases hparting : m.stage.isParting with
  | true =>
    obtain ⟨hheld, hdrained⟩ := ih hbefore hparting
    exact ⟨hm.held?_eq_none hparting hheld, hdrained.moved hf hm hheld⟩
  | false =>
    rcases hm.parts hparting hp with hb | ⟨hs, hreceived, rfl⟩
    · rw [hbreak hb] at hparting
      cases hparting
    · exact ⟨rfl, (hf.drained hs hreceived).moved hf hm (by rw [hs]; rfl)⟩

/-! ### The other clients -/

/-- **A session changes no queue but that of its client.** -/
theorem queue?_moved_own (ha : s.foreign? a = none) (hk : k ≠ s.client) :
    (s.moved a stage).shared.registry.queue? k = s.shared.registry.queue? k := by
  cases a with
  | take | remove | giveUp =>
    show (s.shared.after (.event _)).registry.queue? k = _
    rw [SharedRegistry.queue?_after]
    simp [Registry.queue?_after, hk]
  | other => cases ha
  | write | flush | fail | sayGoodbye | read => rfl

/-- **Who else is listed, is so by what others do.** -/
theorem listedBy_run (hr : (SharedRegistry.fresh capacity).run before = some (past, r))
    (h : (opened r).run as = some t) : ∀ k, k ≠ t.client →
      (t.shared.registry.isListed k = true ↔
        ListedBy (past ++ r.opening :: (opened r).foreign as) k) := by
  refine run_induction (P := fun as t => ∀ k, k ≠ t.client →
    (t.shared.registry.isListed k = true ↔
      ListedBy (past ++ r.opening :: (opened r).foreign as) k)) ?_ ?_ h
  · intro k _
    exact (follows_opened hr).kept.isListed_iff k
  · intro as m a stage hrun ih hm k hk
    rw [foreign_concat a hrun]
    cases ha : m.foreign? a with
    | none =>
      rw [Option.toList_none, List.append_nil, ← ih k hk, Registry.isListed, Registry.isListed,
        queue?_moved_own ha hk]
    | some e =>
      cases a with
      | other b =>
        cases ha
        rw [Option.toList_some, ← List.cons_append, ← List.append_assoc,
          SharedRegistry.listedBy_concat fun c hc => SharedRegistry.answer_joined hc, ← ih k hk]
        exact SharedRegistry.isListed_after b k
      | take | write | flush | fail | sayGoodbye | read | remove | giveUp => cases ha

/-! ### The end -/

/-- What is left to do for a session whose client is off the list. -/
def work (s : ClientSession) : Nat := s.shared.load s.client + s.stage.weight

/-- What is done to the registry makes no more work. -/
theorem load_moved (hf : Follows capacity entries s)
    (hl : s.shared.registry.isListed s.client = false) (hm : Moves s a stage)
    (hb : s.request? a = some b) :
    (s.moved a stage).shared.load s.client + (if b.delivers s.client then 1 else 0) ≤
      s.shared.load s.client := by
  obtain ⟨q, hq, -⟩ := hf.queue
  simp only [moved, hb, Option.elim_some]
  exact SharedRegistry.load_after hq hl (hm.allows hb)

/-- **A session whose client is off the list uses up work**, and so does every send to it that is
still made; nothing makes more. -/
theorem work_moved (hf : Follows capacity entries s)
    (hl : s.shared.registry.isListed s.client = false) (hm : Moves s a stage) :
    (s.moved a stage).work + (if a.advances s.client then 1 else 0) ≤ s.work := by
  show (s.moved a stage).shared.load s.client + stage.weight + _ ≤
    s.shared.load s.client + s.stage.weight
  cases hm with
  | take hs hr =>
    -- the frame leaves the queue, where it counts more than it adds to the stage
    have hload := SharedRegistry.load_after_receive hr
    simp only [moved, request?, Option.elim_some, hs, SessionStage.weight, SessionAction.advances,
      if_true]
    omega
  | find hs hr =>
    have hload := load_moved hf hl (.find hs hr) rfl
    simp only [hs, SessionStage.weight, SessionAction.advances, if_true]
    omega
  | write hs | writeLate hs | flush hs | fail hs | failFlushing hs =>
    simp only [moved, request?, Option.elim_none, hs, SessionStage.weight, SessionAction.advances,
      if_true]
    omega
  | sayGoodbye hs =>
    have hopen : s.stage.isOpen = true := by rw [hs]; rfl
    have hweight := SessionStage.weight_of_isOpen hopen
    simp only [moved, request?, Option.elim_none, SessionAction.advances, if_true]
    omega
  | readLast ho hi =>
    have hweight := SessionStage.weight_of_isOpen ho
    simp only [moved, request?, Option.elim_none, SessionAction.advances, hi, if_true]
    omega
  | read ho hi =>
    simp only [moved, request?, Option.elim_none, SessionAction.advances, hi, Bool.false_eq_true,
      if_false, Nat.add_zero, Nat.le_refl]
  | remove hs =>
    have hload := load_moved hf hl (.remove hs) rfl
    simp only [hs, SessionStage.weight, SessionAction.advances, if_true]
    omega
  | giveUp hs =>
    have hload := load_moved hf hl (.giveUp hs) rfl
    simp only [hs, SessionStage.weight, SessionAction.advances, if_true]
    omega
  | other ha hc =>
    rw [Nat.add_right_comm]
    exact Nat.add_le_add_right (load_moved hf hl (.other ha hc) rfl) _

theorem isListed_moved (hf : Follows capacity entries s)
    (hl : s.shared.registry.isListed s.client = false) :
    (s.moved a stage).shared.registry.isListed s.client = false := by
  obtain ⟨q, hq, -⟩ := hf.queue
  simp only [moved]
  cases s.request? a with
  | none => exact hl
  | some b => exact SharedRegistry.isListed_after_of_some hq hl b

/-- **A session whose client is off the list can only do so much**: what it has done by then and
what is left to do are together no more than what was left at first. -/
theorem work_run (hf : Follows capacity entries s)
    (hl : s.shared.registry.isListed s.client = false) (h : s.run as = some t) :
    as.countP (SessionAction.advances s.client) + t.work ≤ s.work := by
  induction as generalizing s entries with
  | nil =>
    cases h
    exact Nat.le_of_eq (Nat.zero_add _)
  | cons a rest ih =>
    obtain ⟨s', hs', hrest⟩ := Option.bind_eq_some_iff.1 h
    obtain ⟨stage, hm, rfl⟩ := step_eq_some_iff.1 hs'
    have hstep := work_moved hf hl hm
    have hrun : rest.countP (SessionAction.advances s.client) + t.work ≤ (s.moved a stage).work :=
      ih (hf.moved hm) (isListed_moved hf hl) hrest
    rw [List.countP_cons]
    omega

/-- **A session never waits in vain** once its client is off the list: until it has ended it can go
on, or else a send to its client is still to be made. -/
theorem exists_advance (hf : Follows capacity entries s) (hne : s.stage ≠ .ended)
    (hw : s.stage = .waiting → s.shared.registry.isListed s.client = false) :
    ∃ a t, a.advances s.client = true ∧ a.isBreak = false ∧ s.step a = some t := by
  suffices hmoves : ∃ a stage, a.advances s.client = true ∧ a.isBreak = false ∧ Moves s a stage by
    obtain ⟨a, stage, ha, hb, hm⟩ := hmoves
    exact ⟨a, _, ha, hb, step_eq_some_iff.2 ⟨stage, hm, rfl⟩⟩
  cases hs : s.stage with
  | waiting =>
    obtain ⟨q, hq, hr⟩ := hf.queue
    have hlisted : q.listed = false := by simpa [Registry.isListed, hq] using hw hs
    have hreceived := SharedRegistry.received_eq s.shared s.client
    simp only [hq, hr hne, hlisted, Bool.true_eq_false, if_false, Bool.false_or] at hreceived
    cases hqueued : q.queued with
    | cons payload rest =>
      rw [hqueued] at hreceived
      exact ⟨.take, _, rfl, rfl, .take hs hreceived⟩
    | nil =>
      rw [hqueued] at hreceived
      cases hsending : s.shared.sending.any (·.1 == s.client) with
      | false => exact ⟨.take, _, rfl, rfl, .find hs (by simpa [hsending] using hreceived)⟩
      | true =>
        -- the queue is drained, but a send holds it
        obtain ⟨⟨c, payload⟩, hp, hc⟩ := List.any_eq_true.1 hsending
        exact ⟨.other (.deliver c payload), _, hc, rfl, .other (List.contains_iff_mem.2 hp) rfl⟩
  | sending payload => exact ⟨.write, _, rfl, rfl, .write hs⟩
  | flushing => exact ⟨.flush, _, rfl, rfl, .flush hs⟩
  | closing held => exact ⟨.sayGoodbye, _, rfl, rfl, .sayGoodbye hs⟩
  | leaving => exact ⟨.remove, _, rfl, rfl, .remove hs⟩
  | removed => exact ⟨.giveUp, _, rfl, rfl, .giveUp hs⟩
  | ended => exact absurd hs hne

/-! ### What a session has come to -/

/-- **What a session has come to** by the actions of a run, `past` being what was done to the
registry before it was opened. -/
structure Serves (capacity : Nat) (past : List RegistryEntry) (r : SharedRegistry)
    (as : List SessionAction) (t : ClientSession) : Prop where
  /-- The client is the one that joined when the session was opened. -/
  client_eq : t.client = r.registry.register.1
  /-- All that was ever done to the registry is in the log. -/
  recorded : ∃ bs, (SharedRegistry.fresh capacity).run bs = some (history past r as, t.shared)
  /-- The frames that the socket has taken are the first ones that were queued. -/
  written_prefix : t.written <+: accepted t.client (history past r as)
  /-- If neither the socket failed nor the client went first, then all that was queued is written
  when the session says goodbye, and nothing more can be queued. -/
  complete : (opened r).Unbroken as → t.stage.isParting = true →
    t.written = accepted t.client (history past r as) ∧ t.client ∉ t.shared.registry.ids ∧
      ∀ payload, (t.client, payload) ∉ t.shared.sending
  /-- From its removal on the client is off the list. -/
  off_list : t.stage = .removed ∨ t.stage = .ended → t.client ∉ t.shared.registry.ids
  /-- Of the others those are listed who joined and whom others have not removed since. -/
  others : ∀ k, k ≠ t.client → (k ∈ t.shared.registry.ids ↔
    ListedBy (past ++ r.opening :: (opened r).foreign as) k)
  /-- A session only waits as long as its client is listed or a send holds its queue. -/
  goes_on : t.stage ≠ .ended → (t.stage = .waiting → t.client ∉ t.shared.registry.ids) →
    ∃ a u, a.advances t.client = true ∧ a.isBreak = false ∧ t.step a = some u
  /-- Once its client is off the list it does not go on for ever. -/
  ends : t.client ∉ t.shared.registry.ids → ∀ more u, t.run more = some u →
    more.countP (SessionAction.advances t.client) + u.work ≤ t.work

/-- **What a session does.** It is opened in a registry to which anything may have been done, and
then it acts and others act, in whatever order. -/
theorem serves_run (hr : (SharedRegistry.fresh capacity).run before = some (past, r))
    (h : (opened r).run as = some t) : Serves capacity past r as t := by
  have hf : Follows capacity (history past r as) t := follows_run hr h
  have hids : ∀ k, k ∉ t.shared.registry.ids ↔ t.shared.registry.isListed k = false := fun k => by
    rw [Registry.mem_ids, Bool.not_eq_true]
  exact {
    client_eq := client_run h
    recorded := hf.recorded
    written_prefix := by
      obtain ⟨rest, hrest, -⟩ := hf.in_step
      have hyielded : t.written <+: yielded t.client (history past r as) := ⟨rest, hrest⟩
      exact hyielded.trans (hf.kept.balanced t.client).isPrefix
    complete := fun hunbroken hp => by
      have hdrained := (drained_run hr h hunbroken hp).2
      exact ⟨hdrained.all_written, (hids _).2 hdrained.idle.off_list, hdrained.idle.no_sends⟩
    off_list := fun hstage => (hids _).2 (hf.off_list hstage)
    others := fun k hk => by
      rw [Registry.mem_ids]
      exact listedBy_run hr h k hk
    goes_on := fun hne hw => exists_advance hf hne fun hs => (hids _).1 (hw hs)
    ends := fun hl more u hmore => work_run hf ((hids _).1 hl) hmore }

/-- The client is removed while a send has found its queue and before its frames are written. The
frame of that send is queued all the same, and both are written before the goodbye. The client says
goodbye too, when all is written. The other client stays listed. -/
theorem serves_run_removed : ∃ past r as t,
    (SharedRegistry.fresh 2).run [.event .join] = some (past, r) ∧
      as = [.other (.lookUp 2 "a"), .other (.deliver 2 "a"), .take, .other (.lookUp 2 "b"),
        .other (.event (.remove 2)), .write, .read .message, .other (.deliver 2 "b"), .flush, .take,
        .write, .flush, .take, .read .goodbye, .remove, .giveUp] ∧
      (opened r).run as = some t ∧ Serves 2 past r as t ∧ (opened r).Unbroken as ∧
      t.stage = .ended ∧ t.written = ["a", "b"] ∧ t.shared.registry.ids = [1] := by
  have hpast : (SharedRegistry.fresh 2).run [.event .join] = some (_, _) := rfl
  have hrun : (opened ((SharedRegistry.fresh 2).after (.event .join))).run
      [.other (.lookUp 2 "a"), .other (.deliver 2 "a"), .take, .other (.lookUp 2 "b"),
        .other (.event (.remove 2)), .write, .read .message, .other (.deliver 2 "b"), .flush, .take,
        .write, .flush, .take, .read .goodbye, .remove, .giveUp] = some _ := rfl
  exact ⟨_, _, _, _, hpast, rfl, hrun, serves_run hpast hrun, by decide, rfl, rfl, rfl⟩

/-- A client that goes while a frame is sent to it misses this frame and all that wait. -/
example : ((opened (SharedRegistry.fresh 2)).run
    [.other (.lookUp 1 "a"), .other (.deliver 1 "a"), .other (.lookUp 1 "b"),
      .other (.deliver 1 "b"), .take, .read .goodbye, .remove, .giveUp]).map
    (fun t => (t.written, t.shared.registry.ids)) = some ([], []) := by decide

end ClientSession

end TelemetryRelay
