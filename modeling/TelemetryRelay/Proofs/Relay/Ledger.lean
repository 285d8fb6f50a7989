import TelemetryRelay.Proofs.Relay.Trace

/-!
# Where the records of a run are

Every record of a routed message is somewhere: the router still offers it, it was refused because
the writer is gone, it waits in the queue, or its write was begun. Nothing is in two places, and the
places keep the order of routing.

* `records_eq`: the records of a run, behind the one offered at its start, are those handed over,
  then the one still offered, and then at most one that an abort of the router gave up.
* `handed_eq`: the records handed over are those whose writes were begun, then those that wait, and
  then what an abort of the writer gave up or kept from being queued.
* `begun_eq`: the writes begun are those answered, then the one in progress, and then at most one
  that an abort of the writer gave up.
* `failures_eq`: the failures counted are the refused records and the writes that failed.
* `exists_placed`: **every record of a run has its place** (`Placed`).
* `written_of_ended`, `archived_length_of_ended`: **where both tasks end without an abort, every
  record was written, and every write has succeeded or was counted.**
-/

namespace TelemetryRelay

/-- What is there only under a condition is not there without it. -/
theorem eq_nil_of_imp {α : Type} {l : List α} {p : Prop} (h : l ≠ [] → p) (hp : ¬ p) : l = [] := by
  by_contra hne
  exact hp (h hne)

/-- Whether a call fails. -/
def Outcome.failed : Outcome → Bool
  | .fails _ => true
  | _ => false

/-- Counting a verdict counts no failure. -/
theorem Tally.count_historyFailures (t : Tally) (v : Verdict) :
    (t.count v).historyFailures = t.historyFailures := by
  cases v <;> rfl

namespace Flow

variable {f g g' : Flow} {as : List Action} {a : Action}

/-- The record that the router offers to the queue. -/
def offered (f : Flow) : Option Record :=
  match f.router with
  | .offering record => some record
  | _ => none

/-- The write that the writer waits for. -/
def inProgress (f : Flow) : Option (Record × Outcome) :=
  match f.writer with
  | .writing record outcome => some (record, outcome)
  | _ => none

/-- The records whose writes were begun, in order. -/
def written (f : Flow) : List Record := f.begun.reverse.map (·.1)

/-- **The records of the messages that a run routes**, in order. -/
def records (f : Flow) (as : List Action) : List Record :=
  (f.routed as).filterMap fun a => (Relay.judge f.dictionaries a.now a.message).record?

theorem writerEnded_eq_false (hw : f.writer ≠ .ended) : f.writerEnded = false := by
  unfold writerEnded
  split
  · exact absurd ‹_› hw
  · rfl

/-- Both tasks have started, and nothing has been done yet. -/
structure Launched (f : Flow) : Prop where
  router : f.router = .receiving
  writer : f.writer = .waiting
  queue : f.queue = []
  begun : f.begun = []
  tally : f.tally = {}

theorem launched_launch (dictionaries : List Dictionary) (clients : Registry) (capacity : Nat)
    (early : List Message) : (launch { dictionaries, clients, capacity } early).Launched :=
  ⟨rfl, rfl, rfl, rfl, rfl⟩

theorem offered_of_launched (hl : f.Launched) : f.offered = none := by
  rw [offered, hl.router]

theorem records_concat (h : f.run as = some g) (ha : Step g a g') :
    f.records (as ++ [a]) = f.records as ++
      (g.taken a).filterMap fun x => (Relay.judge f.dictionaries x.now x.message).record? := by
  rw [records, routed_concat h ha, List.filterMap_append]
  rfl

/-- What the router offers after taking a message is the message's record. -/
theorem offered_take (now : Int) (m : Message) (rest : List Message) :
    (f.take now m rest).offered = (Relay.judge f.dictionaries now m).record? := by
  unfold take offered
  dsimp only
  cases (Relay.judge f.dictionaries now m).record? <;> rfl

/-- **The records of a run, as far as the router.** The one that it offers at the start comes before
them. -/
theorem records_eq (h : f.run as = some g) :
    ∃ lost, (f.handed as).map (·.1) ++ g.offered.toList ++ lost =
        f.offered.toList ++ f.records as ∧
      lost.length ≤ 1 ∧ (lost ≠ [] → g.router = .ended ∧ .abortRouter ∈ as) := by
  refine run_induction (P := fun as g => ∃ lost,
    (f.handed as).map (·.1) ++ g.offered.toList ++ lost = f.offered.toList ++ f.records as ∧
      lost.length ≤ 1 ∧ (lost ≠ [] → g.router = .ended ∧ .abortRouter ∈ as)) ?_ ?_ h
  · exact ⟨[], by simp [handed, records, routed, along], by simp, by simp⟩
  intro as g a g' hg ih hs
  obtain ⟨lost, heq, hlen, hlost⟩ := ih
  rw [handed_concat hg hs, records_concat hg hs, (run_config hg).1.symm, ← List.append_assoc, ← heq]
  -- unless the router has ended, nothing is lost yet
  have hnil : g.router ≠ .ended → lost = [] := fun hr =>
    eq_nil_of_imp hlost fun h => hr h.1
  have hmem : lost ≠ [] → g.router = .ended ∧ Action.abortRouter ∈ as ++ [a] := fun hne =>
    ⟨(hlost hne).1, List.mem_append_left _ (hlost hne).2⟩
  cases hs with
  | route now hr hst hi =>
    obtain rfl := hnil (by simp [hr])
    refine ⟨[], ?_, by simp, by simp⟩
    rw [offered_take]
    simp [offered, handing, taken, hr, hi, Option.toList, List.filterMap_cons]
    cases (Relay.judge g.dictionaries now _).record? <;> rfl
  | refuse hr hw =>
    obtain rfl := hnil (by simp [hr])
    refine ⟨[], ?_, by simp, by simp⟩
    simp [offered, handing, taken, hr]
  | enqueue hr hw hq =>
    obtain rfl := hnil (by simp [hr])
    refine ⟨[], ?_, by simp, by simp⟩
    simp [offered, handing, taken, hr]
  | endRouter hr he =>
    obtain rfl := hnil (by simp [hr])
    refine ⟨[], ?_, by simp, by simp⟩
    simp [offered, handing, taken, hr]
  | abortRouter =>
    refine ⟨g.offered.toList ++ lost, ?_, ?_, fun _ => ⟨rfl, by simp⟩⟩
    · simp [offered, handing, taken]
    · by_cases hr : g.router = .ended
      · simpa [offered, hr] using hlen
      · rw [hnil hr, List.append_nil]
        cases g.offered <;> simp
  | _ => exact ⟨lost, by simp [handing, taken, offered], hlen, hmem⟩

/-- The writer ends before the router only by being aborted. -/
theorem router_ended_of_writer (hl : f.Launched) (h : f.run as = some g) (hw : g.writer = .ended) :
    g.router = .ended ∨ .abortWriter ∈ as := by
  refine run_induction (P := fun as g => g.writer = .ended → g.router = .ended ∨ .abortWriter ∈ as)
    ?_ ?_ h hw
  · intro hw; rw [hl.writer] at hw; cases hw
  intro as g a g' hg ih hs hw
  -- a router that still acts has not ended, so the writer was aborted
  cases hs with
  | route now hr hst hi =>
    rcases ih hw with h | h
    · rw [hr] at h; cases h
    · exact Or.inr (List.mem_append_left _ h)
  | refuse hr _ =>
    rcases ih hw with h | h
    · rw [hr] at h; cases h
    · exact Or.inr (List.mem_append_left _ h)
  | enqueue hr hne _ => exact absurd hw hne
  | endRouter => exact Or.inl rfl
  | abortRouter => exact Or.inl rfl
  | beginWrite => cases hw
  | finishWrite => cases hw
  | failWrite => cases hw
  | endWriter _ _ hr => exact Or.inl hr
  | abortWriter => exact Or.inr (by simp)
  | _ => exact (ih hw).imp_right (List.mem_append_left _)

/-- **The records handed over, as far as the queue.** -/
theorem handed_eq (hl : f.Launched) (h : f.run as = some g) :
    ∃ dropped refused, f.handed as =
        (g.written ++ g.queue ++ dropped).map (·, false) ++ refused.map (·, true) ∧
      (dropped ++ refused ≠ [] → g.writer = .ended ∧ .abortWriter ∈ as) := by
  refine run_induction (P := fun as g => ∃ dropped refused, f.handed as =
      (g.written ++ g.queue ++ dropped).map (·, false) ++ refused.map (·, true) ∧
    (dropped ++ refused ≠ [] → g.writer = .ended ∧ .abortWriter ∈ as)) ?_ ?_ h
  · exact ⟨[], [], by simp [handed, along, written, hl.begun, hl.queue], by simp⟩
  intro as g a g' hg ih hs
  obtain ⟨dropped, refused, heq, hgone⟩ := ih
  rw [handed_concat hg hs, heq]
  -- unless the writer has ended, nothing is dropped or refused yet
  have hnil : g.writer ≠ .ended → dropped = [] ∧ refused = [] := fun hw =>
    List.append_eq_nil_iff.1 (eq_nil_of_imp hgone fun h => hw h.1)
  have hmem : dropped ++ refused ≠ [] → g.writer = .ended ∧ Action.abortWriter ∈ as ++ [a] :=
    fun hne => ⟨(hgone hne).1, List.mem_append_left _ (hgone hne).2⟩
  cases hs with
  | @refuse record hr hw =>
    refine ⟨dropped, refused ++ [record], by simp [written, handing, hr, writerEnded, hw],
      fun _ => ⟨hw, ?_⟩⟩
    rcases router_ended_of_writer hl hg hw with h | h
    · rw [hr] at h; cases h
    · exact List.mem_append_left _ h
  | enqueue hr hw hq =>
    obtain ⟨rfl, rfl⟩ := hnil hw
    exact ⟨[], [], by simp [written, handing, hr, writerEnded_eq_false hw], by simp⟩
  | beginWrite o hw hq =>
    obtain ⟨rfl, rfl⟩ := hnil (by simp [hw])
    exact ⟨[], [], by simp [written, handing, hq], by simp⟩
  | finishWrite hw =>
    obtain ⟨rfl, rfl⟩ := hnil (by simp [hw])
    exact ⟨[], [], by simp [written, handing], by simp⟩
  | failWrite hw =>
    obtain ⟨rfl, rfl⟩ := hnil (by simp [hw])
    exact ⟨[], [], by simp [written, handing], by simp⟩
  | endWriter hw hq hr =>
    obtain ⟨rfl, rfl⟩ := hnil (by simp [hw])
    exact ⟨[], [], by simp [written, handing, hq], by simp⟩
  | abortWriter =>
    exact ⟨g.queue ++ dropped, refused, by simp [written, handing], fun _ => ⟨rfl, by simp⟩⟩
  | _ => exact ⟨dropped, refused, by simp [written, handing, take], hmem⟩

/-- **The writes begun, as far as their answers.** -/
theorem begun_eq (hl : f.Launched) (h : f.run as = some g) :
    ∃ cut, f.answered as ++ g.inProgress.toList ++ cut = g.begun.reverse ∧
      (cut ≠ [] → g.writer = .ended ∧ .abortWriter ∈ as) := by
  refine run_induction (P := fun as g => ∃ cut,
    f.answered as ++ g.inProgress.toList ++ cut = g.begun.reverse ∧
      (cut ≠ [] → g.writer = .ended ∧ .abortWriter ∈ as)) ?_ ?_ h
  · exact ⟨[], by simp [answered, along, inProgress, hl.begun, hl.writer], by simp⟩
  intro as g a g' hg ih hs
  obtain ⟨cut, heq, hcut⟩ := ih
  rw [answered_concat hg hs]
  have hnil : g.writer ≠ .ended → cut = [] := fun hw =>
    eq_nil_of_imp hcut fun h => hw h.1
  have hmem : cut ≠ [] → g.writer = .ended ∧ Action.abortWriter ∈ as ++ [a] := fun hne =>
    ⟨(hcut hne).1, List.mem_append_left _ (hcut hne).2⟩
  cases hs with
  | beginWrite o hw hq =>
    obtain rfl := hnil (by simp [hw])
    exact ⟨[], by simpa [answering, inProgress, hw] using heq, by simp⟩
  | finishWrite hw =>
    obtain rfl := hnil (by simp [hw])
    exact ⟨[], by simpa [answering, inProgress, hw] using heq, by simp⟩
  | failWrite hw =>
    obtain rfl := hnil (by simp [hw])
    exact ⟨[], by simpa [answering, inProgress, hw] using heq, by simp⟩
  | endWriter hw hq hr =>
    obtain rfl := hnil (by simp [hw])
    exact ⟨[], by simpa [answering, inProgress, hw] using heq, by simp⟩
  | abortWriter =>
    exact ⟨g.inProgress.toList ++ cut, by simpa [answering, inProgress] using heq,
      fun _ => ⟨rfl, by simp⟩⟩
  | _ => exact ⟨cut, by simpa [answering, inProgress, take] using heq, hmem⟩

/-- **The failures counted** are the records that were refused and the writes that failed. -/
theorem failures_eq (hl : f.Launched) (h : f.run as = some g) :
    g.tally.historyFailures =
      (f.handed as).countP (·.2) + (f.answered as).countP (·.2.failed) := by
  refine run_induction (P := fun as g => g.tally.historyFailures =
    (f.handed as).countP (·.2) + (f.answered as).countP (·.2.failed)) ?_ ?_ h
  · simp [handed, answered, along, hl.tally]
  intro as g a g' hg ih hs
  rw [handed_concat hg hs, answered_concat hg hs, List.countP_append, List.countP_append]
  cases hs with
  | route now hr hst hi =>
    simpa [handing, answering, take, Tally.count_historyFailures] using ih
  | refuse hr hw =>
    simp [handing, answering, hr, hw, writerEnded, Tally.addFailure, ih]; omega
  | enqueue hr hw hq =>
    simp [handing, answering, hr, writerEnded_eq_false hw, ih]
  | finishWrite hw => simp [handing, answering, hw, Outcome.failed, ih]
  | failWrite hw =>
    simp [handing, answering, hw, Outcome.failed, Tally.addFailure, ih]; omega
  | _ => simpa [handing, answering] using ih

/-- **Where the records of a run are**, in the order of routing: first those whose writes were begun,
then those that wait, those that an abort of the writer gave up, those that were refused after it,
the one that is still offered, and last one that an abort of the router gave up. -/
structure Placed (f : Flow) (as : List Action) (g : Flow) (dropped refused lost : List Record) :
    Prop where
  records : g.written ++ g.queue ++ dropped ++ refused ++ g.offered.toList ++ lost = f.records as
  handed : f.handed as =
    (g.written ++ g.queue ++ dropped).map (·, false) ++ refused.map (·, true)
  failures : g.tally.historyFailures = refused.length + (f.answered as).countP (·.2.failed)
  writer : dropped ++ refused ≠ [] → .abortWriter ∈ as
  one : lost.length ≤ 1
  router : lost ≠ [] → .abortRouter ∈ as

/-- **Every record of a run has its place.** -/
theorem exists_placed (hl : f.Launched) (h : f.run as = some g) :
    ∃ dropped refused lost, Placed f as g dropped refused lost := by
  obtain ⟨lost, hrec, hone, hlost⟩ := records_eq h
  rw [offered_of_launched hl, Option.toList_none, List.nil_append] at hrec
  obtain ⟨dropped, refused, hhand, hgone⟩ := handed_eq hl h
  have hfst : (f.handed as).map (·.1) = g.written ++ g.queue ++ dropped ++ refused := by
    rw [hhand]; simp [Function.comp_def]
  have hcount : (f.handed as).countP (·.2) = refused.length := by
    rw [hhand]; simp [List.countP_map, Function.comp_def]
  refine ⟨dropped, refused, lost, ?_, hhand, ?_, fun hne => (hgone hne).2, hone,
    fun hne => (hlost hne).2⟩
  · rw [← hrec, hfst]
  · rw [failures_eq hl h, hcount]

/-- Without an abort of the writer, the failures are the writes that failed. -/
theorem failures_of_not_aborted (hl : f.Launched) (h : f.run as = some g)
    (hnw : .abortWriter ∉ as) :
    g.tally.historyFailures = (f.answered as).countP (·.2.failed) := by
  obtain ⟨dropped, refused, lost, hp⟩ := exists_placed hl h
  obtain ⟨-, rfl⟩ := List.append_eq_nil_iff.1 (eq_nil_of_imp hp.writer hnw)
  simpa using hp.failures

/-- No more records wait than may. -/
theorem queue_le (hl : f.Launched) (h : f.run as = some g) : g.queue.length ≤ g.capacity := by
  refine run_induction (P := fun _ g => g.queue.length ≤ g.capacity) ?_ ?_ h
  · rw [hl.queue]; exact Nat.zero_le _
  intro as g a g' _ ih hs
  cases hs with
  | enqueue hr hw hq => rw [List.length_append]; exact hq
  | beginWrite o hw hq => rw [hq] at ih; exact Nat.le_of_succ_le ih
  | endWriter => exact Nat.zero_le _
  | abortWriter => exact Nat.zero_le _
  | _ => exact ih

/-! ### Runs to the end -/

/-- Nothing waits for a writer that has ended. -/
theorem queue_of_ended (hl : f.Launched) (h : f.run as = some g) (hw : g.writer = .ended) :
    g.queue = [] := by
  refine run_induction (P := fun _ g => g.writer = .ended → g.queue = []) ?_ ?_ h hw
  · intro hw; rw [hl.writer] at hw; cases hw
  intro as g a g' _ ih hs hw
  cases hs with
  | enqueue _ hne _ => exact absurd hw hne
  | beginWrite => cases hw
  | finishWrite => cases hw
  | failWrite => cases hw
  | endWriter => rfl
  | abortWriter => rfl
  | _ => exact ih hw

/-- **The writes of a run to the end are its records**, if no task was aborted. -/
theorem written_of_ended (hl : f.Launched) (h : f.run as = some g) (hnr : .abortRouter ∉ as)
    (hnw : .abortWriter ∉ as) (hr : g.router = .ended) (hw : g.writer = .ended) :
    g.written = f.records as := by
  obtain ⟨dropped, refused, lost, hp⟩ := exists_placed hl h
  obtain ⟨rfl, rfl⟩ := List.append_eq_nil_iff.1 (eq_nil_of_imp hp.writer hnw)
  obtain rfl := eq_nil_of_imp hp.router hnr
  have ho : g.offered = none := by rw [offered, hr]
  simpa [queue_of_ended hl h hw, ho] using hp.records

/-- An answered write has succeeded or failed. -/
theorem failed_of_answered (h : f.run as = some g) :
    ∀ w ∈ f.answered as, w.2.failed = !(w.2 == .succeeds) := by
  refine run_induction (P := fun as _ => ∀ w ∈ f.answered as, w.2.failed = !(w.2 == .succeeds))
    (fun w hw => by cases hw) ?_ h
  intro as g a g' hg ih hs w hw
  rw [answered_concat hg hs] at hw
  rcases List.mem_append.1 hw with hw | hw
  · exact ih w hw
  cases hs with
  | finishWrite hwr =>
    rw [answering, hwr] at hw
    rw [List.mem_singleton.1 hw]; rfl
  | failWrite hwr =>
    rw [answering, hwr] at hw
    rw [List.mem_singleton.1 hw]; rfl
  | _ => cases hw

/-- **Every write of a run to the end has succeeded or was counted as a failure.** -/
theorem archived_length_of_ended (hl : f.Launched) (h : f.run as = some g)
    (hnw : .abortWriter ∉ as) (hw : g.writer = .ended) :
    g.archived.length + g.tally.historyFailures = g.written.length := by
  obtain ⟨cut, hans, hcut⟩ := begun_eq hl h
  obtain rfl := eq_nil_of_imp hcut fun h => hnw h.2
  have hnone : g.inProgress = none := by rw [inProgress, hw]
  rw [hnone, Option.toList_none, List.append_nil, List.append_nil] at hans
  -- an answer that is no failure is a success
  have hcount : (f.answered as).countP (·.2.failed) =
      (f.answered as).countP fun w => !(w.2 == .succeeds) :=
    List.countP_congr fun w hw => by rw [failed_of_answered h w hw]
  rw [failures_of_not_aborted hl h hnw, hcount, archived, written, List.length_map,
    List.length_map, ← hans, ← List.countP_eq_length_filter]
  have hsplit := List.length_eq_countP_add_countP (l := f.answered as)
    fun w => w.2 == .succeeds
  rw [hsplit]
  congr 1
  exact List.countP_congr fun w _ => by cases w.2 == .succeeds <;> simp

end Flow

end TelemetryRelay
