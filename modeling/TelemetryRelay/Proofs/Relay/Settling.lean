import TelemetryRelay.Proofs.Relay.Ledger
import TelemetryRelay.Server.Lifecycle

/-!
# Coming to an end

After the signal to stop, the server runs its two tasks until neither can go on. What it does then
is a run like any other, in which no message is taken and no task is aborted, and unless a write
hangs both tasks have ended by it.

* `settle_finishing`: settling is a run of finishing actions.
* `settle_ended`: without a hanging write it ends both tasks.
* `stop_flow`: **a stop ends a run by such actions**, and then changes nothing but the clients.
-/

namespace TelemetryRelay

/-- What a task does to come to its end. -/
inductive Flow.Action.Finishing (write : Record → Outcome) : Flow.Action → Prop where
  | enqueue : Finishing write .enqueue
  | endRouter : Finishing write .endRouter
  | beginWrite (record : Record) : Finishing write (.beginWrite (write record))
  | finishWrite : Finishing write .finishWrite
  | endWriter : Finishing write .endWriter

namespace Flow

variable {f g g' : Flow} {as bs : List Action} {a : Action} {now : Int} {write : Record → Outcome}

/-- The writer waits for no write that hangs. -/
def Hangless (f : Flow) : Prop := ∀ record, f.writer ≠ .writing record .hangs

/-- A flow that was told to stop stays so. -/
theorem stopping_step (hs : Step f a g) (h : f.stopping = true) : g.stopping = true := by
  cases hs with
  | signal => rfl
  | _ => exact h

theorem stopping_run (h : f.run as = some g) (hs : f.stopping = true) : g.stopping = true :=
  run_induction (P := fun _ g => g.stopping = true) hs
    (fun _ _ _ _ _ ih hs => stopping_step hs ih) h

/-- **The next step that the server lets the tasks take.** -/
theorem advance?_cases (h : f.advance? now write = some g) :
    ∃ a, Step f a g ∧ (a.Finishing write ∨ a = .route now) := by
  unfold advance? at h
  split at h
  case h_1 a ha =>
    refine ⟨a, step_eq_some_iff.1 h, Or.inl ?_⟩
    unfold writerAction? at ha
    split at ha
    case h_1 => cases ha; exact .finishWrite
    case h_2 => cases ha; exact .finishWrite
    case h_3 => cases ha; exact .beginWrite _
    case h_4 => cases ha; exact .endWriter
    case h_5 => cases ha
  case h_2 =>
    obtain ⟨a, ha, h⟩ := Option.bind_eq_some_iff.1 h
    refine ⟨a, step_eq_some_iff.1 h, ?_⟩
    unfold routerAction? at ha
    split at ha
    case h_1 =>
      split at ha
      · cases ha; exact Or.inl .endRouter
      · split at ha
        · cases ha
        · cases ha; exact Or.inr rfl
    case h_2 => cases ha; exact Or.inl .enqueue
    case h_3 => cases ha

/-- **The next step after the signal to stop** takes no message. -/
theorem advance?_finishing (hs : f.stopping = true) (h : f.advance? now write = some g) :
    ∃ a, Step f a g ∧ a.Finishing write := by
  obtain ⟨a, ha, hfin | rfl⟩ := advance?_cases h
  · exact ⟨a, ha, hfin⟩
  · cases ha with
    | route _ _ hn => rw [hs] at hn; cases hn

/-- **Settling after the signal to stop is a run** of finishing actions. -/
theorem settle_finishing (hs : f.stopping = true) : ∃ bs,
    f.run bs = some (f.settle now write) ∧ ∀ a ∈ bs, a.Finishing write := by
  fun_induction settle now write f with
  | case1 f h => exact ⟨[], rfl, fun a ha => by cases ha⟩
  | case2 f g h ih =>
    obtain ⟨a, ha, hfin⟩ := advance?_finishing hs h
    obtain ⟨bs, hrun, hbs⟩ := ih (stopping_step ha hs)
    refine ⟨a :: bs, ?_, List.forall_mem_cons.2 ⟨hfin, hbs⟩⟩
    rw [run, ha.to_step, Option.bind_some, hrun]

/-- Where settling ends, neither task can go on. -/
theorem settle_stuck : (f.settle now write).advance? now write = none := by
  fun_induction settle now write f with
  | case1 f h => exact h
  | case2 f g h ih => exact ih

theorem settle_of_stuck (h : f.advance? now write = none) : f.settle now write = f := by
  unfold settle
  split
  · rfl
  · rename_i hg; rw [h] at hg; cases hg

/-- No write begins to hang if none is to. -/
theorem hangless_run (hw : ∀ record, write record ≠ .hangs) (hf : f.Hangless)
    (h : f.run as = some g) (has : ∀ a ∈ as, a.Finishing write) : g.Hangless := by
  revert has
  refine run_induction (P := fun as g => (∀ a ∈ as, a.Finishing write) → g.Hangless)
    (fun _ => hf) ?_ h
  intro as g a g' _ ih hs has
  have hg := ih fun b hb => has b (List.mem_append_left _ hb)
  have hfin := has a (by simp)
  intro record
  cases hs with
  | beginWrite o hwait hq =>
    cases hfin
    exact fun h => hw _ (by injection h)
  | finishWrite => exact WriterTask.noConfusion
  | failWrite => exact WriterTask.noConfusion
  | endWriter => exact WriterTask.noConfusion
  | abortWriter => cases hfin
  | _ => exact hg record

/-- Where the server can let no task go on, neither can. -/
theorem actions_of_stuck (h : f.advance? now write = none) :
    f.writerAction? write = none ∧ (f.routerAction? now).bind f.step = none := by
  unfold advance? at h
  split at h
  · -- an action that the writer can take is possible
    rename_i a ha
    exfalso
    unfold writerAction? at ha
    split at ha
    case h_1 hf => cases ha; simp [step, hf] at h
    case h_2 hf => cases ha; simp [step, hf] at h
    case h_3 hf hq => cases ha; simp [step, hf, hq] at h
    case h_4 hf hq hr => cases ha; simp [step, hf, hq, hr] at h
    case h_5 => cases ha
  · exact ⟨‹_›, h⟩

/-- Where neither task can go on after the signal to stop, both have ended. -/
theorem ended_of_stuck (hs : f.stopping = true) (hc : 0 < f.capacity) (hh : f.Hangless)
    (hw : f.writer = .ended → f.router = .ended) (h : f.advance? now write = none) :
    f.router = .ended ∧ f.writer = .ended := by
  obtain ⟨hnone, h⟩ := actions_of_stuck h
  cases hf : f.writer with
  | ended => exact ⟨hw hf, rfl⟩
  | writing record outcome =>
    exfalso
    cases outcome with
    | succeeds => simp [writerAction?, hf] at hnone
    | fails causes => simp [writerAction?, hf] at hnone
    | hangs => exact hh record hf
  | waiting =>
    -- with an empty queue it is the router that goes on, and there is room for its record
    exfalso
    cases hq : f.queue with
    | cons record rest => simp [writerAction?, hf, hq] at hnone
    | nil =>
      cases hr : f.router with
      | ended => simp [writerAction?, hf, hq, hr] at hnone
      | receiving => simp [routerAction?, step, hr, hs] at h
      | offering record => simp [routerAction?, step, hr, hf, hq, hc] at h

/-- **Settling ends both tasks** if no write hangs. -/
theorem settle_ended (hl : f.Launched) (hc : 0 < f.capacity) (h : f.run as = some g)
    (hn : .abortWriter ∉ as) (hs : g.stopping = true) (hh : g.Hangless)
    (hw : ∀ record, write record ≠ .hangs) :
    (g.settle now write).router = .ended ∧ (g.settle now write).writer = .ended := by
  obtain ⟨bs, hrun, hbs⟩ := @settle_finishing g now write hs
  have hall : f.run (as ++ bs) = some (g.settle now write) := by
    rw [run_append, h]; exact hrun
  refine ended_of_stuck ?_ ?_ (hangless_run hw hh hrun hbs) (fun hwe => ?_) settle_stuck
  · exact stopping_run hrun hs
  · rw [(run_config hall).2]; exact hc
  · rcases router_ended_of_writer hl hall hwe with hr | hab
    · exact hr
    · rcases List.mem_append.1 hab with hab | hab
      · exact absurd hab hn
      · cases hbs _ hab

end Flow

namespace Server

variable {s : Server} {f : Flow} {as : List Flow.Action} {now : Int} {outcome : Call → Outcome}
  {write : Record → Outcome}

/-- A stop after which both tasks have ended by themselves changes only the clients besides. -/
theorem stop_of_ended (hp : s.phase = .running)
    (hr : (s.flow.signal.settle now write).router = .ended)
    (hw : (s.flow.signal.settle now write).writer = .ended) :
    ∃ clients, (s.stop now outcome write).1.flow =
      { s.flow.signal.settle now write with clients } := by
  unfold stop
  rw [if_neg (not_not.2 hp)]
  simp only [settle, joinRouter, joinWriter, Flow.routerEnded, Flow.writerEnded, hr, hw, if_true,
    Flow.settle_of_stuck Flow.settle_stuck, releaseAll]
  exact ⟨_, rfl⟩

/-- **A stop ends a run.** If no write hangs, the two tasks come to their ends by themselves. -/
theorem stop_flow (hl : f.Launched) (hc : 0 < f.capacity) (h : f.run as = some s.flow)
    (hn : .abortWriter ∉ as) (hp : s.phase = .running) (hh : s.flow.Hangless)
    (hw : ∀ record, write record ≠ .hangs) :
    ∃ bs g clients, f.run (as ++ .signal :: bs) = some g ∧ (∀ a ∈ bs, a.Finishing write) ∧
      g.router = .ended ∧ g.writer = .ended ∧
      (s.stop now outcome write).1.flow = { g with clients } := by
  have hsig : f.run (as ++ [.signal]) = some s.flow.signal := by
    rw [Flow.run_append, h]; rfl
  obtain ⟨bs, hrun, hbs⟩ :=
    @Flow.settle_finishing s.flow.signal now write rfl
  obtain ⟨hr, hwe⟩ := @Flow.settle_ended f _ _ now write hl hc hsig (by simpa using hn) rfl hh hw
  obtain ⟨clients, hstop⟩ := @stop_of_ended s now outcome write hp hr hwe
  refine ⟨bs, _, clients, ?_, hbs, hr, hwe, hstop⟩
  rw [List.append_cons, Flow.run_append, hsig]
  exact hrun

end Server

end TelemetryRelay
