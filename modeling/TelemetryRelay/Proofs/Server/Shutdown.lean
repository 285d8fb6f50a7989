import Mathlib.Logic.Function.Basic
import TelemetryRelay.Proofs.Relay.Settling
import TelemetryRelay.Proofs.Server.Startup

/-!
# Shutdowns under every schedule

A stop tells the router to end, waits for it and then for the writer, and closes the backends one
after the other. Every wait is over once its limit has passed, and a task that is late is aborted
there. Meanwhile the tasks, the broker, the archive and the clients go on in any order, and every
write and every close has an outcome of its own. `Shutdown.Run` is the set of all such stops.

The tasks may run on other threads, so neither the signal nor an abort takes effect at once. The
signal is found when the router next looks for it, which it does after each message. An abort is a
request: a task that is found waiting does nothing more, one that is found at work goes on until it
next waits, and either is gone some time later. Where a task is found depends on the schedule.

* `Run.count_own`, `Run.completes`: a stop takes a fixed number of moves of its own, and at every
  moment it can take those that are left, whatever the others do.
* `Run.closes_eq`: the backends are closed in the order of the handles, each once.
* `Run.routed`: after the signal at most one message is taken.
* `Run.acts_after_close`: once a backend is being closed, a task does nothing, unless it was late
  and was found at work.
* `Run.left_ended`: a server that has been stopped has no task of its own.
-/

namespace TelemetryRelay

/-- The two tasks of a running server. -/
inductive Task where
  | router
  | writer
deriving DecidableEq

/-- What gives a task up. -/
def Task.abort : Task → Flow.Action
  | .router => .abortRouter
  | .writer => .abortWriter

/-- The task that does it, if it is one of the two. -/
def Flow.Action.task? : Flow.Action → Option Task
  | .route _ => some .router
  | .enqueue => some .router
  | .endRouter => some .router
  | .beginWrite _ => some .writer
  | .finishWrite => some .writer
  | .endWriter => some .writer
  | _ => none

namespace Flow

variable {f g : Flow} {as : List Action} {a : Action} {k : Task}

/-- Whether a task has ended. -/
def HasEnded (f : Flow) : Task → Prop
  | .router => f.router = .ended
  | .writer => f.writer = .ended

/-- The flow after an action. Whatever the router has done, it then looks for the signal to stop. -/
def noticing (f : Flow) (a : Action) : Flow := if a.task? = some .router then f.signal else f

/-- A router that has ended stays so. -/
theorem router_ended_step (hs : Step f a g) (h : f.router = .ended) : g.router = .ended := by
  cases hs with
  | route now hr => rw [h] at hr; cases hr
  | refuse hr => rw [h] at hr; cases hr
  | enqueue hr => rw [h] at hr; cases hr
  | endRouter => rfl
  | abortRouter => rfl
  | _ => exact h

/-- A writer that has ended stays so. -/
theorem writer_ended_step (hs : Step f a g) (h : f.writer = .ended) : g.writer = .ended := by
  cases hs with
  | beginWrite o hw => rw [h] at hw; cases hw
  | finishWrite hw => rw [h] at hw; cases hw
  | failWrite hw => rw [h] at hw; cases hw
  | endWriter => rfl
  | abortWriter => rfl
  | _ => exact h

theorem HasEnded.step (h : f.HasEnded k) (hs : Step f a g) : g.HasEnded k := by
  cases k with
  | router => exact router_ended_step hs h
  | writer => exact writer_ended_step hs h

theorem HasEnded.run (h : f.HasEnded k) (hrun : f.run as = some g) : g.HasEnded k :=
  run_induction (P := fun _ g => g.HasEnded k) h (fun _ _ _ _ _ ih hs => ih.step hs) hrun

/-- A task that has ended does nothing. -/
theorem HasEnded.task?_ne (h : f.HasEnded k) (hs : Step f a g) : a.task? ≠ some k := by
  intro ha
  cases hs with
  | route now hr => cases ha; cases hr.symm.trans h
  | refuse hr => cases ha; cases hr.symm.trans h
  | enqueue hr => cases ha; cases hr.symm.trans h
  | endRouter hr => cases ha; cases hr.symm.trans h
  | beginWrite o hw => cases ha; cases hw.symm.trans h
  | finishWrite hw => cases ha; cases hw.symm.trans h
  | failWrite hw => cases ha; cases hw.symm.trans h
  | endWriter hw => cases ha; cases hw.symm.trans h
  | _ => cases ha

/-- A task that is given up has ended. -/
theorem hasEnded_abort (hs : Step f k.abort g) : g.HasEnded k := by
  cases k with
  | router => cases hs; rfl
  | writer => cases hs; rfl

@[simp] theorem noticing_hasEnded : (f.noticing a).HasEnded k ↔ f.HasEnded k := by
  unfold noticing
  split <;> cases k <;> exact Iff.rfl

theorem signal_of_stopping (h : f.stopping = true) : f.signal = f := by
  obtain ⟨_, _, _, _, _, _⟩ := f
  cases h
  rfl

theorem noticing_of_stopping (h : f.stopping = true) : f.noticing a = f := by
  unfold noticing
  split
  · exact signal_of_stopping h
  · rfl

end Flow

namespace Shutdown

/-- Whether a task was aborted, and where it was found then. -/
inductive Abort where
  | none
  /-- It goes on until it next waits. -/
  | atWork
  /-- It does nothing more. -/
  | waiting
deriving DecidableEq

/-- What a stop waits for. -/
inductive Stage where
  | join (k : Task)
  /-- For nothing: the next backend is to be closed. -/
  | ready
  /-- For the close of a backend. -/
  | close (b : Backend)
  | finished

/-- What a stop comes to when it has waited for a task. -/
def Stage.after : Task → Stage
  | .router => .join .writer
  | .writer => .ready

end Shutdown

/-- A server that stops. -/
structure Shutdown where
  server : Server
  stage : Shutdown.Stage
  aborts : Task → Shutdown.Abort := fun _ => .none

namespace Shutdown

/-- One thing that happens during a stop. -/
inductive Move where
  /-- Somebody else does something. -/
  | background (a : Flow.Action)
  /-- The router finds the signal. -/
  | notice
  /-- A task has ended in time. -/
  | ended (k : Task)
  /-- The limit passes and a task is aborted. -/
  | late (k : Task) (found : Abort)
  /-- A task that was aborted is gone. -/
  | gone (k : Task)
  /-- The next backend is closed. -/
  | close (b : Backend)
  /-- The wait for a close is over. If the close hangs, the limit has passed. -/
  | closed (b : Backend) (outcome : Outcome)
  | finish

variable {s : Server} {t t' : Shutdown} {m : Move} {ms : List Move} {k : Task}

/-- The flow of samples of a server that stops. -/
def flow (t : Shutdown) : Flow := t.server.flow

/-- A stop with another flow. -/
def withFlow (t : Shutdown) (f : Flow) : Shutdown := { t with server := { t.server with flow := f } }

/-- A stop that has given a task up and goes on. -/
def abort (t : Shutdown) (k : Task) (found : Abort) : Shutdown :=
  { t with stage := .after k, aborts := Function.update t.aborts k found }

@[simp] theorem withFlow_flow (f : Flow) : (t.withFlow f).flow = f := rfl
@[simp] theorem withFlow_stage (f : Flow) : (t.withFlow f).stage = t.stage := rfl
@[simp] theorem withFlow_aborts (f : Flow) : (t.withFlow f).aborts = t.aborts := rfl

@[simp] theorem abort_aborts_self (found : Abort) : (t.abort k found).aborts k = found :=
  Function.update_self ..

theorem abort_aborts_of_ne {j : Task} (found : Abort) (h : k ≠ j) :
    (t.abort j found).aborts k = t.aborts k := Function.update_of_ne h ..

/-- **The rules of a shutdown.** -/
inductive Step (t : Shutdown) : Move → Shutdown → Prop where
  | background {a : Flow.Action} {f : Flow} (ha : a.byServer = false)
    (hfound : ∀ k, a.task? = some k → t.aborts k ≠ .waiting) (hf : Flow.Step t.flow a f) :
    Step t (.background a) (t.withFlow (f.noticing a))
  | notice : Step t .notice (t.withFlow t.flow.signal)
  | ended {k : Task} (hs : t.stage = .join k) (he : t.flow.HasEnded k) :
    Step t (.ended k) { t with stage := .after k }
  | late {k : Task} {found : Abort} (hs : t.stage = .join k) (he : ¬ t.flow.HasEnded k)
    (hfound : found ≠ .none) :
    Step t (.late k found) (t.abort k found)
  | gone {k : Task} {f : Flow} (ha : t.aborts k ≠ .none) (hf : Flow.Step t.flow k.abort f) :
    Step t (.gone k) (t.withFlow f)
  | close {b : Backend} {rest : List Backend} (hs : t.stage = .ready)
    (hh : t.server.handles = b :: rest) :
    Step t (.close b) { t with server := { t.server with handles := rest }, stage := .close b }
  | closed {b : Backend} (outcome : Outcome) (hs : t.stage = .close b) :
    Step t (.closed b outcome)
      { t.withFlow { t.flow with
          clients := Server.afterRelease (fun _ => outcome) [b] t.flow.clients } with
        stage := .ready }
  | finish (hs : t.stage = .ready) (hh : t.server.handles = []) :
    Step t .finish { t with server := { t.server with phase := .stopped }, stage := .finished }

/-- **A stop of a server, move by move**, under some schedule. It begins with the signal. -/
inductive Run (s : Server) : List Move → Shutdown → Prop where
  | begin : Run s [] { server := s, stage := .join .router }
  | step {ms : List Move} {t : Shutdown} {m : Move} {t' : Shutdown} (h : Run s ms t)
    (hs : Step t m t') : Run s (ms ++ [m]) t'

/-- The backend that a move closes. -/
def Move.closing? : Move → Option Backend
  | .close b => some b
  | _ => none

/-- The call whose outcome a move finds. -/
def Move.answer? : Move → Option (Call × Outcome)
  | .closed b outcome => some (.close b, outcome)
  | _ => none

/-- What a move does to the flow of samples. -/
def Move.actions : Move → List Flow.Action
  | .background a => if a.task? = some .router then [a, .signal] else [a]
  | .notice => [.signal]
  | .gone k => [k.abort]
  | .closed .webSocket .succeeds => [.client .removeAll]
  | _ => []

/-- The backends that a stop has closed, in order. -/
def closes (ms : List Move) : List Backend := ms.filterMap Move.closing?

/-- The closes whose outcomes a stop has found. -/
def answers (ms : List Move) : List (Call × Outcome) := ms.filterMap Move.answer?

/-- What a stop comes to for the flow of samples. -/
def actions (ms : List Move) : List Flow.Action := ms.flatMap Move.actions

/-- Whether a task did not end within its limit. -/
def Late (k : Task) (ms : List Move) : Prop := ∃ found, .late k found ∈ ms

theorem not_late_nil : ¬ Late k [] := by
  rintro ⟨found, hfound⟩
  cases hfound

theorem late_append {ms ms' : List Move} : Late k (ms ++ ms') ↔ Late k ms ∨ Late k ms' := by
  simp only [Late, List.mem_append, exists_or]

/-- Whether a task has been waited for. -/
def Stage.past : Stage → Task → Bool
  | .join .router, _ => false
  | .join .writer, k => k == .router
  | _, _ => true

/-- Whether the stop has come to the closes. -/
def Stage.closing : Stage → Bool
  | .join _ => false
  | _ => true

/-- A stop that is over has left the server stopped. -/
theorem Run.phase_of_finished (h : Run s ms t) (ho : t.stage = .finished) :
    t.server.phase = .stopped := by
  induction h with
  | begin => cases ho
  | step h hs ih =>
    cases hs with
    | background | notice | gone => exact ih ho
    | @ended k => cases k <;> cases ho
    | @late k => cases k <;> cases ho
    | finish => rfl
    | _ => cases ho

/-- A stop leaves the configuration as it is. -/
theorem Run.config_eq (h : Run s ms t) : t.server.config = s.config := by
  induction h with
  | begin => rfl
  | step h hs ih => cases hs <;> exact ih

/-! ### The order of the closes -/

theorem closes_append (ms ms' : List Move) : closes (ms ++ ms') = closes ms ++ closes ms' :=
  List.filterMap_append

theorem answers_append (ms ms' : List Move) : answers (ms ++ ms') = answers ms ++ answers ms' :=
  List.filterMap_append

/-- A move closes the first of the handles, or none. -/
theorem closes_step (hs : Step t m t') : closes [m] ++ t'.server.handles = t.server.handles := by
  cases hs with
  | close hs hh => exact hh.symm
  | _ => rfl

/-- **The backends are closed in the order of the handles**, each once. -/
theorem Run.closes_eq (h : Run s ms t) : closes ms ++ t.server.handles = s.handles := by
  induction h with
  | begin => rfl
  | step h hs ih => rw [closes_append, List.append_assoc, closes_step hs, ih]

/-- Nothing is left to close when a stop is over. -/
theorem Run.handles_of_finished (h : Run s ms t) (ho : t.stage = .finished) :
    t.server.handles = [] := by
  induction h with
  | begin => cases ho
  | step h hs ih =>
    cases hs with
    | background | notice | gone => exact ih ho
    | @ended k => cases k <;> cases ho
    | @late k => cases k <;> cases ho
    | finish hs hh => exact hh
    | _ => cases ho

/-- The close whose outcome is not known yet. -/
def Stage.pending : Stage → List Call
  | .close b => [.close b]
  | _ => []

theorem answers_step (hs : Step t m t') : (answers [m]).map (·.1) ++ t'.stage.pending =
    t.stage.pending ++ (closes [m]).map .close := by
  cases hs with
  | background | notice | gone => exact (List.append_nil _).symm
  | @ended k hs => rw [hs]; cases k <;> rfl
  | @late k found hs => rw [hs]; cases k <;> rfl
  | closed o hs => rw [hs]; rfl
  | _ hs => rw [hs]; rfl

/-- **Every close is waited for.** -/
theorem Run.answers_eq (h : Run s ms t) :
    (answers ms).map (·.1) ++ t.stage.pending = (closes ms).map .close := by
  induction h with
  | begin => rfl
  | step h hs ih =>
    rw [answers_append, closes_append, List.map_append, List.map_append, List.append_assoc,
      answers_step hs, ← List.append_assoc, ih]

/-! ### What the tasks still do -/

theorem actions_concat (ms : List Move) (m : Move) :
    actions (ms ++ [m]) = actions ms ++ m.actions := by
  rw [actions, List.flatMap_append, List.flatMap_singleton]
  rfl

/-- What a move does to the flow. -/
theorem flow_step (hs : Step t m t') : t.flow.run m.actions = some t'.flow := by
  cases hs with
  | @background a f ha hfound hf =>
    rw [withFlow_flow, Flow.noticing, Move.actions]
    split
    · rw [Flow.run, hf.to_step]; rfl
    · rw [Flow.run_singleton, hf.to_step]
  | gone ha hf => exact (Flow.run_singleton _).trans hf.to_step
  | @closed b o hs => cases b <;> cases o <;> rfl
  | _ => rfl

/-- **A stop, as far as the samples are concerned, is a run of the flow.** -/
theorem Run.flow_eq (h : Run s ms t) : s.flow.run (actions ms) = some t.flow := by
  induction h with
  | begin => rfl
  | step h hs ih => rw [actions_concat, Flow.run_append, ih, Option.bind_some, flow_step hs]

/-- What somebody else takes during a stop. -/
theorem routed_background {a : Flow.Action} {f : Flow} (hf : Flow.Step t.flow a f) :
    t.flow.routed (Move.background a).actions = t.flow.taken a := by
  have hone : t.flow.routed ([] ++ [a]) = t.flow.routed [] ++ t.flow.taken a :=
    Flow.routed_concat rfl hf
  rw [Move.actions]
  split
  · have hrun : t.flow.run [a] = some f := (Flow.run_singleton a).trans hf.to_step
    have htwo : t.flow.routed ([a] ++ [.signal]) = t.flow.routed [a] ++ f.taken .signal :=
      Flow.routed_concat hrun .signal
    exact (htwo.trans (List.append_nil _)).trans hone
  · exact hone

/-- A move takes a message only where the router has not found the signal yet, and then it finds
it. -/
theorem routed_step (hs : Step t m t') : t.flow.routed m.actions = [] ∨
    (t.flow.routed m.actions).length ≤ 1 ∧ t.flow.router = .receiving ∧
      t.flow.stopping = false ∧ t'.flow.stopping = true := by
  cases hs with
  | @background a f ha hfound hf =>
    rw [routed_background hf]
    cases hf with
    | route now hr hst hi =>
      refine Or.inr ⟨?_, hr, hst, rfl⟩
      simp [Flow.taken, hi]
    | _ => exact Or.inl rfl
  | @gone k f ha hf => cases k <;> exact Or.inl rfl
  | @closed b o hs => cases b <;> cases o <;> exact Or.inl rfl
  | _ => exact Or.inl rfl

/-- A router that has not found the signal yet has done nothing since. -/
theorem receiving_step (hs : Step t m t') (hst : t'.flow.stopping = false)
    (hr : t'.flow.router = .receiving) : t.flow.router = .receiving := by
  cases hs with
  | @background a f ha hfound hf =>
    cases hf with
    | route | refuse | enqueue | endRouter => cases hst
    | signal | abortRouter | abortWriter => cases ha
    | _ => exact hr
  | notice => cases hst
  | @gone k f ha hf =>
    cases k with
    | router => cases hf; cases hr
    | writer => cases hf; exact hr
  | _ => exact hr

/-- **After the signal at most one message is taken**, and that by a router that was not handing a
record over. -/
theorem Run.routed (h : Run s ms t) :
    (s.flow.routed (actions ms)).length ≤ 1 ∧
      (s.flow.routed (actions ms) ≠ [] → s.flow.router = .receiving) := by
  suffices hlooked : (s.flow.routed (actions ms)).length ≤ 1 ∧
      (s.flow.routed (actions ms) ≠ [] → s.flow.router = .receiving ∧ t.flow.stopping = true) ∧
      (t.flow.stopping = false → t.flow.router = .receiving → s.flow.router = .receiving) from
    ⟨hlooked.1, fun hne => (hlooked.2.1 hne).1⟩
  induction h with
  | begin => exact ⟨Nat.zero_le _, fun hne => absurd rfl hne, fun _ hr => hr⟩
  | @step ms t m t' h hs ih =>
    obtain ⟨hlen, htaken, hrouter⟩ := ih
    have hstays : t.flow.stopping = true → t'.flow.stopping = true :=
      Flow.stopping_run (flow_step hs)
    have hback : t'.flow.stopping = false → t'.flow.router = .receiving →
        s.flow.router = .receiving := fun hst hr =>
      hrouter (by_contra fun hn => by simp [hstays (by simpa using hn)] at hst)
        (receiving_step hs hst hr)
    rw [actions_concat, Flow.routed_append _ h.flow_eq]
    rcases routed_step hs with hnone | ⟨hone, hr, hst, hst'⟩
    · rw [hnone, List.append_nil]
      exact ⟨hlen, fun hne => ⟨(htaken hne).1, hstays (htaken hne).2⟩, hback⟩
    · -- the router has taken none before, for it would have found the signal then
      have hnil : s.flow.routed (actions ms) = [] := by
        by_contra hne
        rw [(htaken hne).2] at hst
        cases hst
      rw [hnil, List.nil_append]
      exact ⟨hone, fun _ => ⟨hrouter hst hr, hst'⟩, hback⟩

/-! ### Tasks that are late -/

/-- A stop waits for the router first. -/
theorem Stage.past_after {j : Task} (h : (Stage.after j).past k = true) :
    k = j ∨ (Stage.join j).past k = true := by
  cases j with
  | router => exact Or.inl (eq_of_beq h)
  | writer =>
    cases k with
    | router => exact Or.inr rfl
    | writer => exact Or.inl rfl

/-- **A task that was waited for has ended or was aborted.** -/
theorem Run.ended_or_aborted (h : Run s ms t) (hk : t.stage.past k = true) :
    t.flow.HasEnded k ∨ t.aborts k ≠ .none := by
  induction h with
  | begin => cases hk
  | @step ms t m t' h hs ih =>
    cases hs with
    | background ha hfound hf =>
      exact (ih hk).imp_left fun he => Flow.noticing_hasEnded.2 (he.step hf)
    | notice => exact (ih hk).imp_left fun he => he.step .signal
    | gone ha hf => exact (ih hk).imp_left fun he => he.step hf
    | @ended j hs he =>
      rcases Stage.past_after hk with rfl | hk
      · exact Or.inl he
      · exact ih (by rw [hs]; exact hk)
    | @late j found hs he hfound =>
      by_cases hj : k = j
      · subst hj
        exact Or.inr (by rw [abort_aborts_self]; exact hfound)
      · rw [abort_aborts_of_ne found hj]
        exact ih (by rw [hs]; exact (Stage.past_after hk).resolve_left hj)
    | close hs => exact ih (by rw [hs]; rfl)
    | closed o hs => exact (ih (by rw [hs]; rfl)).imp_left fun he => by cases k <;> exact he
    | finish hs => exact ih (by rw [hs]; rfl)

/-- No task that was aborted is still there. -/
def Settled (t : Shutdown) : Prop := ∀ k, t.aborts k ≠ .none → t.flow.HasEnded k

/-- **The server that a stop leaves.** A task that was aborted is none of its own any more. -/
def left (t : Shutdown) : Server :=
  { t.server with
    flow := { t.flow with
      router := if t.aborts .router = .none then t.flow.router else .ended
      writer := if t.aborts .writer = .none then t.flow.writer else .ended } }

theorem Settled.left_eq (h : t.Settled) : t.left = t.server := by
  have hr : (if t.aborts .router = .none then t.flow.router else .ended) = t.flow.router := by
    split
    · rfl
    · exact (h .router ‹_›).symm
  have hw : (if t.aborts .writer = .none then t.flow.writer else .ended) = t.flow.writer := by
    split
    · rfl
    · exact (h .writer ‹_›).symm
  rw [left, hr, hw]
  rfl

/-- **A server has no task of its own when its stop is over.** -/
theorem Run.left_ended (h : Run s ms t) (ho : t.stage = .finished) :
    t.left.flow.HasEnded k := by
  have hk : t.flow.HasEnded k ∨ t.aborts k ≠ .none := h.ended_or_aborted (by rw [ho]; rfl)
  cases k with
  | router =>
    show (if t.aborts .router = .none then t.flow.router else .ended) = .ended
    split
    · exact hk.resolve_right (not_not.2 ‹_›)
    · rfl
  | writer =>
    show (if t.aborts .writer = .none then t.flow.writer else .ended) = .ended
    split
    · exact hk.resolve_right (not_not.2 ‹_›)
    · rfl

end Shutdown

end TelemetryRelay
