import Mathlib.Data.List.Induction
import TelemetryRelay.Clients.Session
import TelemetryRelay.Proofs.Clients.OwnQueue

/-!
# Runs of a session

* `Moves`: the rules of a session, one for each way in which an action is possible
  (`step_eq_some_iff`).
* `run_induction`: what holds at the start and is kept by every rule holds after every run.
* `moments`: the actions of a run, each with the session that it finds. What the run does to the
  registry (`log`), what of it is done by others (`foreign`) and whether the run is broken off
  (`Unbroken`) are read off it.
-/

namespace TelemetryRelay

/-! ### Stages and actions -/

/-- Whether the goodbye has begun, or the session has gone past it. -/
def SessionStage.isParting : SessionStage → Bool
  | .waiting | .sending _ | .flushing => false
  | .closing _ | .leaving | .removed | .ended => true

namespace SessionAction

/-- Whether an action breaks a session off: its socket fails, or its client says goodbye or can no
longer be read. -/
def isBreak : SessionAction → Bool
  | .fail => true
  | .read inbound => inbound.isLast
  | _ => false

/-- Whether an action brings the session of a client on: it is one of the session or its socket, or
a delivery to the client. Reading what is no goodbye does not. -/
def advances (client : ClientId) : SessionAction → Bool
  | .read inbound => inbound.isLast
  | .other action => action.delivers client
  | _ => true

end SessionAction

namespace ClientSession

variable {s t m : ClientSession} {a : SessionAction} {as : List SessionAction}
  {stage : SessionStage} {r : SharedRegistry}

/-- **The rules of a session**: which action leads where. -/
inductive Moves (s : ClientSession) : SessionAction → SessionStage → Prop where
  | take {payload : String} (hs : s.stage = .waiting)
    (hr : s.shared.received s.client = .frame payload) : Moves s .take (.sending payload)
  /-- It finds that the queue has ended. -/
  | find (hs : s.stage = .waiting) (hr : s.shared.received s.client = .closed) :
    Moves s .take (.closing none)
  | write {payload : String} (hs : s.stage = .sending payload) : Moves s .write .flushing
  /-- A frame at which the socket has failed goes out after all. -/
  | writeLate {payload : String} (hs : s.stage = .closing (some payload)) :
    Moves s .write (.closing none)
  | flush (hs : s.stage = .flushing) : Moves s .flush .waiting
  | fail {payload : String} (hs : s.stage = .sending payload) :
    Moves s .fail (.closing (some payload))
  | failFlushing (hs : s.stage = .flushing) : Moves s .fail (.closing none)
  | sayGoodbye {held : Option String} (hs : s.stage = .closing held) :
    Moves s .sayGoodbye .leaving
  | read {inbound : Inbound} (ho : s.stage.isOpen = true) (hi : inbound.isLast = false) :
    Moves s (.read inbound) s.stage
  | readLast {inbound : Inbound} (ho : s.stage.isOpen = true) (hi : inbound.isLast = true) :
    Moves s (.read inbound) .leaving
  | remove (hs : s.stage = .leaving) : Moves s .remove .removed
  | giveUp (hs : s.stage = .removed) : Moves s .giveUp .ended
  | other {action : RegistryAction} (ha : s.shared.allows action = true)
    (hc : s.concernsOthers action = true) : Moves s (.other action) s.stage

theorem Moves.of_stage? (h : s.stage? a = some stage) : Moves s a stage := by
  cases a with
  | take =>
    simp only [stage?] at h
    split at h <;> cases h
    case h_1 hs hr => exact .take hs hr
    case h_2 hs hr => exact .find hs hr
  | write =>
    simp only [stage?] at h
    split at h <;> cases h
    case h_1 hs => exact .write hs
    case h_2 hs => exact .writeLate hs
  | flush =>
    simp only [stage?] at h
    split at h <;> cases h
    case h_1 hs => exact .flush hs
  | fail =>
    simp only [stage?] at h
    split at h <;> cases h
    case h_1 hs => exact .fail hs
    case h_2 hs => exact .failFlushing hs
  | sayGoodbye =>
    simp only [stage?] at h
    split at h <;> cases h
    case h_1 hs => exact .sayGoodbye hs
  | read inbound =>
    simp only [stage?] at h
    split at h
    case isFalse => cases h
    case isTrue ho =>
      cases h
      split
      case isTrue hi => exact .readLast ho hi
      case isFalse hi => exact .read ho (by simpa using hi)
  | remove =>
    simp only [stage?] at h
    split at h <;> cases h
    case h_1 hs => exact .remove hs
  | giveUp =>
    simp only [stage?] at h
    split at h <;> cases h
    case h_1 hs => exact .giveUp hs
  | other action =>
    simp only [stage?] at h
    split at h
    case isFalse => cases h
    case isTrue hac =>
      cases h
      rw [Bool.and_eq_true] at hac
      exact .other hac.1 hac.2

theorem Moves.stage?_eq (h : Moves s a stage) : s.stage? a = some stage := by
  cases h with
  | take hs hr | find hs hr => simp only [stage?, hs, hr]
  | write hs | writeLate hs | flush hs | fail hs | failFlushing hs | sayGoodbye hs | remove hs
  | giveUp hs => simp only [stage?, hs]
  | read ho hi | readLast ho hi => simp [stage?, ho, hi]
  | other ha hc => simp [stage?, ha, hc]

/-- **An action is possible exactly by one of the rules.** -/
theorem step_eq_some_iff : s.step a = some t ↔ ∃ stage, Moves s a stage ∧ s.moved a stage = t := by
  rw [step, Option.map_eq_some_iff]
  exact exists_congr fun stage => and_congr_left' ⟨Moves.of_stage?, Moves.stage?_eq⟩

/-! ### Runs -/

theorem run_concat (as : List SessionAction) (a : SessionAction) :
    ∀ s : ClientSession, s.run (as ++ [a]) = (s.run as).bind (·.step a) := by
  induction as with
  | nil =>
    intro s
    show (s.step a).bind some = s.step a
    exact Option.bind_fun_some _
  | cons b rest ih =>
    intro s
    rw [List.cons_append, run, run]
    cases s.step b with
    | none => rfl
    | some s' => exact ih s'

/-- **Induction along a run**, with the rule by which its last action was possible. -/
theorem run_induction {P : List SessionAction → ClientSession → Prop} (start : P [] s)
    (step : ∀ as m a stage, s.run as = some m → P as m → Moves m a stage →
      P (as ++ [a]) (m.moved a stage)) :
    ∀ {as : List SessionAction} {t : ClientSession}, s.run as = some t → P as t := by
  intro as
  induction as using List.reverseRecOn with
  | nil => intro t h; cases h; exact start
  | append_singleton as a ih =>
    intro t h
    rw [run_concat] at h
    obtain ⟨m, hm, ha⟩ := Option.bind_eq_some_iff.1 h
    obtain ⟨stage, hmoves, rfl⟩ := step_eq_some_iff.1 ha
    exact step as m a stage hm (ih hm) hmoves

theorem client_run (h : s.run as = some t) : t.client = s.client :=
  run_induction (P := fun _ t => t.client = s.client) rfl (fun _ _ _ _ _ ih _ => ih) h

/-! ### What is seen along a run -/

/-- **The actions of a run**, each with the session that it finds. -/
def moments (s : ClientSession) : List SessionAction → List (ClientSession × SessionAction)
  | [] => []
  | a :: rest => (s, a) :: ((s.step a).map fun t => moments t rest).getD []

theorem moments_concat (a : SessionAction) (h : s.run as = some m) :
    s.moments (as ++ [a]) = s.moments as ++ [(m, a)] := by
  induction as generalizing s with
  | nil =>
    cases h
    simp only [List.nil_append, moments]
    cases m.step a <;> rfl
  | cons b rest ih =>
    rw [run] at h
    obtain ⟨s', hb, hrest⟩ := Option.bind_eq_some_iff.1 h
    simp only [List.cons_append, moments, hb, Option.map_some, Option.getD_some, ih hrest]

/-- What an action adds to the log of the registry. -/
def logged? (s : ClientSession) (a : SessionAction) : Option RegistryEntry :=
  (s.request? a).map fun b => ⟨b, s.shared.answer b⟩

/-- What it adds if it is somebody else who acts. -/
def foreign? (s : ClientSession) : SessionAction → Option RegistryEntry
  | .other b => some ⟨b, s.shared.answer b⟩
  | _ => none

/-- **What a run does to the registry.** -/
def log (s : ClientSession) (as : List SessionAction) : List RegistryEntry :=
  (s.moments as).filterMap fun p => p.1.logged? p.2

/-- **What others do to the registry** along a run. -/
def foreign (s : ClientSession) (as : List SessionAction) : List RegistryEntry :=
  (s.moments as).filterMap fun p => p.1.foreign? p.2

/-- **A run is not broken off**: neither does the socket fail nor the client go before the session
itself has begun to say goodbye. -/
def Unbroken (s : ClientSession) (as : List SessionAction) : Prop :=
  ∀ p ∈ s.moments as, p.2.isBreak = true → p.1.stage.isParting = true

instance : Decidable (s.Unbroken as) :=
  inferInstanceAs (Decidable (∀ p ∈ s.moments as, p.2.isBreak = true → p.1.stage.isParting = true))

theorem log_concat (a : SessionAction) (h : s.run as = some m) :
    s.log (as ++ [a]) = s.log as ++ (m.logged? a).toList := by
  rw [log, moments_concat a h]
  exact SharedRegistry.filterMap_concat _ _ _

theorem foreign_concat (a : SessionAction) (h : s.run as = some m) :
    s.foreign (as ++ [a]) = s.foreign as ++ (m.foreign? a).toList := by
  rw [foreign, moments_concat a h]
  exact SharedRegistry.filterMap_concat _ _ _

theorem unbroken_concat_iff (a : SessionAction) (h : s.run as = some m) :
    s.Unbroken (as ++ [a]) ↔
      s.Unbroken as ∧ (a.isBreak = true → m.stage.isParting = true) := by
  rw [Unbroken, moments_concat a h, List.forall_mem_append, List.forall_mem_singleton]
  exact Iff.rfl

end ClientSession

end TelemetryRelay
