import Mathlib.Tactic.SplitIfs
import TelemetryRelay.Configuration.Validate
import TelemetryRelay.Server.Background

/-!
# What a shutdown leaves running

The router, the writer and the tasks of the two listeners are over after a shutdown, however long
they would take: each is aborted at its limit. The pump of the broker's connection has a limit of
its own, which is counted from the moment at which the goodbye is handed over, and nothing aborts
the pump when the shutdown's limit passes before that one.

* `closeBrokerWithin_eq`: the close of a broker's session by the moment at which it is over.
* `ServerConfig.leftover`: **a shutdown leaves no task running but the pump**, and the pump exactly if
  the close of the broker's session is not over within the shutdown's limit.
* `ServerConfig.pump_left_running`: a broker that never takes the goodbye is enough for that, with a
  limit under a second.
-/

namespace TelemetryRelay

/-- When the close of a broker's session is over, if it is not given up before: the pump has ended,
or its own limit has passed. -/
def BrokerBehaviour.closeEnds (b : BrokerBehaviour) : Occurrence :=
  b.handedOver.map fun start => start + min (b.pumpEnds.getD goodbyeLimit) goodbyeLimit

theorem Occurrence.within_some {time limit : Nat} :
    Occurrence.within (some time) limit = true ↔ time ≤ limit := by
  simp [Occurrence.within]

/-- **What becomes of the pump**: it is left running where the close is given up before it is
over. -/
theorem closeBrokerWithin_eq (limit : Nat) (b : BrokerBehaviour) : closeBrokerWithin limit b =
    if b.closeEnds.within limit then
      if b.pumpEnds.within goodbyeLimit then .finished else .aborted
    else .running := by
  obtain ⟨handedOver, pumpEnds⟩ := b
  cases handedOver with
  | none => rfl
  | some start =>
    cases pumpEnds with
    | none =>
      simp only [closeBrokerWithin, BrokerBehaviour.closeEnds, Occurrence.within, Option.map_some,
        Option.getD_none, Option.any_some, Option.any_none, Nat.min_self, decide_eq_true_eq]
      split_ifs <;> first | rfl | omega
    | some duration =>
      simp only [closeBrokerWithin, BrokerBehaviour.closeEnds, Occurrence.within, Option.map_some,
        Option.getD_some, Option.any_some, decide_eq_true_eq]
      split_ifs <;> first | rfl | omega

/-- A task that is waited for within a limit and aborted there is over. -/
theorem joinWithin_ne_running (limit : Nat) (ends : Occurrence) :
    joinWithin limit ends ≠ .running := by
  unfold joinWithin
  split <;> exact TaskFate.noConfusion

theorem closeListenerWithin_ne_running (limit : Nat) (ends : Occurrence) :
    closeListenerWithin limit ends ≠ .running := by
  unfold closeListenerWithin
  split <;> exact TaskFate.noConfusion

namespace ServerConfig

/-- No task is left running exactly if the close of the broker's session is over in time. -/
theorem fates_allOver_iff (config : ServerConfig) (p : PeerBehaviour) :
    (config.fates p).allOver = true ↔ p.broker.closeEnds.within config.shutdownTimeout = true := by
  have hpump : closeBrokerWithin config.shutdownTimeout p.broker ≠ .running ↔
      p.broker.closeEnds.within config.shutdownTimeout = true := by
    rw [closeBrokerWithin_eq]
    split_ifs <;> simp_all
  simp [Fates.allOver, fates, joinWithin_ne_running, closeListenerWithin_ne_running, hpump]

/-- **What a shutdown leaves running**, whatever the peers do: never the router, the writer or a
task of a listener, and the pump exactly if the close of the broker's session is not over within the
shutdown's limit. -/
theorem leftover (config : ServerConfig) (p : PeerBehaviour) :
    ((config.fates p).router ≠ .running ∧ (config.fates p).writer ≠ .running ∧
      (config.fates p).http ≠ .running ∧ (config.fates p).webSocket ≠ .running) ∧
    ((config.fates p).pump = .running ↔ ∀ start, p.broker.handedOver = some start →
      config.shutdownTimeout < start + min (p.broker.pumpEnds.getD goodbyeLimit) goodbyeLimit) ∧
    ((config.fates p).allOver = true ↔ (config.fates p).pump ≠ .running) := by
  have hpump : (config.fates p).pump = .running ↔
      ¬ p.broker.closeEnds.within config.shutdownTimeout = true := by
    simp only [fates, closeBrokerWithin_eq]
    split_ifs <;> simp_all
  refine ⟨⟨joinWithin_ne_running _ _, joinWithin_ne_running _ _,
    closeListenerWithin_ne_running _ _, closeListenerWithin_ne_running _ _⟩, ?_, ?_⟩
  · rw [hpump, BrokerBehaviour.closeEnds]
    cases p.broker.handedOver with
    | none => simp [Occurrence.within]
    | some start => simp [Occurrence.within_some]
  · rw [fates_allOver_iff, Ne, hpump, Classical.not_not]

/-- Peers that do at once all that they are asked for, but for a broker that never takes the
goodbye. -/
def deafBroker : PeerBehaviour where
  router := some 0
  writer := some 0
  http := some 0
  webSocket := some 0
  broker := ⟨some 0, none⟩

/-- With half a second for each wait, such a broker leaves the pump running. -/
theorem pump_left_running : ∃ config : ServerConfig, config.validate = .ok () ∧
    config.shutdownTimeout = 500 ∧ (config.fates deafBroker).allOver = false := by
  refine ⟨{ shutdownTimeout := 500 }, rfl, rfl, ?_⟩
  rw [Bool.eq_false_iff, Ne, fates_allOver_iff]
  decide

end ServerConfig

end TelemetryRelay
