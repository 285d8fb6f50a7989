import Mathlib.Data.List.Induction
import TelemetryRelay.Relay.Flow

/-!
# Runs of the two tasks

Everything about the flow of samples is proved from three things.

* `Step`: the rules by which a flow changes, one for each way in which an action is possible
  (`step_eq_some_iff`).
* `run_induction`: what holds at the start and is kept by every rule holds after every run.
* `along`: what is seen along a run, action by action, in the state in which each is made. The
  messages that were taken (`taken`), the records that were handed over (`handing`) and the writes
  that were answered (`answering`) are seen in this way.
-/

namespace TelemetryRelay

/-- A message from the broker and the time at which the router takes it. -/
structure Arrival where
  now : Int
  message : Message
deriving DecidableEq, Repr

/-- Whether it is the server that does it: it tells the router to stop, and it aborts tasks. -/
def Flow.Action.byServer : Flow.Action → Bool
  | .signal => true
  | .abortRouter => true
  | .abortWriter => true
  | _ => false

/-- Whether it is one of the two tasks that does it. -/
def Flow.Action.byTask : Flow.Action → Bool
  | .route _ => true
  | .enqueue => true
  | .endRouter => true
  | .beginWrite _ => true
  | .finishWrite => true
  | .endWriter => true
  | _ => false

/-- Where the server does nothing, it has aborted no task. -/
theorem Flow.Action.not_mem_of_byServer {as : List Flow.Action} {a : Flow.Action}
    (ha : a.byServer = true) (h : ∀ b ∈ as, b.byServer = false) : a ∉ as := by
  intro hm
  rw [h a hm] at ha
  cases ha

namespace Flow

variable {f g : Flow}

attribute [simp] signal endRouter endWriter

/-- **The rules of the flow.** -/
inductive Step (f : Flow) : Action → Flow → Prop where
  | arrive (message : Message) (ho : f.streamOpen = true) :
    Step f (.arrive message) { f with inbound := f.inbound ++ [message] }
  | lose (ho : f.streamOpen = true) : Step f .lose { f with streamOpen := false }
  | signal : Step f .signal f.signal
  | route (now : Int) {message : Message} {rest : List Message} (hr : f.router = .receiving)
    (hs : f.stopping = false) (hi : f.inbound = message :: rest) :
    Step f (.route now) (f.take now message rest)
  | refuse {record : Record} (hr : f.router = .offering record) (hw : f.writer = .ended) :
    Step f .enqueue { f with router := .receiving, tally := f.tally.addFailure }
  | enqueue {record : Record} (hr : f.router = .offering record) (hw : f.writer ≠ .ended)
    (hq : f.queue.length < f.capacity) :
    Step f .enqueue { f with router := .receiving, queue := f.queue ++ [record] }
  | endRouter (hr : f.router = .receiving)
    (he : f.stopping = true ∨ f.inbound = [] ∧ f.streamOpen = false) :
    Step f .endRouter f.endRouter
  | abortRouter : Step f .abortRouter f.endRouter
  | beginWrite (outcome : Outcome) {record : Record} {rest : List Record}
    (hw : f.writer = .waiting) (hq : f.queue = record :: rest) :
    Step f (.beginWrite outcome) { f with
      queue := rest
      writer := .writing record outcome
      begun := (record, outcome) :: f.begun }
  | finishWrite {record : Record} (hw : f.writer = .writing record .succeeds) :
    Step f .finishWrite { f with writer := .waiting }
  | failWrite {record : Record} {causes : List String}
    (hw : f.writer = .writing record (.fails causes)) :
    Step f .finishWrite { f with writer := .waiting, tally := f.tally.addFailure }
  | endWriter (hw : f.writer = .waiting) (hq : f.queue = []) (hr : f.router = .ended) :
    Step f .endWriter f.endWriter
  | abortWriter : Step f .abortWriter f.endWriter
  | client (event : ClientEvent) : Step f (.client event) { f with clients := f.clients.after event }

theorem Step.of_step {a : Action} (h : f.step a = some g) : Step f a g := by
  cases a with
  | arrive m =>
    simp only [step] at h
    split at h
    case isTrue ho => cases h; exact .arrive m ho
    case isFalse => cases h
  | lose =>
    simp only [step] at h
    split at h
    case isTrue ho => cases h; exact .lose ho
    case isFalse => cases h
  | signal => cases h; exact .signal
  | route now =>
    simp only [step] at h
    split at h <;> cases h
    case h_1 hr hs hi => exact .route now hr hs hi
  | enqueue =>
    simp only [step] at h
    split at h
    case h_1 hr hw => cases h; exact .refuse hr hw
    case h_2 hr hw =>
      split at h <;> cases h
      case isTrue hq => exact .enqueue hr hw hq
    case h_3 => cases h
  | endRouter =>
    simp only [step] at h
    split at h
    case h_1 hr =>
      split at h <;> cases h
      case isTrue he => exact .endRouter hr (by simpa using he)
    case h_2 => cases h
  | abortRouter => cases h; exact .abortRouter
  | beginWrite o =>
    simp only [step] at h
    split at h <;> cases h
    case h_1 hw hq => exact .beginWrite o hw hq
  | finishWrite =>
    simp only [step] at h
    split at h <;> cases h
    case h_1 hw => exact .finishWrite hw
    case h_2 hw => exact .failWrite hw
  | endWriter =>
    simp only [step] at h
    split at h <;> cases h
    case h_1 hw hq hr => exact .endWriter hw hq hr
  | abortWriter => cases h; exact .abortWriter
  | client e => cases h; exact .client e

theorem Step.to_step {a : Action} (h : Step f a g) : f.step a = some g := by
  cases h with
  | arrive m ho => simp [step, ho]
  | lose ho => simp [step, ho]
  | signal => rfl
  | route now hr hs hi => simp [step, hr, hs, hi]
  | refuse hr hw => simp [step, hr, hw]
  | enqueue hr hw hq =>
    simp only [step, hr]
    cases hf : f.writer with
    | ended => exact absurd hf hw
    | waiting => simp [hq]
    | writing r o => simp [hq]
  | endRouter hr he =>
    have he' : (f.stopping || (f.inbound.isEmpty && !f.streamOpen)) = true := by simpa using he
    simp [step, hr, he']
  | abortRouter => rfl
  | beginWrite o hw hq => simp [step, hw, hq]
  | finishWrite hw => simp [step, hw]
  | failWrite hw => simp [step, hw]
  | endWriter hw hq hr => simp [step, hw, hq, hr]
  | abortWriter => rfl
  | client e => rfl

/-- **An action is possible exactly by one of the rules.** -/
theorem step_eq_some_iff {a : Action} : f.step a = some g ↔ Step f a g :=
  ⟨Step.of_step, Step.to_step⟩

/-! ### Runs -/

theorem run_append (as bs : List Action) :
    ∀ f : Flow, f.run (as ++ bs) = (f.run as).bind (·.run bs) := by
  induction as with
  | nil => intro f; rfl
  | cons a rest ih =>
    intro f
    rw [List.cons_append, run, run]
    cases f.step a with
    | none => rfl
    | some g => exact ih g

theorem run_singleton (a : Action) : f.run [a] = f.step a := by
  rw [run]
  cases f.step a <;> rfl

/-- **Induction along a run**, with the rule by which its last action was possible. -/
theorem run_induction {P : List Action → Flow → Prop} (start : P [] f)
    (step : ∀ as g a g', f.run as = some g → P as g → Step g a g' → P (as ++ [a]) g') :
    ∀ {as : List Action} {g : Flow}, f.run as = some g → P as g := by
  intro as
  induction as using List.reverseRecOn with
  | nil => intro g h; cases h; exact start
  | append_singleton as a ih =>
    intro g' h
    rw [run_append] at h
    obtain ⟨g, hg, ha⟩ := Option.bind_eq_some_iff.1 h
    rw [run_singleton] at ha
    exact step as g a g' hg (ih hg) (step_eq_some_iff.1 ha)

theorem step_config {a : Action} (hs : Step f a g) :
    g.dictionaries = f.dictionaries ∧ g.capacity = f.capacity := by
  cases hs <;> exact ⟨rfl, rfl⟩

/-- A run never changes the dictionaries or the room in the archive queue. -/
theorem run_config {as : List Action} (h : f.run as = some g) :
    g.dictionaries = f.dictionaries ∧ g.capacity = f.capacity := by
  refine run_induction (P := fun _ g => g.dictionaries = f.dictionaries ∧ g.capacity = f.capacity)
    ⟨rfl, rfl⟩ ?_ h
  intro _ g a g' _ ih hs
  exact ⟨(step_config hs).1.trans ih.1, (step_config hs).2.trans ih.2⟩

/-! ### Observations -/

section Along

variable {α : Type} (see : Flow → Action → List α)

/-- **What is seen along a run.** -/
def along (f : Flow) : List Action → List α
  | [] => []
  | a :: rest => see f a ++ ((f.step a).map fun g => along g rest).getD []

theorem along_append {as : List Action} (bs : List Action) : ∀ {f g : Flow}, f.run as = some g →
    f.along see (as ++ bs) = f.along see as ++ g.along see bs := by
  induction as with
  | nil => intro f g h; cases h; rfl
  | cons a rest ih =>
    intro f g h
    rw [run] at h
    obtain ⟨f', hf, hr⟩ := Option.bind_eq_some_iff.1 h
    rw [List.cons_append, along, along, hf]
    simp only [Option.map_some, Option.getD_some, ih hr, List.append_assoc]

/-- What one more action adds. -/
theorem along_concat {as : List Action} {a : Action} {g' : Flow} (h : f.run as = some g)
    (ha : Step g a g') : f.along see (as ++ [a]) = f.along see as ++ see g a := by
  rw [along_append see [a] h, along, step_eq_some_iff.2 ha]
  simp [along]

end Along

/-- The message that an action takes. -/
def taken (f : Flow) : Action → List Arrival
  | .route now => (f.inbound.head?.map (⟨now, ·⟩)).toList
  | _ => []

/-- The record that an action hands over, and whether it is refused because the writer is gone. -/
def handing (f : Flow) : Action → List (Record × Bool)
  | .enqueue =>
    match f.router with
    | .offering record => [(record, f.writerEnded)]
    | _ => []
  | _ => []

/-- The write that an action answers. -/
def answering (f : Flow) : Action → List (Record × Outcome)
  | .finishWrite =>
    match f.writer with
    | .writing record outcome => [(record, outcome)]
    | _ => []
  | _ => []

/-- **The messages that a run routes**, in this order. -/
def routed (f : Flow) (as : List Action) : List Arrival := f.along taken as

/-- The records that the router hands over along a run. -/
def handed (f : Flow) (as : List Action) : List (Record × Bool) := f.along handing as

/-- The writes that the archive answers along a run. -/
def answered (f : Flow) (as : List Action) : List (Record × Outcome) := f.along answering as

theorem routed_append {as : List Action} (bs : List Action) (h : f.run as = some g) :
    f.routed (as ++ bs) = f.routed as ++ g.routed bs := along_append taken bs h

theorem routed_concat {as : List Action} {a : Action} {g' : Flow} (h : f.run as = some g)
    (ha : Step g a g') : f.routed (as ++ [a]) = f.routed as ++ g.taken a := along_concat taken h ha

theorem handed_concat {as : List Action} {a : Action} {g' : Flow} (h : f.run as = some g)
    (ha : Step g a g') : f.handed (as ++ [a]) = f.handed as ++ g.handing a :=
  along_concat handing h ha

theorem answered_concat {as : List Action} {a : Action} {g' : Flow} (h : f.run as = some g)
    (ha : Step g a g') : f.answered (as ++ [a]) = f.answered as ++ g.answering a :=
  along_concat answering h ha

end Flow

end TelemetryRelay
