import TelemetryRelay.Server.Call

/-!
# The flow of samples

Two tasks move samples through a running server. The router takes messages from the broker one at a
time, sends frames to the clients and puts records into the archive queue; the writer takes records
from that queue and writes them to the archive. The queue is bounded, so the router waits while it
is full.

* `Flow.step` says what each single action does and when it is possible. Actions of the two tasks,
  the broker and the clients may come in any order.
* `Flow.settle` is the order in which the server itself runs the tasks: until neither can go on.
-/

namespace TelemetryRelay

/-- What the router is doing. -/
inductive RouterTask where
  /-- It waits for a message or for the signal to stop. -/
  | receiving
  /-- It waits for room in the archive queue. -/
  | offering (record : Record)
  | ended

/-- What the writer is doing. -/
inductive WriterTask where
  /-- It waits for a record. -/
  | waiting
  /-- It waits for the archive, which will answer as `outcome` says. -/
  | writing (record : Record) (outcome : Outcome)
  | ended

/-- How many records may wait for the writer of a server. -/
def archiveCapacity : Nat := 1024

/-- The state of both tasks and of what lies between them. -/
structure Flow where
  dictionaries : List Dictionary
  clients : Registry
  /-- The broker's messages that wait for the router, oldest first. -/
  inbound : List Message := []
  /-- Whether the broker's stream can still deliver. -/
  streamOpen : Bool := false
  /-- Whether the router has been told to stop. -/
  stopping : Bool := false
  router : RouterTask := .ended
  /-- The records that wait for the writer, oldest first. -/
  queue : List Record := []
  /-- How many records may wait for the writer. -/
  capacity : Nat := archiveCapacity
  writer : WriterTask := .ended
  tally : Tally := {}
  /-- Every write that was begun and what becomes of it, newest first. -/
  begun : List (Record × Outcome) := []

namespace Flow

/-- One thing that happens. -/
inductive Action where
  /-- The broker delivers a message. -/
  | arrive (message : Message)
  /-- The broker's stream ends. -/
  | lose
  /-- The router is told to stop. -/
  | signal
  /-- The router takes the oldest message, at the time `now`, and sends its frame. -/
  | route (now : Int)
  /-- The router puts its record into the queue. -/
  | enqueue
  /-- The router ends: it was told to, or the stream has ended. -/
  | endRouter
  /-- The router is aborted. -/
  | abortRouter
  /-- The writer takes the oldest record and begins to write it. -/
  | beginWrite (outcome : Outcome)
  /-- The archive answers. -/
  | finishWrite
  /-- The writer ends: the router is gone and the queue is empty. -/
  | endWriter
  /-- The writer is aborted. -/
  | abortWriter
  /-- Something happens to the clients. -/
  | client (event : ClientEvent)

/-- Starts both tasks over an open stream in which some messages wait already. -/
def launch (f : Flow) (early : List Message) : Flow :=
  { f with inbound := early, streamOpen := true, router := .receiving, writer := .waiting }

/-- Tells the router to stop. -/
def signal (f : Flow) : Flow := { f with stopping := true }

/-- Ends the router. The broker's stream and what waits in it are given up with it. -/
def endRouter (f : Flow) : Flow := { f with router := .ended, inbound := [], streamOpen := false }

/-- Ends the writer. What waits in the queue is given up with it. -/
def endWriter (f : Flow) : Flow := { f with writer := .ended, queue := [] }

/-- Whether the router has ended. -/
def routerEnded (f : Flow) : Bool :=
  match f.router with
  | .ended => true
  | _ => false

/-- Whether the writer has ended. -/
def writerEnded (f : Flow) : Bool :=
  match f.writer with
  | .ended => true
  | _ => false

/-- What taking a message does. -/
def take (f : Flow) (now : Int) (message : Message) (rest : List Message) : Flow :=
  let verdict := Relay.judge f.dictionaries now message
  { f with
    inbound := rest
    tally := f.tally.count verdict
    clients := verdict.publish f.clients
    router := match verdict.record? with
      | some record => .offering record
      | none => .receiving }

/-- **What an action does**; none if it is not possible now. -/
def step (f : Flow) : Action → Option Flow
  | .arrive message =>
    if f.streamOpen then some { f with inbound := f.inbound ++ [message] } else none
  | .lose => if f.streamOpen then some { f with streamOpen := false } else none
  | .signal => some f.signal
  | .route now =>
    match f.router, f.stopping, f.inbound with
    | .receiving, false, message :: rest => some (f.take now message rest)
    | _, _, _ => none
  | .enqueue =>
    match f.router, f.writer with
    | .offering _, .ended => some { f with router := .receiving, tally := f.tally.addFailure }
    | .offering record, _ =>
      if f.queue.length < f.capacity then
        some { f with router := .receiving, queue := f.queue ++ [record] }
      else none
    | _, _ => none
  | .endRouter =>
    match f.router with
    | .receiving =>
      if f.stopping || (f.inbound.isEmpty && !f.streamOpen) then
        some f.endRouter
      else none
    | _ => none
  | .abortRouter => some f.endRouter
  | .beginWrite outcome =>
    match f.writer, f.queue with
    | .waiting, record :: rest =>
      some { f with
        queue := rest
        writer := .writing record outcome
        begun := (record, outcome) :: f.begun }
    | _, _ => none
  | .finishWrite =>
    match f.writer with
    | .writing _ .succeeds => some { f with writer := .waiting }
    | .writing _ (.fails _) => some { f with writer := .waiting, tally := f.tally.addFailure }
    | _ => none
  | .endWriter =>
    match f.writer, f.queue, f.router with
    | .waiting, [], .ended => some f.endWriter
    | _, _, _ => none
  | .abortWriter => some f.endWriter
  | .client event => some { f with clients := f.clients.after event }

/-- Runs actions one after the other; none if one of them is not possible. -/
def run (f : Flow) : List Action → Option Flow
  | [] => some f
  | a :: rest => (f.step a).bind (run · rest)

/-- What the writer can do next. -/
def writerAction? (write : Record → Outcome) (f : Flow) : Option Action :=
  match f.writer, f.queue, f.router with
  | .writing _ .succeeds, _, _ => some .finishWrite
  | .writing _ (.fails _), _, _ => some .finishWrite
  | .waiting, record :: _, _ => some (.beginWrite (write record))
  | .waiting, [], .ended => some .endWriter
  | _, _, _ => none

/-- What the router can do next. -/
def routerAction? (now : Int) (f : Flow) : Option Action :=
  match f.router with
  | .receiving =>
    if f.stopping || (f.inbound.isEmpty && !f.streamOpen) then some .endRouter
    else if f.inbound.isEmpty then none
    else some (.route now)
  | .offering _ => some .enqueue
  | .ended => none

/-- The next state under the server's own order: the writer goes first. -/
def advance? (now : Int) (write : Record → Outcome) (f : Flow) : Option Flow :=
  match f.writerAction? write with
  | some action => f.step action
  | none => (f.routerAction? now).bind f.step

/-- What the router still has to do for the step it is in. -/
def RouterTask.weight : RouterTask → Nat
  | .receiving => 1
  | .offering _ => 4
  | .ended => 0

/-- What the writer still has to do for the step it is in. -/
def WriterTask.weight : WriterTask → Nat
  | .waiting => 1
  | .writing _ _ => 2
  | .ended => 0

/-- A bound on the steps that both tasks can take by themselves. -/
def work (f : Flow) : Nat :=
  4 * f.inbound.length + 2 * f.queue.length + RouterTask.weight f.router +
    WriterTask.weight f.writer

/-- A step of the writer uses up work. -/
theorem work_lt_of_writerAction? {write : Record → Outcome} {f g : Flow} {a : Action}
    (ha : f.writerAction? write = some a) (h : f.step a = some g) : g.work < f.work := by
  unfold writerAction? at ha
  split at ha
  case h_1 hw => cases ha; simp [step, hw] at h; subst h; simp [work, WriterTask.weight, hw]
  case h_2 hw => cases ha; simp [step, hw] at h; subst h; simp [work, WriterTask.weight, hw]
  case h_3 hw hq =>
    cases ha; simp [step, hw, hq] at h; subst h; simp [work, WriterTask.weight, hw, hq]; omega
  case h_4 hw hq hr =>
    cases ha; simp [step, hw, hq, hr] at h; subst h
    simp [work, endWriter, WriterTask.weight, hw, hq, hr]
  case h_5 => cases ha

/-- Taking a message uses up work. -/
theorem work_take_lt (f : Flow) (now : Int) (m : Message) (rest : List Message)
    (hr : f.router = .receiving) (hi : f.inbound = m :: rest) :
    (f.take now m rest).work < f.work := by
  have hw : RouterTask.weight (f.take now m rest).router ≤ 4 := by
    unfold take
    dsimp only
    split <;> simp [RouterTask.weight]
  simp only [work, hr, hi, List.length_cons]
  simp only [take] at hw ⊢
  simp only [RouterTask.weight] at hw ⊢
  omega

/-- A step of the router uses up work. -/
theorem work_lt_of_routerAction? {now : Int} {f g : Flow} {a : Action}
    (ha : f.routerAction? now = some a) (h : f.step a = some g) : g.work < f.work := by
  unfold routerAction? at ha
  split at ha
  case h_1 hr =>
    split at ha
    case isTrue hs =>
      cases ha
      simp only [step, hr, hs, if_true, Option.some.injEq] at h
      subst h
      simp only [work, endRouter, RouterTask.weight, hr, List.length_nil]
      omega
    case isFalse =>
      split at ha
      · cases ha
      · cases ha
        simp only [step, hr] at h
        split at h <;> cases h
        case h_1 hi => exact work_take_lt f now _ _ hr hi
  case h_2 record hr =>
    cases ha
    simp only [step, hr] at h
    split at h
    case h_1 => cases h; simp [work, RouterTask.weight, hr]
    case h_2 =>
      split at h <;> cases h
      simp [work, RouterTask.weight, hr]
      omega
    case h_3 => cases h
  case h_3 => cases ha

/-- Every step of the two tasks uses up work. -/
theorem work_lt_of_advance? {now : Int} {write : Record → Outcome} {f g : Flow}
    (h : f.advance? now write = some g) : g.work < f.work := by
  unfold advance? at h
  split at h
  case h_1 ha => exact work_lt_of_writerAction? ha h
  case h_2 =>
    cases hr : f.routerAction? now with
    | none => simp [hr] at h
    | some a => exact work_lt_of_routerAction? hr (by simpa [hr] using h)

/-- **Lets both tasks run** until neither can go on. Every write that begins gets the outcome that
`write` gives it. -/
def settle (now : Int) (write : Record → Outcome) (f : Flow) : Flow :=
  match _h : f.advance? now write with
  | none => f
  | some g => settle now write g
termination_by f.work
decreasing_by exact work_lt_of_advance? _h

/-- The samples that reached the archive, in the order of writing. -/
def archived (f : Flow) : List Record :=
  (f.begun.reverse.filter fun w => w.2 == .succeeds).map (·.1)

end Flow

end TelemetryRelay
