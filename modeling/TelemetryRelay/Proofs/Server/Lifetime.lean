import TelemetryRelay.Proofs.Server.OwnStop

/-!
# Lives of servers

A server is created, and then it is started and stopped any number of times, with any outcome of
each call, while the broker, the clients, the archive and the two tasks go on in any order
(`Server.Life`). The log of a life holds its calls to the backends and what became of each.

* `acquire_spec`, `release_spec`: what acquiring and releasing come to, also for a caller who gives
  up.
* `start_cases`: a start either gains everything, or ends without having launched a task.
* `Orderly`: what is true at every moment of a life (`Life.orderly`). Above all, each backend that
  was gained is either closed or still held, and was gained once.
* `lifecycle`: **the phases only go forward, nothing is closed twice, and a server that is at rest
  holds nothing.**
-/

namespace TelemetryRelay

/-- The backend that a call has gained. -/
def Call.gained? : Call × Outcome → Option Backend
  | (.acquire a, .succeeds) => a.gains
  | _ => none

/-- The backend that a call closes, whatever becomes of it. -/
def Call.closed? : Call × Outcome → Option Backend
  | (.close b, _) => some b
  | _ => none

/-- The backends that were gained, in order. -/
def gained (log : List (Call × Outcome)) : List Backend := log.filterMap Call.gained?

/-- The backends that were closed, in order. -/
def closed (log : List (Call × Outcome)) : List Backend := log.filterMap Call.closed?

/-- The calls of a trail with their outcomes. -/
def Trail.log (t : Trail) (outcome : Call → Outcome) : List (Call × Outcome) :=
  t.calls.map fun c => (c, outcome c)

/-- The phase in which a start leaves a fresh server. -/
def StartResult.phase : StartResult → Phase
  | .ready _ _ _ => .running
  | .failed _ => .failed
  | .abandoned => .starting

section Log

variable {limit : Nat} {patience : Patience} {outcome : Call → Outcome}

theorem gained_append (log log' : List (Call × Outcome)) :
    gained (log ++ log') = gained log ++ gained log' := List.filterMap_append

theorem closed_append (log log' : List (Call × Outcome)) :
    closed (log ++ log') = closed log ++ closed log' := List.filterMap_append

/-- Acquiring calls close nothing. -/
theorem closed_acquire (as : List Acquiring) :
    closed (as.map fun a => (.acquire a, outcome (.acquire a))) = [] := by
  simp [closed, Call.closed?]

/-- Closes gain nothing. -/
theorem gained_close (bs : List Backend) :
    gained (bs.map fun b => (.close b, outcome (.close b))) = [] := by
  simp [gained, Call.gained?]

theorem closed_close (bs : List Backend) :
    closed (bs.map fun b => (.close b, outcome (.close b))) = bs := by
  simp [closed, List.filterMap_map, Function.comp_def, Call.closed?]

/-- Calls gain no more than they would if they all succeeded. -/
theorem gained_sublist (as : List Acquiring) :
    (gained (as.map fun a => (.acquire a, outcome (.acquire a)))).Sublist
      (as.filterMap Acquiring.gains) := by
  induction as with
  | nil => exact List.Sublist.refl _
  | cons a rest ih =>
    rw [List.map_cons, gained, List.filterMap_cons, List.filterMap_cons]
    cases ho : outcome (.acquire a) with
    | succeeds =>
      simp only [Call.gained?]
      cases a.gains with
      | none => exact ih
      | some b => exact ih.cons_cons b
    | _ =>
      simp only [Call.gained?]
      cases a.gains with
      | none => exact ih
      | some b => exact ih.cons b

/-- **What acquiring comes to.** -/
theorem acquire_spec : ∀ (as : List Acquiring) (handles : List Backend) (trail : Trail),
    ∃ made rest ending trail', as = made ++ rest ∧
      acquire limit patience outcome as handles trail = (ending,
        (gained (made.map fun a => (.acquire a, outcome (.acquire a)))).reverse ++ handles,
        trail') ∧
      trail'.calls = trail.calls ++ made.map .acquire ∧
      (ending = .complete → ∀ a ∈ as, outcome (.acquire a) = .succeeds) ∧
      (ending = .abandoned → patience ≠ none) := by
  intro as
  induction as with
  | nil =>
    intro handles trail
    exact ⟨[], [], .complete, trail, rfl, rfl, by simp, by simp, Ending.noConfusion⟩
  | cons a as ih =>
    intro handles trail
    cases ho : outcome (.acquire a) with
    | succeeds =>
      obtain ⟨made, rest, ending, trail', rfl, heq, hcalls, hall, hgive⟩ :=
        ih (a.gains.toList ++ handles) (trail.call (.acquire a))
      refine ⟨a :: made, rest, ending, trail', rfl, ?_, ?_, ?_, hgive⟩
      · simp only [acquire, ho, heq, List.map_cons, gained, List.filterMap_cons, Call.gained?]
        cases a.gains <;> simp
      · rw [hcalls]
        simp [Trail.call]
      · exact fun hc => List.forall_mem_cons.2 ⟨ho, hall hc⟩
    | fails causes =>
      refine ⟨[a], as, .refused a (.failure causes), trail.call (.acquire a), rfl, ?_, rfl,
        Ending.noConfusion, Ending.noConfusion⟩
      simp [acquire, ho, gained, Call.gained?]
    | hangs =>
      by_cases hp : patience.endsBefore (trail.waited + limit) = true
      · refine ⟨[a], as, .abandoned, (trail.call (.acquire a)).breakOff patience, rfl, ?_, rfl,
          Ending.noConfusion, fun _ hnone => by rw [hnone] at hp; cases hp⟩
        simp [acquire, ho, gained, Call.gained?, Trail.call, hp]
      · refine ⟨[a], as, .refused a (.timeout limit), (trail.call (.acquire a)).wait limit, rfl, ?_,
          rfl, Ending.noConfusion, Ending.noConfusion⟩
        simp [acquire, ho, gained, Call.gained?, Trail.call, hp]

/-- **What releasing comes to.** -/
theorem release_spec : ∀ (bs : List Backend) (trail : Trail), ∃ done left trail' finished,
    bs = done ++ left ∧ release limit patience outcome bs trail = (left, trail', finished) ∧
      trail'.calls = trail.calls ++ done.map .close ∧ (finished = true → left = []) ∧
      (finished = false → patience ≠ none) := by
  intro bs
  induction bs with
  | nil =>
    intro trail
    exact ⟨[], [], trail, true, rfl, rfl, by simp, fun _ => rfl, Bool.noConfusion⟩
  | cons b rest ih =>
    intro trail
    -- the release goes on, after a trail with this call
    have hgo : ∀ t : Trail, t.calls = trail.calls ++ [.close b] →
        release limit patience outcome (b :: rest) trail = release limit patience outcome rest t →
        ∃ done left trail' finished, b :: rest = done ++ left ∧
          release limit patience outcome (b :: rest) trail = (left, trail', finished) ∧
          trail'.calls = trail.calls ++ done.map .close ∧ (finished = true → left = []) ∧
          (finished = false → patience ≠ none) := by
      intro t ht heq
      obtain ⟨done, left, trail', finished, rfl, hrel, hcalls, hfin, hgive⟩ := ih t
      refine ⟨b :: done, left, trail', finished, rfl, heq.trans hrel, ?_, hfin, hgive⟩
      rw [hcalls, ht]
      simp
    cases ho : outcome (.close b) with
    | succeeds => exact hgo (trail.call (.close b)) rfl (by simp [release, ho])
    | fails causes => exact hgo (trail.call (.close b)) rfl (by simp [release, ho])
    | hangs =>
      by_cases hp : patience.endsBefore (trail.waited + limit) = true
      · refine ⟨[b], rest, (trail.call (.close b)).breakOff patience, false, rfl, ?_, rfl,
          Bool.noConfusion, fun _ hnone => by rw [hnone] at hp; cases hp⟩
        simp [release, ho, Trail.call, hp]
      · exact hgo ((trail.call (.close b)).wait limit) rfl (by simp [release, ho, Trail.call, hp])

end Log

namespace Server

variable {config : ServerConfig} {clients : Registry} {s s' : Server}
  {log log' : List (Call × Outcome)} {outcome : Call → Outcome} {patience : Patience}

/-- **What a start of a fresh server comes to**, unless all its calls succeed: what it gained is
closed as far as the caller waits for it, and no task is launched. -/
theorem start_cases (hp : s.phase = .unstarted) (early : List Message) :
    (∀ a ∈ s.attempts, outcome (.acquire a) = .succeeds) ∨
      ∃ result s' trail made rest done clients,
        s.start outcome patience early = (result, s', trail) ∧ s.attempts = made ++ rest ∧
        trail.calls = made.map .acquire ++ done.map .close ∧
        (gained (made.map fun a => (.acquire a, outcome (.acquire a)))).reverse =
          done ++ s'.handles ∧
        s'.config = s.config ∧ s'.flow = { s.flow with clients } ∧ s'.phase = result.phase ∧
        s'.phase ≠ .running ∧ (s'.phase ≠ .starting → s'.handles = []) ∧
        (s'.phase = .starting → patience ≠ none) := by
  obtain ⟨made, rest, ending, trail, hsplit, hacq, hcalls, hall, hgive⟩ :=
    @acquire_spec s.config.connectTimeout patience outcome s.attempts [] {}
  rw [List.append_nil] at hacq
  rw [List.nil_append] at hcalls
  cases ending with
  | complete => exact Or.inl (hall rfl)
  | abandoned =>
    have hstart : s.start outcome patience early = (.abandoned,
        { s with
          phase := .starting
          handles := (gained (made.map fun a => (.acquire a, outcome (.acquire a)))).reverse
          catalog := s.catalogOf
            (gained (made.map fun a => (.acquire a, outcome (.acquire a)))).reverse }, trail) := by
      unfold start
      rw [if_neg (by simp [hp]), hacq]
    exact Or.inr ⟨_, _, _, made, rest, [], s.flow.clients, hstart, hsplit,
      hcalls.trans (List.append_nil _).symm, rfl, rfl, rfl, rfl, Phase.noConfusion,
      fun h => absurd rfl h, fun _ => hgive rfl⟩
  | refused a obstacle =>
    obtain ⟨done, left, trail', finished, hdone, hrel, hcalls', hfin, hgive'⟩ :=
      @release_spec s.config.shutdownTimeout patience outcome
        (gained (made.map fun a => (.acquire a, outcome (.acquire a)))).reverse trail
    rw [hcalls] at hcalls'
    have hstart : ∃ clients catalog, s.start outcome patience early =
        (if finished then .failed (s.refusal a obstacle) else .abandoned,
          { s with
            phase := if finished then .failed else .starting
            handles := left
            flow := { s.flow with clients }
            catalog }, trail') := by
      unfold start
      rw [if_neg (by simp [hp]), hacq]
      simp only [releaseAll, hrel]
      cases finished <;> exact ⟨_, _, rfl⟩
    obtain ⟨clients, catalog, hstart⟩ := hstart
    refine Or.inr ⟨_, _, _, made, rest, done, clients, hstart, hsplit, hcalls', hdone, rfl, rfl, ?_⟩
    cases finished with
    | true => exact ⟨rfl, Phase.noConfusion, fun _ => hfin rfl, Phase.noConfusion⟩
    | false => exact ⟨rfl, Phase.noConfusion, fun h => absurd rfl h, fun _ => hgive' rfl⟩

/-- A start of a server that is not fresh does nothing. -/
theorem start_of_ne (hp : s.phase ≠ .unstarted) (outcome : Call → Outcome) (patience : Patience)
    (early : List Message) :
    s.start outcome patience early = (.failed (.invalidState s.phase), s, {}) := by
  unfold start
  rw [if_pos hp]

/-- A stop of a server that does not run does nothing. -/
theorem stop_of_ne (hp : s.phase ≠ .running) (now : Int) (outcome : Call → Outcome)
    (write : Record → Outcome) : s.stop now outcome write = (s, {}) := by
  unfold stop
  rw [if_pos hp]

/-! ### Lives -/

/-- **One thing that happens to a server**, with the calls that it comes to. -/
inductive Turn (s : Server) : List (Call × Outcome) → Server → Prop where
  /-- It is started. -/
  | start (outcome : Call → Outcome) (patience : Patience) (early : List Message) :
    Turn s ((s.start outcome patience early).2.2.log outcome) (s.start outcome patience early).2.1
  /-- It is stopped while it runs. A task that was aborted is none of its own any more, even where it
  is not gone yet. -/
  | stop {ms : List Shutdown.Move} {t : Shutdown} (hp : s.phase = .running)
    (h : Shutdown.Run s ms t) (ho : t.stage = .finished) : Turn s (Shutdown.answers ms) t.left
  /-- It is stopped while it does not run. -/
  | idle (hp : s.phase ≠ .running) (now : Int) (outcome : Call → Outcome)
    (write : Record → Outcome) :
    Turn s ((s.stop now outcome write).2.log outcome) (s.stop now outcome write).1
  /-- Somebody else does something. -/
  | background {a : Flow.Action} {f : Flow} (ha : a.byServer = false)
    (hf : Flow.Step s.flow a f) : Turn s [] { s with flow := f }

/-- **A life of a server**, and the calls it has come to so far. -/
inductive Life (config : ServerConfig) (clients : Registry) :
    List (Call × Outcome) → Server → Prop where
  | created {s : Server} (h : create config clients = .ok s) : Life config clients [] s
  | turn {log log' : List (Call × Outcome)} {s s' : Server} (h : Life config clients log s)
    (ht : Turn s log' s') : Life config clients (log ++ log') s'

/-- **What is true of a server at every moment of its life.** -/
structure Orderly (config : ServerConfig) (log : List (Call × Outcome)) (s : Server) : Prop where
  config_eq : s.config = config
  /-- What was gained was closed or is held. -/
  balance : ∀ b, (gained log).count b = (closed log).count b + s.handles.count b
  nodup : (gained log).Nodup
  unstarted : s.phase = .unstarted → log = [] ∧
    ∃ clients, s.flow = { dictionaries := config.dictionaries, clients }
  /-- Both tasks have been launched, and the server has not interfered with them since. -/
  running : s.phase = .running → s.handles = [.history, .http, .webSocket, .broker] ∧
    ∃ clients early as,
      (Flow.launch { dictionaries := config.dictionaries, clients } early).run as = some s.flow ∧
        ∀ a ∈ as, a.byServer = false
  idle : s.phase ≠ .running → s.flow.router = .ended ∧ s.flow.writer = .ended
  settled : s.phase ≠ .running → s.phase ≠ .starting → s.handles = []

/-- A server that was just created is orderly. -/
theorem orderly_create (h : create config clients = .ok s) : Orderly config [] s := by
  obtain ⟨-, url, -, rfl⟩ := create_eq_ok_iff.1 h
  exact ⟨rfl, fun _ => rfl, List.nodup_nil, fun _ => ⟨rfl, clients, rfl⟩, Phase.noConfusion,
    fun _ => ⟨rfl, rfl⟩, fun _ _ => rfl⟩

/-- The log of a start that was not complete. -/
theorem log_start {trail : Trail} {made : List Acquiring} {done : List Backend}
    (h : trail.calls = made.map .acquire ++ done.map .close) :
    trail.log outcome = (made.map fun a => (.acquire a, outcome (.acquire a))) ++
      done.map fun b => (.close b, outcome (.close b)) := by
  rw [Trail.log, h, List.map_append, List.map_map, List.map_map]
  rfl

/-- **A start keeps a server orderly.** -/
theorem Orderly.start (h : Orderly config log s) (outcome : Call → Outcome) (patience : Patience)
    (early : List Message) :
    Orderly config (log ++ (s.start outcome patience early).2.2.log outcome)
      (s.start outcome patience early).2.1 := by
  by_cases hp : s.phase = .unstarted
  case neg =>
    rw [start_of_ne hp]
    simpa [Trail.log] using h
  obtain ⟨rfl, clients, hflow⟩ := h.unstarted hp
  rw [List.nil_append]
  rcases @start_cases s outcome patience hp early with
    hall | ⟨result, s', trail, made, rest, done, clients', hstart, hsplit, hcalls, hbal, hc, hf,
      hphase, hnr, hset, -⟩
  · rw [start_complete hp early hall]
    have hlog : ({ calls := s.attempts.map .acquire } : Trail).log outcome =
        s.attempts.map fun a => (.acquire a, outcome (.acquire a)) := by
      simp [Trail.log]
    have hgain : gained (s.attempts.map fun a => (.acquire a, outcome (.acquire a))) =
        [.broker, .webSocket, .http, .history] := by
      rw [← attempts_gains (s := s), gained, List.filterMap_map]
      exact List.filterMap_congr fun a ha => by simp [Call.gained?, hall a ha]
    rw [hlog]
    refine ⟨h.config_eq, fun b => ?_, ?_, Phase.noConfusion,
      fun _ => ⟨rfl, clients, early, [], ?_, ?_⟩, fun hn => absurd rfl hn,
      fun hn => absurd rfl hn⟩
    · rw [hgain, closed_acquire]
      cases b <;> rfl
    · rw [hgain]; decide
    · rw [hflow]; rfl
    · intro a ha; cases ha
  · rw [hstart, log_start hcalls]
    have hnu : s'.phase ≠ .unstarted := by rw [hphase]; cases result <;> exact Phase.noConfusion
    refine ⟨hc.trans h.config_eq, fun b => ?_, ?_, fun hu => absurd hu hnu, fun hr => absurd hr hnr,
      fun _ => ?_, fun _ hs => hset hs⟩
    · rw [gained_append, closed_append, gained_close, closed_acquire, closed_close,
        List.append_nil, List.nil_append, ← List.count_append, ← hbal, List.count_reverse]
    · rw [gained_append, gained_close, List.append_nil]
      exact (gained_sublist made).nodup (gains_nodup hsplit)
    · rw [hf]
      exact h.idle (by rw [hp]; exact Phase.noConfusion)

/-- The log of a stop gains nothing. -/
theorem gained_answers (ms : List Shutdown.Move) : gained (Shutdown.answers ms) = [] := by
  rw [gained, Shutdown.answers, List.filterMap_filterMap]
  refine List.filterMap_eq_nil_iff.2 fun m _ => ?_
  cases m <;> rfl

/-- What the log of a stop closes. -/
theorem closed_of_map_fst {log : List (Call × Outcome)} {bs : List Backend}
    (h : log.map (·.1) = bs.map .close) : closed log = bs := by
  have hclosed : closed log = (log.map (·.1)).filterMap fun
      | .close b => some b
      | _ => none := by
    rw [closed, List.filterMap_map]
    refine List.filterMap_congr fun w _ => ?_
    obtain ⟨c, o⟩ := w
    cases c <;> rfl
  rw [hclosed, h, List.filterMap_map]
  exact List.filterMap_some

/-- **A stop keeps a server orderly.** -/
theorem Orderly.stop {ms : List Shutdown.Move} {t : Shutdown} (h : Orderly config log s)
    (hrun : Shutdown.Run s ms t) (ho : t.stage = .finished) :
    Orderly config (log ++ Shutdown.answers ms) t.left := by
  have hphase : t.left.phase = .stopped := hrun.phase_of_finished ho
  have hhandles : t.left.handles = [] := hrun.handles_of_finished ho
  have hne : t.left.phase ≠ .running := by rw [hphase]; exact Phase.noConfusion
  have hclosed : closed (Shutdown.answers ms) = s.handles := by
    have hcloses := hrun.closes_eq
    have hans := hrun.answers_eq
    rw [hrun.handles_of_finished ho, List.append_nil] at hcloses
    rw [ho, hcloses] at hans
    exact closed_of_map_fst ((List.append_nil _).symm.trans hans)
  refine ⟨hrun.config_eq.trans h.config_eq, fun b => ?_, ?_, fun hu => ?_, fun hr => absurd hr hne,
    fun _ => ⟨hrun.left_ended ho (k := .router), hrun.left_ended ho (k := .writer)⟩,
    fun _ _ => hhandles⟩
  · rw [gained_append, closed_append, gained_answers, hclosed, hhandles, List.append_nil,
      List.count_append, h.balance b]
    rfl
  · rw [gained_append, gained_answers, List.append_nil]
    exact h.nodup
  · rw [hphase] at hu; cases hu

/-- A server without tasks still gets only what the clients do. -/
theorem flow_unstarted {dictionaries : List Dictionary} {a : Flow.Action} {f : Flow}
    (ha : a.byServer = false) (hf : Flow.Step { dictionaries, clients } a f) :
    ∃ clients, f = { dictionaries, clients } := by
  cases hf with
  | client e => exact ⟨_, rfl⟩
  | arrive m ho => cases ho
  | lose ho => cases ho
  | route now hr => cases hr
  | refuse hr => cases hr
  | enqueue hr => cases hr
  | endRouter hr => cases hr
  | beginWrite o hw => cases hw
  | finishWrite hw => cases hw
  | failWrite hw => cases hw
  | endWriter hw => cases hw
  | signal => cases ha
  | abortRouter => cases ha
  | abortWriter => cases ha

/-- **What others do keeps a server orderly.** -/
theorem Orderly.background {a : Flow.Action} {f : Flow} (h : Orderly config log s)
    (ha : a.byServer = false) (hf : Flow.Step s.flow a f) :
    Orderly config log { s with flow := f } := by
  refine ⟨h.config_eq, h.balance, h.nodup, fun hu => ?_, fun hr => ?_, fun hn => ?_, h.settled⟩
  · obtain ⟨hlog, clients, hflow⟩ := h.unstarted hu
    rw [hflow] at hf
    exact ⟨hlog, flow_unstarted ha hf⟩
  · obtain ⟨hhandles, clients, early, as, hrun, has⟩ := h.running hr
    refine ⟨hhandles, clients, early, as ++ [a], ?_, fun b hb => ?_⟩
    · rw [Flow.run_append, hrun, Option.bind_some, Flow.run_singleton, hf.to_step]
    · rcases List.mem_append.1 hb with hb | hb
      · exact has b hb
      · rw [List.mem_singleton.1 hb]; exact ha
  · obtain ⟨hr, hw⟩ := h.idle hn
    exact ⟨Flow.router_ended_step hf hr, Flow.writer_ended_step hf hw⟩

/-- **Every turn keeps a server orderly.** -/
theorem Orderly.turn (h : Orderly config log s) (ht : Turn s log' s') :
    Orderly config (log ++ log') s' := by
  cases ht with
  | start outcome patience early => exact h.start outcome patience early
  | stop _ hrun ho => exact h.stop hrun ho
  | idle hp now outcome write =>
    rw [stop_of_ne hp]
    simpa [Trail.log] using h
  | background ha hf =>
    rw [List.append_nil]
    exact h.background ha hf

/-- **A server is orderly all its life.** -/
theorem Life.orderly (h : Life config clients log s) : Orderly config log s := by
  induction h with
  | created h => exact orderly_create h
  | turn _ ht ih => exact ih.turn ht

/-- What others do one after the other is a part of the server's life. -/
theorem Life.run {as : List Flow.Action} {f : Flow} (h : Life config clients log s)
    (hf : s.flow.run as = some f) (has : ∀ a ∈ as, a.byServer = false) :
    Life config clients log { s with flow := f } := by
  induction as generalizing s with
  | nil =>
    cases hf
    exact h
  | cons a rest ih =>
    obtain ⟨g, hg, hrest⟩ := Option.bind_eq_some_iff.1 hf
    obtain ⟨ha, hall⟩ := List.forall_mem_cons.1 has
    have hnext := h.turn (.background ha (.of_step hg))
    rw [List.append_nil] at hnext
    exact ih (s := { s with flow := g }) hnext hrest hall

/-! ### The life cycle -/

/-- **The server's own stop is a turn of its life**, whether it runs or not. -/
theorem turn_stop (s : Server) (now : Int) (outcome : Call → Outcome) (write : Record → Outcome) :
    Turn s ((s.stop now outcome write).2.log outcome) (s.stop now outcome write).1 := by
  by_cases hp : s.phase = .running
  case neg => exact .idle hp now outcome write
  obtain ⟨ms, t, hrun, ho, ht, hsettled, hans, hcalls, -⟩ :=
    Shutdown.run_stop hp now outcome write
  have hlog : (s.stop now outcome write).2.log outcome = Shutdown.answers ms := by
    rw [Trail.log, hcalls, hans, List.map_map]
    rfl
  rw [hlog, ← ht, ← hsettled.left_eq]
  exact .stop hp hrun ho

/-- **A stop of a server that runs leaves it stopped**, whatever becomes of the closes and writes. -/
theorem phase_stop (hp : s.phase = .running) (now : Int) (outcome : Call → Outcome)
    (write : Record → Outcome) : (s.stop now outcome write).1.phase = .stopped := by
  obtain ⟨ms, t, hrun, ho, ht, -⟩ := Shutdown.run_stop hp now outcome write
  rw [← ht]
  exact hrun.phase_of_finished ho

/-- A start of a fresh server leaves it in the phase that it reports, and in none between for a
caller who does not give up. -/
theorem phase_start (hp : s.phase = .unstarted) (outcome : Call → Outcome) (patience : Patience)
    (early : List Message) :
    (s.start outcome patience early).2.1.phase = (s.start outcome patience early).1.phase ∧
      ((s.start outcome patience early).2.1.phase = .running ∨
        (s.start outcome patience early).2.1.phase = .failed ∨
        (s.start outcome patience early).2.1.phase = .starting ∧ patience ≠ none) := by
  rcases @start_cases s outcome patience hp early with
    hall | ⟨result, s', trail, -, -, -, -, hstart, -, -, -, -, -, hphase, -, -, hgive⟩
  · rw [start_complete hp early hall]
    exact ⟨rfl, Or.inl rfl⟩
  · rw [hstart]
    refine ⟨hphase, ?_⟩
    cases result with
    | ready => exact Or.inl hphase
    | failed e => exact Or.inr (Or.inl hphase)
    | abandoned => exact Or.inr (Or.inr ⟨hphase, hgive hphase⟩)

/-- **The phases of a server only go forward.** -/
theorem Turn.phase (ht : Turn s log s') : s'.phase = s.phase ∨
    (s.phase = .unstarted ∧
      (s'.phase = .running ∨ s'.phase = .failed ∨ s'.phase = .starting)) ∨
    (s.phase = .running ∧ s'.phase = .stopped) := by
  cases ht with
  | start outcome patience early =>
    by_cases hp : s.phase = .unstarted
    · refine Or.inr (Or.inl ⟨hp, ?_⟩)
      obtain ⟨-, h | h | ⟨h, -⟩⟩ := phase_start hp outcome patience early
      · exact Or.inl h
      · exact Or.inr (Or.inl h)
      · exact Or.inr (Or.inr h)
    · rw [start_of_ne hp]; exact Or.inl rfl
  | stop hp hrun ho => exact Or.inr (Or.inr ⟨hp, hrun.phase_of_finished ho⟩)
  | idle hp now outcome write => rw [stop_of_ne hp]; exact Or.inl rfl
  | background => exact Or.inl rfl

/-- **The life cycle of a server.** At every moment of its life each backend was gained at most once
and closed at most as often. A server that is fresh, stopped or failed has closed all it gained and
has no task. A turn keeps its phase, or starts a fresh server, or stops a running one; a start that
is not given up has succeeded or failed, and a stop of a server that runs leaves it stopped. A start
of a server that is not fresh reports its phase, a stop of one that does not run reports nothing, and
both call nothing and leave it as it is. -/
theorem lifecycle (h : Life config clients log s) :
    (∀ b, (closed log).count b ≤ (gained log).count b ∧ (gained log).count b ≤ 1) ∧
    (s.phase = .unstarted ∨ s.phase = .stopped ∨ s.phase = .failed →
      s.handles = [] ∧ (∀ b, (closed log).count b = (gained log).count b) ∧
        s.flow.router = .ended ∧ s.flow.writer = .ended) ∧
    (∀ log' s', Turn s log' s' → s'.phase = s.phase ∨
      (s.phase = .unstarted ∧
        (s'.phase = .running ∨ s'.phase = .failed ∨ s'.phase = .starting)) ∨
      (s.phase = .running ∧ s'.phase = .stopped)) ∧
    (∀ outcome early, s.phase = .unstarted →
      (s.start outcome none early).2.1.phase = (s.start outcome none early).1.phase ∧
      ((s.start outcome none early).2.1.phase = .running ∨
        (s.start outcome none early).2.1.phase = .failed)) ∧
    (∀ outcome patience early, s.phase ≠ .unstarted →
      s.start outcome patience early = (.failed (.invalidState s.phase), s, {})) ∧
    (∀ now outcome write, s.phase = .running →
      (s.stop now outcome write).1.phase = .stopped) ∧
    (∀ now outcome write, s.phase ≠ .running → s.stop now outcome write = (s, {})) ∧
    (∀ now outcome write,
      Turn s ((s.stop now outcome write).2.log outcome) (s.stop now outcome write).1) := by
  have ho := h.orderly
  refine ⟨fun b => ⟨?_, List.nodup_iff_count_le_one.1 ho.nodup b⟩, fun hrest => ?_,
    fun _ _ ht => ht.phase, fun outcome early hp => ?_,
    fun outcome patience early hp => start_of_ne hp outcome patience early,
    fun now outcome write hp => phase_stop hp now outcome write,
    fun now outcome write hp => stop_of_ne hp now outcome write, turn_stop s⟩
  · rw [ho.balance b]
    exact Nat.le_add_right _ _
  · have hnr : s.phase ≠ .running := by
      rcases hrest with hp | hp | hp <;> rw [hp] <;> exact Phase.noConfusion
    have hns : s.phase ≠ .starting := by
      rcases hrest with hp | hp | hp <;> rw [hp] <;> exact Phase.noConfusion
    have hnil := ho.settled hnr hns
    refine ⟨hnil, fun b => ?_, ho.idle hnr⟩
    rw [ho.balance b, hnil]
    rfl
  · obtain ⟨heq, hphase | hphase | ⟨-, hne⟩⟩ := phase_start hp outcome none early
    · exact ⟨heq, Or.inl hphase⟩
    · exact ⟨heq, Or.inr hphase⟩
    · exact absurd rfl hne

/-- Every accepted configuration has a server that runs. -/
theorem exists_running (hv : config.validate = .ok ()) (clients : Registry)
    (early : List Message) : ∃ log s, Life config clients log s ∧ s.phase = .running ∧
      gained log = [.broker, .webSocket, .http, .history] ∧
      s.flow = Flow.launch { dictionaries := config.dictionaries, clients } early := by
  obtain ⟨-, -, -, -, -, url, hu⟩ := ServerConfig.validate_eq_ok_iff.1 hv
  have hcreate : create config clients = .ok _ := create_eq_ok_iff.2 ⟨hv, url, hu, rfl⟩
  have hlife := (Life.created hcreate).turn (.start (fun _ => .succeeds) none early)
  rw [start_complete rfl early fun _ _ => rfl] at hlife
  refine ⟨_, _, hlife, rfl, ?_, rfl⟩
  simp only [Trail.log, List.nil_append, gained, List.map_map, List.filterMap_map]
  exact attempts_gains

/-- An archive that never lets go of its connection. -/
def clingingArchive : Call → Outcome
  | .close .history => .hangs
  | _ => .succeeds

/-- A server that is started and stopped, over such an archive too, has closed all it gained. -/
theorem lifecycle_stopped : ∃ log s, Life { dictionaries := [.avionics] } ⟨256, []⟩ log s ∧
    s.phase = .stopped ∧ gained log = [.broker, .webSocket, .http, .history] ∧
    (∀ b, (closed log).count b = 1) ∧ s.handles = [] := by
  obtain ⟨log, s, hlife, hp, hgained, -⟩ :=
    exists_running ServerConfig.validate_avionics ⟨256, []⟩ []
  have hstop := hlife.turn (turn_stop s 0 clingingArchive fun _ => .succeeds)
  obtain ⟨ms, t, -, -, -, -, -, hcalls, -⟩ :=
    Shutdown.run_stop hp 0 clingingArchive fun _ => .succeeds
  obtain ⟨-, -, -, -, -, hstopped, -⟩ := lifecycle hlife
  have hphase := hstopped 0 clingingArchive (fun _ => .succeeds) hp
  obtain ⟨-, hrest, -⟩ := lifecycle hstop
  obtain ⟨hhandles, hcount, -⟩ := hrest (Or.inr (Or.inl hphase))
  have hgain : gained (log ++ (s.stop 0 clingingArchive fun _ => .succeeds).2.log
      clingingArchive) = [.broker, .webSocket, .http, .history] := by
    rw [gained_append, hgained, Trail.log, hcalls, List.map_map]
    exact congrArg _ (gained_close s.handles)
  refine ⟨_, _, hstop, hphase, hgain, fun b => ?_, hhandles⟩
  rw [hcount b, hgain]
  cases b <;> rfl

end Server

end TelemetryRelay
