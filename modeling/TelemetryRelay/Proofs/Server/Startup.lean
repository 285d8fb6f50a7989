import TelemetryRelay.Proofs.Configuration.Uniqueness
import TelemetryRelay.Proofs.Dictionary.Registered
import TelemetryRelay.Server.Lifecycle

/-!
# Starting a server

A start makes its calls one after the other and stops at the first that does not succeed. What it
has gained by then it closes again, the last gained first, and it does so to the end.

* `acquire_complete`, `acquire_refused`: what the acquiring calls come to, with and without such a
  call.
* `release_patient`: releasing calls every close once, whatever becomes of each.
* `attempts_nodup`: no call of a start is made twice, so an outcome for each call is one for each
  step.
* `start_all_or_nothing`: **a start either gains everything, or gives back what it gained and
  reports the first call that did not succeed.**
-/

namespace TelemetryRelay

/-- What keeps a call from succeeding, when it is waited for up to `limit`. -/
def Outcome.obstacle? (limit : Nat) : Outcome → Option Obstacle
  | .succeeds => none
  | .fails causes => some (.failure causes)
  | .hangs => some (.timeout limit)

/-- How long a call is waited for. -/
def Outcome.delay (limit : Nat) : Outcome → Nat
  | .hangs => limit
  | _ => 0

/-- The two families of start errors. -/
inductive Refusal where
  | connect
  | bind
deriving DecidableEq, Repr

/-- The family of the error for a call, and the backend it names. -/
def Acquiring.refusal : Acquiring → Refusal × Backend
  | .connect _ => (.connect, .broker)
  | .subscribe _ => (.connect, .broker)
  | .bindWebSocket _ _ => (.bind, .webSocket)
  | .bindHttp _ _ => (.bind, .http)
  | .openHistory _ _ => (.connect, .history)

/-- The family of an error, the backend it names and the obstacle it reports. A subscription that
was refused counts as a failed connection to the broker. -/
def StartError.report? : StartError → Option ((Refusal × Backend) × Obstacle)
  | .connect backend _ obstacle => some ((.connect, backend), obstacle)
  | .subscribe _ _ obstacle => some ((.connect, .broker), obstacle)
  | .bind backend _ obstacle => some ((.bind, backend), obstacle)
  | .invalidState _ => none

/-- Whether a call subscribes to a channel. -/
def Call.subscribes : Call → Bool
  | .acquire (.subscribe _) => true
  | _ => false

theorem Outcome.obstacle?_eq_none_iff {limit : Nat} {o : Outcome} :
    o.obstacle? limit = none ↔ o = .succeeds := by
  cases o <;> simp [Outcome.obstacle?]

/-- A caller that waits for ever never breaks off. -/
theorem Patience.endsBefore_none (time : Nat) : Patience.endsBefore none time = false := rfl

/-! ### Acquiring -/

variable {limit : Nat} {outcome : Call → Outcome}

/-- **Acquiring when every call succeeds.** -/
theorem acquire_complete {patience : Patience} : ∀ (as : List Acquiring) (handles : List Backend)
    (trail : Trail), (∀ a ∈ as, outcome (.acquire a) = .succeeds) →
    acquire limit patience outcome as handles trail =
      (.complete, (as.filterMap Acquiring.gains).reverse ++ handles,
        { trail with calls := trail.calls ++ as.map .acquire }) := by
  intro as
  induction as with
  | nil => intro handles trail _; simp [acquire]
  | cons a rest ih =>
    intro handles trail h
    have ha := h a List.mem_cons_self
    have hr : ∀ b ∈ rest, outcome (.acquire b) = .succeeds :=
      fun b hb => h b (List.mem_cons_of_mem _ hb)
    simp only [acquire, ha]
    rw [ih _ _ hr]
    cases hg : a.gains <;> simp [Trail.call, hg]

/-- **Acquiring up to the first call that does not succeed.** -/
theorem acquire_refused {a : Acquiring} {after : List Acquiring} {obstacle : Obstacle}
    (ha : (outcome (.acquire a)).obstacle? limit = some obstacle) :
    ∀ (before : List Acquiring) (handles : List Backend) (trail : Trail),
      (∀ b ∈ before, outcome (.acquire b) = .succeeds) →
      acquire limit none outcome (before ++ a :: after) handles trail =
        (.refused a obstacle, (before.filterMap Acquiring.gains).reverse ++ handles,
          { calls := trail.calls ++ (before ++ [a]).map .acquire
            waited := trail.waited + (outcome (.acquire a)).delay limit }) := by
  intro before
  induction before with
  | nil =>
    intro handles trail _
    simp only [List.nil_append, acquire]
    cases ho : outcome (.acquire a) with
    | succeeds => rw [ho] at ha; cases ha
    | fails causes =>
      rw [ho] at ha; cases ha
      simp [Trail.call, Outcome.delay]
    | hangs =>
      rw [ho] at ha; cases ha
      simp [Trail.call, Trail.wait, Outcome.delay, Patience.endsBefore_none]
  | cons b rest ih =>
    intro handles trail h
    have hb := h b List.mem_cons_self
    have hr : ∀ c ∈ rest, outcome (.acquire c) = .succeeds :=
      fun c hc => h c (List.mem_cons_of_mem _ hc)
    simp only [List.cons_append, acquire, hb]
    rw [ih _ _ hr]
    cases hg : b.gains <;> simp [Trail.call, hg]

/-- **Releasing goes to its end**, whatever becomes of each close. -/
theorem release_patient : ∀ (bs : List Backend) (trail : Trail),
    release limit none outcome bs trail =
      ([], { calls := trail.calls ++ bs.map .close
             waited :=
               bs.foldl (fun time b => time + (outcome (.close b)).delay limit) trail.waited },
        true) := by
  intro bs
  induction bs with
  | nil => intro trail; simp [release]
  | cons b rest ih =>
    intro trail
    simp only [release]
    cases ho : outcome (.close b) <;>
      simp [ih, ho, Trail.call, Trail.wait, Outcome.delay, Patience.endsBefore_none]

/-- Either every call succeeds, or there is a first one that does not. -/
theorem first_obstacle (as : List Acquiring) :
    (∀ a ∈ as, outcome (.acquire a) = .succeeds) ∨
      ∃ before a after obstacle, as = before ++ a :: after ∧
        (∀ b ∈ before, outcome (.acquire b) = .succeeds) ∧
        (outcome (.acquire a)).obstacle? limit = some obstacle := by
  cases hf : as.find? fun a => ((outcome (.acquire a)).obstacle? limit).isSome with
  | none =>
    left
    intro a ha
    have := List.find?_eq_none.1 hf a ha
    exact Outcome.obstacle?_eq_none_iff.1 (Option.not_isSome_iff_eq_none.1 this)
  | some a =>
    right
    obtain ⟨ha, before, after, hsplit, hb⟩ := List.find?_eq_some_iff_append.1 hf
    obtain ⟨obstacle, ho⟩ := Option.isSome_iff_exists.1 ha
    refine ⟨before, a, after, obstacle, hsplit, ?_, ho⟩
    intro b hbm
    have := hb b hbm
    exact (@Outcome.obstacle?_eq_none_iff limit _).1 (by simpa using this)

/-! ### The calls of a start -/

namespace Server

variable {config : ServerConfig} {clients : Registry} {s : Server}

/-- What `create` makes of an accepted configuration. -/
theorem create_eq_ok_iff : create config clients = .ok s ↔
    config.validate = .ok () ∧ ∃ url, config.history.url = .ok url ∧
      s = { config, archiveUrl := url.text,
            flow := { dictionaries := config.dictionaries, clients } } := by
  unfold create
  simp only [bind_eq_ok_iff]
  constructor
  · rintro ⟨_, hv, url, hu, hs⟩
    cases hs
    exact ⟨hv, url, hu, rfl⟩
  · rintro ⟨hv, url, hu, rfl⟩
    exact ⟨(), hv, url, hu, rfl⟩

/-- **The order of a start**: the broker, one subscription for each measurement, the two listeners
and the archive. -/
theorem attempts_eq : s.attempts =
    .connect s.config.brokerUrl ::
      (s.config.dictionaries.flatMap fun d => d.measurements.map fun m => .subscribe m.channel) ++
      [.bindWebSocket s.config.host s.config.wssPort, .bindHttp s.config.host s.config.port,
        .openHistory s.archiveUrl s.config.history.db] := by
  simp [attempts, ServerConfig.channels, Dictionary.channels, List.map_flatMap,
    Function.comp_def]

/-- No call of a start is made twice. -/
theorem attempts_nodup (h : s.config.channels.Nodup) : s.attempts.Nodup := by
  have hsub : (s.config.channels.map Acquiring.subscribe).Nodup :=
    List.Pairwise.map _ (fun a b hab he => hab (Acquiring.subscribe.inj he)) h
  unfold attempts
  rw [List.append_assoc, List.nodup_append]
  refine ⟨by simp, ?_, ?_⟩
  · rw [List.nodup_append]
    exact ⟨hsub, by simp, by simp⟩
  · intro a ha b hb hab
    rw [List.mem_singleton] at ha
    subst ha; subst hab
    simp at hb

theorem gains_subscribe (channels : List String) :
    (channels.map Acquiring.subscribe).filterMap Acquiring.gains = [] := by
  simp [List.filterMap_map, Function.comp_def, Acquiring.gains]

/-- What a start gains when nothing is refused. -/
theorem attempts_gains :
    s.attempts.filterMap Acquiring.gains = [.broker, .webSocket, .http, .history] := by
  unfold attempts
  rw [List.filterMap_append, List.filterMap_append, gains_subscribe]
  rfl

/-- A start gains no backend twice. -/
theorem gains_nodup {before after : List Acquiring} (h : s.attempts = before ++ after) :
    (before.filterMap Acquiring.gains).Nodup := by
  -- a part of the whole start, which gains four different backends
  have hall : (s.attempts.filterMap Acquiring.gains).Nodup := by rw [attempts_gains]; decide
  rw [h, List.filterMap_append] at hall
  exact (List.nodup_append.1 hall).1

theorem countP_subscribes : (s.attempts.map Call.acquire).countP Call.subscribes =
    s.config.channels.length := by
  unfold attempts
  simp only [List.map_append, List.map_map, List.countP_append]
  have h : (s.config.channels.map (Call.acquire ∘ Acquiring.subscribe)).countP Call.subscribes =
      s.config.channels.length := by
    rw [List.countP_map, List.countP_eq_length]
    intro _ _; rfl
  rw [h]
  simp [Call.subscribes]

/-- The error for a refused call is of the family that the call belongs to. -/
theorem refusal_report (a : Acquiring) (obstacle : Obstacle) :
    (s.refusal a obstacle).report? = some (a.refusal, obstacle) := by
  cases a <;> rfl

/-- Each backend is closed once if it is among those gained, and not at all otherwise. -/
theorem count_close (as : List Acquiring) {bs : List Backend} (hb : bs.Nodup) (b : Backend) :
    (as.map Call.acquire ++ bs.reverse.map Call.close).count (.close b) =
      if b ∈ bs then 1 else 0 := by
  have ha : (as.map Call.acquire).count (.close b) = 0 := by
    rw [List.count_eq_zero]; simp
  have hinj : Function.Injective Call.close := fun x y h => Call.close.inj h
  rw [List.count_append, ha, Nat.zero_add, List.map_reverse, List.count_reverse]
  have hm : (bs.map Call.close).count (.close b) = bs.count b := by
    induction bs with
    | nil => rfl
    | cons c rest ih =>
      rw [List.map_cons, List.count_cons, List.count_cons, ih (List.nodup_cons.1 hb).2]
      simp
  rw [hm, hb.count]

/-! ### Starting -/

/-- A start of a fresh server when every call succeeds. -/
theorem start_complete {patience : Patience} (hp : s.phase = .unstarted) (early : List Message)
    (h : ∀ a ∈ s.attempts, outcome (.acquire a) = .succeeds) :
    s.start outcome patience early =
      (.ready s.config.port s.config.wssPort s.config.channels.length,
        { s with phase := .running, handles := [.history, .http, .webSocket, .broker]
                 flow := s.flow.launch early
                 catalog := s.catalogOf [.history, .http, .webSocket, .broker] },
        { calls := s.attempts.map .acquire }) := by
  unfold start
  rw [if_neg (by simp [hp]), acquire_complete _ _ _ h, attempts_gains]
  rfl

/-- A start of a fresh server up to the first call that does not succeed. -/
theorem start_refused (hp : s.phase = .unstarted) (early : List Message)
    {before after : List Acquiring} {a : Acquiring} {obstacle : Obstacle}
    (hs : s.attempts = before ++ a :: after)
    (hb : ∀ b ∈ before, outcome (.acquire b) = .succeeds)
    (ha : (outcome (.acquire a)).obstacle? s.config.connectTimeout = some obstacle) :
    ∃ s' waited, s.start outcome none early =
      (.failed (s.refusal a obstacle), s',
        { calls := (before ++ [a]).map .acquire ++
            (before.filterMap Acquiring.gains).reverse.map .close
          waited }) ∧
      s'.phase = .failed ∧ s'.handles = [] := by
  unfold start
  rw [if_neg (by simp [hp]), hs, acquire_refused ha before _ _ hb]
  simp only [releaseAll, release_patient, List.append_nil, List.nil_append]
  exact ⟨_, _, rfl, rfl, rfl⟩

/-- **A start gains everything or gives everything back.** Its calls come in a fixed order, and no
two are the same. If one does not succeed, none is made after it: what was gained is closed, the
last gained first and each once, whatever becomes of these closes, the server has failed, and the
error is that of this call. If all succeed, nothing is closed and the server runs. -/
theorem start_all_or_nothing (h : config.validate = .ok ()) (clients : Registry)
    (outcome : Call → Outcome) (early : List Message) :
    ∃ s url, create config clients = .ok s ∧ s.phase = .unstarted ∧
      config.history.url = .ok url ∧
      s.attempts = .connect config.brokerUrl ::
        (config.dictionaries.flatMap fun d => d.measurements.map fun m => .subscribe m.channel) ++
        [.bindWebSocket config.host config.wssPort, .bindHttp config.host config.port,
          .openHistory url.text config.history.db] ∧
      s.attempts.Nodup ∧
      ∃ result s' trail, s.start outcome none early = (result, s', trail) ∧
        ((∃ before a after obstacle, s.attempts = before ++ a :: after ∧
            (∀ b ∈ before, outcome (.acquire b) = .succeeds) ∧
            (outcome (.acquire a)).obstacle? config.connectTimeout = some obstacle ∧
            trail.calls = (before ++ [a]).map .acquire ++
              (before.filterMap Acquiring.gains).reverse.map .close ∧
            (∀ b, trail.calls.count (.close b) =
              if b ∈ before.filterMap Acquiring.gains then 1 else 0) ∧
            result = .failed (s.refusal a obstacle) ∧
            (s.refusal a obstacle).report? = some (a.refusal, obstacle) ∧
            s'.phase = .failed ∧ s'.handles = []) ∨
          ((∀ a ∈ s.attempts, outcome (.acquire a) = .succeeds) ∧
            trail.calls = s.attempts.map .acquire ∧
            result = .ready config.port config.wssPort (trail.calls.countP Call.subscribes) ∧
            s'.phase = .running ∧ s'.handles = [.history, .http, .webSocket, .broker])) := by
  obtain ⟨-, -, -, -, -, url, hu⟩ := ServerConfig.validate_eq_ok_iff.1 h
  obtain ⟨s, hs⟩ : ∃ s, create config clients = .ok s :=
    ⟨_, create_eq_ok_iff.2 ⟨h, url, hu, rfl⟩⟩
  obtain ⟨-, url', hu', rfl⟩ := create_eq_ok_iff.1 hs
  obtain rfl : url = url' := Except.ok.inj (hu.symm.trans hu')
  refine ⟨_, url, hs, rfl, hu, attempts_eq, attempts_nodup (ServerConfig.channels_nodup h), ?_⟩
  rcases @first_obstacle config.connectTimeout outcome _ with
    hall | ⟨before, a, after, obstacle, hsplit, hb, ha⟩
  · refine ⟨_, _, _, start_complete rfl early hall, Or.inr ⟨hall, rfl, ?_, rfl, rfl⟩⟩
    rw [countP_subscribes]
  · obtain ⟨s', waited, hstart, hphase, hhandles⟩ := start_refused rfl early hsplit hb ha
    refine ⟨_, s', _, hstart, Or.inl ⟨before, a, after, obstacle, hsplit, hb, ha, rfl, ?_, rfl,
      refusal_report a obstacle, hphase, hhandles⟩⟩
    exact fun b => count_close _ (gains_nodup hsplit) b

/-- A broker that refuses the second of two subscriptions and never lets go of its connection. -/
def refusingBroker : Call → Outcome
  | .acquire (.subscribe channel) => if channel == "av/stage" then .fails ["refused"] else .succeeds
  | .close .broker => .hangs
  | _ => .succeeds

/-- With this broker a start fails, and gives its connection back. -/
theorem start_refused_subscription :
    ∃ s result s' trail, create { dictionaries := [.avionics] } ⟨256, []⟩ = .ok s ∧
      s.start refusingBroker none [] = (result, s', trail) ∧ s'.phase = .failed ∧
      s'.handles = [] := by
  obtain ⟨s, url, hs, -, -, ha, -, result, s', trail, hstart, h⟩ :=
    @start_all_or_nothing _ ServerConfig.validate_avionics ⟨256, []⟩ refusingBroker []
  refine ⟨s, result, s', trail, hs, hstart, ?_⟩
  rcases h with ⟨_, _, _, _, -, -, -, -, -, -, -, hphase, hhandles⟩ | ⟨hall, -⟩
  · exact ⟨hphase, hhandles⟩
  · -- the second subscription does not succeed
    have hmem : .subscribe "av/stage" ∈ s.attempts := by
      rw [ha]; simp [Dictionary.avionics, Measurement.stage]
    have hstage := hall _ hmem
    cases hstage

end Server

end TelemetryRelay
