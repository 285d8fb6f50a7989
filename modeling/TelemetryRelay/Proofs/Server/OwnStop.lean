import TelemetryRelay.Proofs.Server.Shutdown

/-!
# The server's own stop

The server lets its two tasks run until neither can go on before it waits for one of them, and a
task that it aborts waits there and is gone at once. This is one schedule among all.

* `Run.settle`, `Run.join`, `Run.release`: what the server does at each stage of a stop.
* `run_stop`: **the server's own stop is a shutdown**, and it waits for at most six limits.
-/

namespace TelemetryRelay

namespace Server

variable {u : Server} {trail : Trail} {f : Flow} {k : Task}

/-- Waiting for one of the two tasks. -/
def join (u : Server) : Task → Trail → Server × Trail
  | .router => u.joinRouter
  | .writer => u.joinWriter

theorem join_of_ended (h : u.flow.HasEnded k) : u.join k trail = (u, trail) := by
  cases k with
  | router =>
    have hr : u.flow.router = .ended := h
    simp [join, joinRouter, Flow.routerEnded, hr]
  | writer =>
    have hw : u.flow.writer = .ended := h
    simp [join, joinWriter, Flow.writerEnded, hw]

theorem join_of_running (h : ¬ u.flow.HasEnded k)
    (hf : Flow.Step u.flow k.abort f) :
    u.join k trail = ({ u with flow := f }, trail.wait u.config.shutdownTimeout) := by
  cases k with
  | router =>
    cases hf
    have hr : u.flow.routerEnded = false := by
      unfold Flow.routerEnded
      split
      · rename_i hr; exact absurd hr h
      · rfl
    simp [join, joinRouter, hr]
  | writer =>
    cases hf
    simp [join, joinWriter, Flow.writerEnded_eq_false h]

end Server

namespace Shutdown

variable {s : Server} {t : Shutdown} {ms : List Move} {k : Task}
variable {now : Int} {outcome : Call → Outcome} {write : Record → Outcome} {trail : Trail}

/-- What others do after the signal was found takes a stop along. -/
theorem Run.background : ∀ {as : List Flow.Action} {ms : List Move} {t : Shutdown} {f : Flow},
    Run s ms t → t.Settled → t.flow.stopping = true → t.flow.run as = some f →
    (∀ a ∈ as, a.byServer = false) → Run s (ms ++ as.map .background) (t.withFlow f) := by
  intro as
  induction as with
  | nil =>
    intro ms t f h _ _ hf _
    cases hf
    rw [List.map_nil, List.append_nil]
    exact h
  | cons a rest ih =>
    intro ms t f h hsettled hst hf ha
    obtain ⟨g, hg, hrest⟩ := Option.bind_eq_some_iff.1 hf
    obtain ⟨ha, hall⟩ := List.forall_mem_cons.1 ha
    have hag := Flow.Step.of_step hg
    have hs : Step t (.background a) (t.withFlow g) := by
      have hnoticed : g.noticing a = g := Flow.noticing_of_stopping (Flow.stopping_step hag hst)
      rw [← hnoticed]
      refine .background ha (fun k hk hwaiting => ?_) hag
      exact (hsettled k (by rw [hwaiting]; exact Abort.noConfusion)).task?_ne hag hk
    rw [List.map_cons, List.append_cons]
    exact ih (t := t.withFlow g) (.step h hs) (fun k hk => (hsettled k hk).step hag)
      (Flow.stopping_step hag hst) hrest hall

/-- Letting the tasks run is something that happens meanwhile. -/
theorem Run.settle (h : Run s ms t) (hsettled : t.Settled) (hst : t.flow.stopping = true)
    (now : Int) (write : Record → Outcome) : ∃ ms', answers ms' = [] ∧ (∀ k, ¬ Late k ms') ∧
      Run s (ms ++ ms') (t.withFlow (t.flow.settle now write)) ∧
      (t.withFlow (t.flow.settle now write)).Settled ∧
      (t.flow.settle now write).stopping = true ∧
      ∀ k, t.flow.HasEnded k → (t.flow.settle now write).HasEnded k := by
  obtain ⟨as, hrun, has⟩ := @Flow.settle_finishing t.flow now write hst
  refine ⟨as.map .background, ?_, ?_, h.background hsettled hst hrun fun a ha => ?_,
    fun k hk => (hsettled k hk).run hrun, Flow.stopping_run hrun hst, fun k he => he.run hrun⟩
  · simp [answers, List.filterMap_map, Function.comp_def, Move.answer?]
  · rintro k ⟨found, hfound⟩
    obtain ⟨a, -, ha⟩ := List.mem_map.1 hfound
    cases ha
  · cases has a ha <;> rfl

/-- **Waiting for a task.** It has ended, or it is aborted where it waits and is gone. -/
theorem Run.join (h : Run s ms t) (hs : t.stage = .join k) (hsettled : t.Settled)
    (hst : t.flow.stopping = true) (trail : Trail) :
    ∃ ms' t' trail', t.server.join k trail = (t'.server, trail') ∧ Run s (ms ++ ms') t' ∧
      answers ms' = [] ∧ t'.stage = .after k ∧ t'.server = { t.server with flow := t'.flow } ∧
      t'.Settled ∧ t'.flow.stopping = true ∧ trail'.calls = trail.calls ∧
      trail'.waited ≤ trail.waited + t.server.config.shutdownTimeout ∧
      (t.flow.HasEnded k → t'.flow = t.flow ∧ ∀ j, ¬ Late j ms') := by
  by_cases he : t.flow.HasEnded k
  · refine ⟨[.ended k], { t with stage := .after k }, trail, Server.join_of_ended he,
      h.step (.ended hs he), rfl, rfl, rfl, hsettled, hst, rfl, Nat.le_add_right _ _,
      fun _ => ⟨rfl, ?_⟩⟩
    rintro j ⟨found, hfound⟩
    cases List.mem_singleton.1 hfound
  · obtain ⟨f, hf⟩ : ∃ f, Flow.Step t.flow k.abort f := by
      cases k with
      | router => exact ⟨_, .abortRouter⟩
      | writer => exact ⟨_, .abortWriter⟩
    have hlate : Run s (ms ++ [.late k .waiting]) (t.abort k .waiting) :=
      h.step (.late hs he Abort.noConfusion)
    have hgone : Run s (ms ++ [.late k .waiting] ++ [.gone k]) ((t.abort k .waiting).withFlow f) :=
      hlate.step (.gone (by simp) hf)
    rw [List.append_assoc] at hgone
    refine ⟨_, (t.abort k .waiting).withFlow f, _, Server.join_of_running he hf, hgone, rfl, rfl,
      rfl, fun j hj => ?_, Flow.stopping_step hf hst, rfl, Nat.le_refl _, fun hk => absurd hk he⟩
    by_cases hjk : j = k
    · subst hjk
      exact Flow.hasEnded_abort hf
    · exact (hsettled j (by simpa [abort_aborts_of_ne _ hjk] using hj)).step hf

/-- Closing the WebSocket listener twice is closing it once. -/
theorem afterRelease_cons (b : Backend) (bs : List Backend) (clients : Registry) :
    Server.afterRelease outcome bs (Server.afterRelease (fun _ => outcome (.close b)) [b] clients) =
      Server.afterRelease outcome (b :: bs) clients := by
  unfold Server.afterRelease
  by_cases hb : b = .webSocket
  · subst hb
    by_cases ho : outcome (.close .webSocket) = .succeeds
    · -- nobody is left to be removed the second time
      simp [ho, Registry.disconnectAll, Function.comp_def]
    · simp [ho]
  · simp [Ne.symm hb]

/-- **Releasing the backends** is closing one after the other. -/
theorem Run.release (outcome : Call → Outcome) : ∀ {bs : List Backend} {ms : List Move}
    {t : Shutdown}, t.server.handles = bs → t.stage = .ready → Run s ms t →
    ∃ ms', answers ms' = bs.map (fun b => (.close b, outcome (.close b))) ∧
      (∀ k, ¬ Late k ms') ∧
      Run s (ms ++ ms') { t with server := { t.server with
        handles := []
        flow := { t.flow with clients := Server.afterRelease outcome bs t.flow.clients } } } := by
  intro bs
  induction bs with
  | nil =>
    intro ms t hb hs h
    obtain ⟨⟨config, archiveUrl, phase, handles, flow, catalog⟩, stage, aborts⟩ := t
    cases hb
    exact ⟨[], rfl, fun k => not_late_nil, by rw [List.append_nil]; exact h⟩
  | cons b rest ih =>
    intro ms t hb hs h
    have hclosed := (h.step (.close hs hb)).step (.closed (outcome (.close b)) rfl)
    obtain ⟨ms', hms, hlate, hrun⟩ := ih rfl rfl hclosed
    refine ⟨.close b :: .closed b (outcome (.close b)) :: ms', ?_, ?_, ?_⟩
    · rw [List.map_cons, ← hms]; rfl
    · rintro k ⟨found, hfound⟩
      have hrest : .late k found ∈ ms' := by simpa using hfound
      exact hlate k ⟨found, hrest⟩
    · rw [List.append_cons, List.append_cons]
      simp only [withFlow, flow, afterRelease_cons] at hrun
      rw [hs]
      exact hrun

/-- How long a release waits. -/
theorem release_waited_le (limit : Nat) (outcome : Call → Outcome) (bs : List Backend) :
    ∀ time, bs.foldl (fun time b => time + (outcome (.close b)).delay limit) time ≤
      time + bs.length * limit := by
  induction bs with
  | nil => intro time; simp
  | cons b rest ih =>
    intro time
    have hd : (outcome (.close b)).delay limit ≤ limit := by
      cases outcome (.close b) <;> simp [Outcome.delay]
    have hrest := ih (time + (outcome (.close b)).delay limit)
    rw [List.foldl_cons, List.length_cons, Nat.succ_mul]
    omega

/-- A release that is waited for to its end. -/
theorem releaseAll_patient (u : Server) (outcome : Call → Outcome) (trail : Trail) :
    u.releaseAll none outcome trail = (true,
      { u with
        handles := []
        flow := { u.flow with clients := Server.afterRelease outcome u.handles u.flow.clients } },
      { calls := trail.calls ++ u.handles.map .close
        waited := u.handles.foldl
          (fun time b => time + (outcome (.close b)).delay u.config.shutdownTimeout)
          trail.waited }) := by
  simp [Server.releaseAll, release_patient]

/-- **The server's own stop is a shutdown.** It closes every handle, waits for no more than a limit
for each task and for each close, and leaves no task behind. No task is late that ends when the
tasks run until neither can go on. -/
theorem run_stop (hp : s.phase = .running) (now : Int) (outcome : Call → Outcome)
    (write : Record → Outcome) : ∃ ms t, Run s ms t ∧ t.stage = .finished ∧
      t.server = (s.stop now outcome write).1 ∧ t.Settled ∧
      answers ms = s.handles.map (fun b => (.close b, outcome (.close b))) ∧
      (s.stop now outcome write).2.calls = s.handles.map .close ∧
      (s.stop now outcome write).2.waited ≤
        (s.handles.length + 2) * s.config.shutdownTimeout ∧
      ((∀ k, (s.flow.signal.settle now write).HasEnded k) → ∀ k, ¬ Late k ms) := by
  have hbegin : Run s [.notice] ⟨{ s with flow := s.flow.signal }, .join .router, fun _ => .none⟩ :=
    .step .begin .notice
  obtain ⟨ms₁, hans₁, hlate₁, hrun₁, hsettled₁, hst₁, -⟩ :=
    hbegin.settle (fun k hk => absurd rfl hk) rfl now write
  obtain ⟨ms₂, t₂, trail₂, hjoin₂, hrun₂, hans₂, hs₂, hserver₂, hsettled₂, hst₂, hcalls₂, hwait₂,
    hended₂⟩ := hrun₁.join rfl hsettled₁ hst₁ {}
  obtain ⟨ms₃, hans₃, hlate₃, hrun₃, hsettled₃, hst₃, hended₃⟩ :=
    hrun₂.settle hsettled₂ hst₂ now write
  obtain ⟨ms₄, t₄, trail₄, hjoin₄, hrun₄, hans₄, hs₄, hserver₄, hsettled₄, -, hcalls₄, hwait₄,
    hended₄⟩ := hrun₃.join hs₂ hsettled₃ hst₃ trail₂
  have hhandles : t₄.server.handles = s.handles := by rw [hserver₄, withFlow, hserver₂]; rfl
  obtain ⟨ms₅, hans₅, hlate₅, hrun₅⟩ := Run.release outcome hhandles hs₄ hrun₄
  have hrouter : (({ s with flow := s.flow.signal } : Server).settle now write).joinRouter {} =
      (t₂.server, trail₂) := hjoin₂
  have hwriter : (t₂.server.settle now write).joinWriter trail₂ = (t₄.server, trail₄) := hjoin₄
  have hstop : s.stop now outcome write =
      ({ t₄.server with
         phase := .stopped
         handles := []
         flow := { t₄.flow with clients := Server.afterRelease outcome s.handles t₄.flow.clients } },
        { calls := trail₄.calls ++ s.handles.map .close
          waited := s.handles.foldl
            (fun time b => time + (outcome (.close b)).delay t₄.server.config.shutdownTimeout)
            trail₄.waited }) := by
    unfold Server.stop
    rw [if_neg (not_not.2 hp)]
    simp only [hrouter, hwriter, releaseAll_patient, hhandles]
    rfl
  rw [hstop]
  refine ⟨_, _, hrun₅.step (.finish hs₄ rfl), rfl, rfl, fun k hk => ?_, ?_, ?_, ?_,
    fun hall k => ?_⟩
  · have he := hsettled₄ k hk
    cases k <;> exact he
  · simp only [answers_append, hans₁, hans₂, hans₃, hans₄, hans₅]
    exact List.append_nil _
  · simp only [hcalls₄, hcalls₂, List.nil_append]
  · have hconfig : t₄.server.config = s.config := hrun₄.config_eq
    have hconfig₂ : t₂.server.config = s.config := hrun₂.config_eq
    have hclosing := release_waited_le s.config.shutdownTimeout outcome s.handles trail₄.waited
    rw [Nat.add_mul]
    simp only [withFlow, hconfig, hconfig₂] at hwait₂ hwait₄ ⊢
    omega
  · obtain ⟨hflow₂, hlate₂⟩ := hended₂ (hall .router)
    have hwriter₂ : t₂.flow.HasEnded .writer := by rw [hflow₂]; exact hall .writer
    obtain ⟨-, hlate₄⟩ := hended₄ (hended₃ .writer hwriter₂)
    simp only [late_append, hlate₁, hlate₂, hlate₃, hlate₄, hlate₅, or_false]
    rintro (⟨found, hfound⟩ | ⟨found, hfound⟩) <;> cases List.mem_singleton.1 hfound

end Shutdown

end TelemetryRelay
