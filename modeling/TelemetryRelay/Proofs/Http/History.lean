import TelemetryRelay.Proofs.Catalog.Sharing
import TelemetryRelay.Proofs.Http.Query
import TelemetryRelay.Proofs.Http.Reachable

/-!
# History requests over HTTP

A history request names a window by two parameters that may both be left out. The window that is
filled in stays in the range of the clock, and begins after it ends only if both ends say so.

* `windowOf_int64`, `windowOf_ordered`: the window that is filled in.
* `history_endpoint`: **a history request is a read of the catalog on that window**, and its status
  tells the outcome.
-/

namespace TelemetryRelay

open Decimal (IsInt64 int64Min int64Max)

namespace Http

/-! ### Windows -/

variable {now : Int} {p : HistoryParameters}

/-- **The window that is filled in is in range**: an hour before the end is taken as the least time
if there is no such time. -/
theorem windowOf_int64 (hnow : IsInt64 now) (hp : p.Fit) :
    IsInt64 (windowOf now p).start ∧ IsInt64 (windowOf now p).finish := by
  have hfinish : IsInt64 (windowOf now p).finish := by
    unfold windowOf
    cases ht : p.finish with
    | none => exact hnow
    | some t => exact hp.finish t ht
  refine ⟨?_, hfinish⟩
  have hstart : (windowOf now p).start =
      p.start.getD (max int64Min ((windowOf now p).finish - defaultSpan)) := rfl
  rw [hstart]
  cases hs : p.start with
  | none =>
    unfold IsInt64 defaultSpan int64Min int64Max at *
    rw [Option.getD_none]
    omega
  | some s => exact hp.start s hs

/-- **A window whose start is left out is in order.** -/
theorem windowOf_ordered (hnow : IsInt64 now) (hp : p.Fit) (hs : p.start = none) :
    (windowOf now p).start ≤ (windowOf now p).finish := by
  have hfinish := (windowOf_int64 hnow hp).2
  have hstart : (windowOf now p).start =
      p.start.getD (max int64Min ((windowOf now p).finish - defaultSpan)) := rfl
  rw [hstart, hs, Option.getD_none]
  unfold IsInt64 defaultSpan int64Min at *
  omega

/-! ### Answers -/

/-- **The answer to a history request for each outcome of the read.** -/
inductive Answers : Except CatalogError (List Point) → Response → Prop where
  | points (points : List Point) : Answers (.ok points)
    { status := 200, contentType := some "application/json",
      body := (Json.array (points.map Point.toJson)).compact }
  | range (window : Window) :
    Answers (.error (.invalidRange window)) (.plain 400 (CatalogError.invalidRange window).message)
  | dictionary (key : String) : Answers (.error (.unknownDictionary key))
    (.plain 404 (CatalogError.unknownDictionary key).message)
  | measurement (key name : String) : Answers (.error (.unknownMeasurement key name))
    (.plain 404 (CatalogError.unknownMeasurement key name).message)
  | unavailable : Answers (.error .historyUnavailable)
    (.plain 503 CatalogError.historyUnavailable.message)
  | failed (reason : String) :
    Answers (.error (.history reason)) (.plain 502 (CatalogError.history reason).message)

theorem answers_showPoints (result : Except CatalogError (List Point)) :
    Answers result (showPoints result) := by
  cases result with
  | ok points => exact .points points
  | error e =>
    cases e with
    | invalidRange window => exact .range window
    | unknownDictionary key => exact .dictionary key
    | unknownMeasurement key name => exact .measurement key name
    | historyUnavailable => exact .unavailable
    | history reason => exact .failed reason

section Endpoint

variable {α : Type} {segment name : List Char} {key measurement : String}

/-- What a history request is answered, and what is asked for it, is what a read gives. -/
theorem respond_read (c : Catalog α) (reply : ArchiveAnswers α) (now : Int)
    (hs : Spells segment key) (hm : Spells name measurement) (hne : measurement ≠ "")
    {query : Option (List Char)} (hquery : ∀ q ∈ query, '#' ∉ q)
    (hp : HistoryParameters.ofQuery (query.getD []) = .ok p) :
    (respond reply.ask now c ⟨"GET", targetOf ["history".toList, segment, name] query⟩).run [] =
      (showPoints (c.read ⟨key, measurement, windowOf now p, p.maxPoints⟩ reply).1,
        (c.read ⟨key, measurement, windowOf now p, p.maxPoints⟩ reply).2) := by
  rw [respond_history hs hm hne hquery hp]
  rfl

/-- A request is bad exactly if its window begins after it ends. -/
theorem status_eq_bad_iff {ds : List Dictionary} {attached : α → Prop} {reply : ArchiveAnswers α}
    {request : HistoryRequest} {result : Except CatalogError (List Point)}
    {queries : List (ArchiveQuery α)} (h : request.Reads ds attached reply result queries) :
    (showPoints result).status = 400 ↔ request.window.finish < request.window.start := by
  have hother : ∀ {status : ℕ}, status ≠ 400 → request.window.start ≤ request.window.finish →
      (status = 400 ↔ request.window.finish < request.window.start) := by
    intro status hstatus hw
    exact ⟨fun h => absurd h hstatus, fun h => absurd h hw.not_gt⟩
  cases h with
  | refused he =>
    cases he with
    | range hw => exact ⟨fun _ => hw, fun _ => rfl⟩
    | dictionary hw _ => exact hother (by decide : 404 ≠ 400) hw
    | measurement hw _ _ => exact hother (by decide : 404 ≠ 400) hw
    | unavailable hw _ _ _ => exact hother (by decide : 503 ≠ 400) hw
  | failed hp _ => exact hother (by decide : 502 ≠ 400) hp.window
  | whole hp _ _ => exact hother (by decide : 200 ≠ 400) hp.window
  | downsampled hp _ _ _ _ => exact hother (by decide : 200 ≠ 400) hp.window

/-- An archive is asked exactly if the request passes all checks. -/
theorem queries_ne_nil_iff {c : Catalog α} {reply : ArchiveAnswers α} {request : HistoryRequest}
    {result : Except CatalogError (List Point)} {queries : List (ArchiveQuery α)}
    (h : request.Reads c.dictionaries (c.archive = some ·) reply result queries) :
    queries ≠ [] ↔ ∃ archive, request.Passes c.dictionaries (c.archive = some ·) archive := by
  cases h with
  | refused he =>
    refine ⟨fun h => absurd rfl h, ?_⟩
    rintro ⟨archive, hp⟩
    cases (Catalog.prepare_of_refused he).symm.trans (Catalog.prepare_of_passes hp)
  | failed hp _ => exact ⟨fun _ => ⟨_, hp⟩, fun _ => List.cons_ne_nil _ _⟩
  | whole hp _ _ => exact ⟨fun _ => ⟨_, hp⟩, fun _ => List.cons_ne_nil _ _⟩
  | downsampled hp _ _ _ _ => exact ⟨fun _ => ⟨_, hp⟩, fun _ => List.cons_ne_nil _ _⟩

/-- Only a start that is given can be after the end. -/
theorem windowOf_reversed_iff (hnow : IsInt64 now) (hp : p.Fit) :
    (windowOf now p).finish < (windowOf now p).start ↔
      ∃ s ∈ p.start, (windowOf now p).finish < s := by
  cases hs : p.start with
  | none =>
    have hw := windowOf_ordered hnow hp hs
    exact ⟨fun h => absurd h hw.not_gt, nofun⟩
  | some s =>
    have hstart : (windowOf now p).start = s := by
      rw [windowOf, hs]
      rfl
    rw [hstart]
    exact ⟨fun h => ⟨s, rfl, h⟩, fun ⟨t, ht, h⟩ => Option.some.inj ht ▸ h⟩

/-- **A history request is a read of the catalog** on the window that its parameters give, with an
hour before the end, or the least time, for a start that is left out, and the time of the request
for an end that is. The answer tells the outcome of the read and its points in their order; it is
bad only for a start that is given and after the end, and the archive is asked only if the window,
the dictionary and the measurement are right and there is one. -/
theorem history_endpoint (c : Catalog α) (reply : ArchiveAnswers α) {now : Int}
    (hnow : IsInt64 now) (hs : Spells segment key) (hm : Spells name measurement)
    (hne : measurement ≠ "") (p : HistoryParameters) :
    (p.Fit ↔ ∃ query, '#' ∉ query ∧ HistoryParameters.ofQuery query = .ok p) ∧
    ∀ query : Option (List Char), (∀ q ∈ query, '#' ∉ q) →
      HistoryParameters.ofQuery (query.getD []) = .ok p → ∀ start finish,
      finish = p.finish.getD now → start = p.start.getD (max int64Min (finish - 3600000)) →
        IsInt64 start ∧ IsInt64 finish ∧ (p.start = none → start ≤ finish) ∧
        ∃ result queries response,
          (respond reply.ask now c
            ⟨"GET", targetOf ["history".toList, segment, name] query⟩).run [] =
              (response, queries) ∧
          c.read ⟨key, measurement, ⟨start, finish⟩, p.maxPoints⟩ reply = (result, queries) ∧
          HistoryRequest.Reads ⟨key, measurement, ⟨start, finish⟩, p.maxPoints⟩ c.dictionaries
            (c.archive = some ·) reply result queries ∧
          Answers result response ∧
          (response.status = 400 ↔ ∃ s ∈ p.start, finish < s) ∧
          (queries ≠ [] ↔ ∃ archive,
            HistoryRequest.Passes ⟨key, measurement, ⟨start, finish⟩, p.maxPoints⟩
              c.dictionaries (c.archive = some ·) archive) := by
  refine ⟨HistoryParameters.fit_iff, ?_⟩
  rintro query hquery hp start finish rfl rfl
  have hfit := HistoryParameters.fit_of_ofQuery hp
  obtain ⟨hstart, hfinish⟩ := windowOf_int64 hnow hfit
  refine ⟨hstart, hfinish, windowOf_ordered hnow hfit, ?_⟩
  obtain ⟨result, queries, hreads⟩ :=
    c.exists_reads ⟨key, measurement, windowOf now p, p.maxPoints⟩ reply
  have hread := Catalog.read_of_reads hreads
  refine ⟨result, queries, showPoints result, ?_, hread, hreads, answers_showPoints result,
    ?_, queries_ne_nil_iff hreads⟩
  · rw [respond_read c reply now hs hm hne hquery hp, hread]
  · exact (status_eq_bad_iff hreads).trans (windowOf_reversed_iff hnow hfit)

end Endpoint

/-- An archive with two samples. -/
def pair (_ : ArchiveQuery Unit) : Except String (List Point) := .ok [⟨0, 1⟩, ⟨4, 2⟩]

/-- A request without a start reads the hour before its end. -/
theorem history_endpoint_end : ∃ response,
    (respond (ArchiveAnswers.ask pair) 5 ⟨[.avionics], some ()⟩
      ⟨"GET", "/history/av/altitude?end=9".toList⟩).run [] =
        (response, [⟨(), "av", "altitude", ⟨-3599991, 9⟩⟩]) ∧
    Answers (.ok [⟨0, 1⟩, ⟨4, 2⟩]) response := by
  have hs : Spells "av".toList "av" := ⟨by decide, by decide⟩
  have hm : Spells "altitude".toList "altitude" := ⟨by decide, by decide⟩
  have hnow : IsInt64 5 := ⟨by decide, by decide⟩
  obtain ⟨-, hendpoint⟩ := history_endpoint ⟨[.avionics], some ()⟩ pair hnow hs hm (by decide)
    ⟨none, some 9, none⟩
  obtain ⟨-, -, -, result, queries, response, hrun, hread, -, hanswers, -, -⟩ :=
    hendpoint (some "end=9".toList) (by decide) (by decide +kernel) _ _ rfl rfl
  cases hread
  exact ⟨response, hrun, hanswers⟩

end Http

end TelemetryRelay
