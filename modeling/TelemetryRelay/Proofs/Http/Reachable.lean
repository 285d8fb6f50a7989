import Mathlib.Data.List.TakeWhile
import TelemetryRelay.Http.Server
import TelemetryRelay.Proofs.Configuration.Uniqueness
import TelemetryRelay.Proofs.Dictionary.Registered
import TelemetryRelay.Proofs.Text.Percent

/-!
# What is listed can be fetched

A path is cut at its slashes before anything is decoded, so a key or a name may hold every
character as long as it is written as one segment that decodes to it (`Spells`); percent-encoding
writes every text so (`spells_encodeChars`). No two dictionaries of an accepted configuration share
a key, and no two measurements of a dictionary a name, so the first hit of a look-up is what was
listed.

* `route_dictionary`, `route_history`: the routes of such paths.
* `listed_answers`: **what is listed is found**, dictionaries as their documents and measurements as
  history requests, and nothing else is.

The one exception is a dictionary whose key is empty. It is accepted and listed, but the last
segment of a path is never empty, so its document has no path (`empty_key_not_found`).
-/

namespace TelemetryRelay.Http

/-- Characters none of which ends a segment or a path. -/
def Plain (segment : List Char) : Prop := ∀ c ∈ segment, c ≠ '/' ∧ c ≠ '?' ∧ c ≠ '#'

instance (segment : List Char) : Decidable (Plain segment) :=
  List.decidableBAll (fun c => c ≠ '/' ∧ c ≠ '?' ∧ c ≠ '#') segment

/-- **A segment spells a text** if it is one segment of a path and decodes to the text. -/
structure Spells (segment : List Char) (text : String) : Prop where
  plain : Plain segment
  decodes : decodeParameter? segment = some text

/-- The target of a request: segments, each behind a slash, and perhaps a query. -/
def targetOf (segments : List (List Char)) (query : Option (List Char) := none) : List Char :=
  segments.flatMap ('/' :: ·) ++ query.elim [] ('?' :: ·)

/-! ### Segments -/

/-- Percent-encoding spells every text. -/
theorem spells_encodeChars {stands : Char → Bool} (hp : stands '%' = false)
    (hs : stands '/' = false) (hq : stands '?' = false) (hf : stands '#' = false) (text : String) :
    Spells (Percent.encodeChars stands text) text where
  plain c hc := by
    rcases Percent.mem_encodeChars hc with ⟨-, h, -⟩ | rfl | ⟨n, hn, rfl⟩
    · refine ⟨?_, ?_, ?_⟩ <;> rintro rfl
      · exact Bool.false_ne_true (hs.symm.trans h)
      · exact Bool.false_ne_true (hq.symm.trans h)
      · exact Bool.false_ne_true (hf.symm.trans h)
    · decide
    · exact (by decide : ∀ n < 16, Percent.hexDigit n ≠ '/' ∧ Percent.hexDigit n ≠ '?' ∧
        Percent.hexDigit n ≠ '#') n hn
  decodes := by
    rw [decodeParameter?, Percent.decode_encodeChars hp, Utf8.decode?_octets]

/-- Only the empty segment spells the empty text. -/
theorem Spells.eq_nil_iff {segment : List Char} {text : String} (h : Spells segment text) :
    segment = [] ↔ text = "" := by
  constructor
  · rintro rfl
    exact (Option.some.inj h.decodes).symm
  · rintro rfl
    have hdec := Utf8.octets_eq_nil_iff.2 rfl ▸ Utf8.decode?_eq_some_iff.1 h.decodes
    by_contra hne
    refine Percent.decode_ne_nil (fun hoct => hne ?_) hdec.symm
    rw [← String.toList_ofList (l := segment), Utf8.octets_eq_nil_iff.1 hoct]
    rfl

section Target

variable {segments : List (List Char)} {query : Option (List Char)}

theorem localPart_targetOf (hne : segments ≠ []) :
    localPart (targetOf segments query) = targetOf segments query := by
  obtain ⟨segment, rest, rfl⟩ := List.exists_cons_of_ne_nil hne
  rfl

/-- A path ends where its query begins, or with the target. -/
theorem cut_targetOf (hplain : ∀ s ∈ segments, Plain s) :
    (targetOf segments query).takeWhile (fun c => decide (c ≠ '?' ∧ c ≠ '#')) =
        segments.flatMap ('/' :: ·) ∧
      (targetOf segments query).dropWhile (fun c => decide (c ≠ '?' ∧ c ≠ '#')) =
        query.elim [] ('?' :: ·) := by
  have hpath : ∀ c ∈ segments.flatMap ('/' :: ·), decide (c ≠ '?' ∧ c ≠ '#') = true := by
    intro c hc
    obtain ⟨s, hs, hcs⟩ := List.mem_flatMap.1 hc
    rcases List.mem_cons.1 hcs with rfl | hcs
    · decide
    · exact decide_eq_true (hplain s hs c hcs).2
  rw [targetOf, List.takeWhile_append_of_pos hpath, List.dropWhile_append_of_pos hpath]
  cases query <;> simp

theorem pathOf_targetOf (hne : segments ≠ []) (hplain : ∀ s ∈ segments, Plain s) :
    pathOf (targetOf segments query) = segments.flatMap ('/' :: ·) := by
  rw [pathOf, localPart_targetOf hne]
  exact (cut_targetOf hplain).1

theorem queryOf_targetOf (hne : segments ≠ []) (hplain : ∀ s ∈ segments, Plain s)
    (hquery : ∀ q ∈ query, '#' ∉ q) : queryOf (targetOf segments query) = query.getD [] := by
  rw [queryOf, localPart_targetOf hne, (cut_targetOf hplain).2]
  cases query with
  | none => rfl
  | some q =>
    refine List.takeWhile_eq_self_iff.2 fun c hc => decide_eq_true ?_
    rintro rfl
    exact hquery q rfl hc

/-- Cutting a text at its separators gives the pieces back. -/
theorem splitOn_pieces {x : Char} : ∀ {pieces : List (List Char)} {first : List Char}, x ∉ first →
    (∀ s ∈ pieces, x ∉ s) →
    (first ++ pieces.flatMap (x :: ·)).splitOn x = first :: pieces := by
  intro pieces
  induction pieces with
  | nil =>
    intro first hfirst _
    rw [List.flatMap_nil, List.append_nil]
    exact List.splitOn_eq_singleton hfirst
  | cons s rest ih =>
    intro first hfirst hrest
    rw [List.flatMap_cons, List.cons_append,
      List.splitOn_append_cons_self_of_not_mem hfirst,
      ih (hrest s List.mem_cons_self) fun p hp => hrest p (List.mem_cons_of_mem _ hp)]

end Target

/-! ### Routes -/

variable {segment name : List Char} {key measurement : String} {query : Option (List Char)}

theorem splitOn_pathOf {segments : List (List Char)} (hne : segments ≠ [])
    (hplain : ∀ s ∈ segments, Plain s) :
    (pathOf (targetOf segments query)).splitOn '/' = [] :: segments := by
  rw [pathOf_targetOf hne hplain, ← List.nil_append (segments.flatMap _)]
  exact splitOn_pieces List.not_mem_nil fun s hs hc => (hplain s hs _ hc).1 rfl

/-- The first segments of the paths. -/
theorem plain_first : Plain "dictionaries".toList ∧ Plain "history".toList := by decide

theorem route_list :
    Route.ofPath? (pathOf (targetOf ["dictionaries".toList] query)) = some .dictionaries := by
  rw [Route.ofPath?, splitOn_pathOf (by simp) (List.forall_mem_singleton.2 plain_first.1)]
  rfl

theorem Spells.isEmpty_iff (h : Spells segment key) :
    (String.ofList segment).isEmpty = true ↔ key = "" := by
  rw [← h.eq_nil_iff, String.isEmpty_iff]
  simp

/-- The path of a dictionary is known unless its key is empty. -/
theorem route_dictionary (h : Spells segment key) :
    Route.ofPath? (pathOf (targetOf ["dictionaries".toList, segment] query)) =
      if key = "" then none else some (.dictionary segment) := by
  have hplain : ∀ s ∈ ["dictionaries".toList, segment], Plain s :=
    List.forall_mem_cons.2 ⟨plain_first.1, List.forall_mem_singleton.2 h.plain⟩
  rw [Route.ofPath?, splitOn_pathOf (by simp) hplain]
  show (if (String.ofList segment).isEmpty then none
    else some (Route.dictionary (String.ofList segment).toList)) = _
  simp only [h.isEmpty_iff, String.toList_ofList]

/-- The path of a measurement is known, whatever the key of its dictionary. -/
theorem route_history (h : Spells segment key) (hm : Spells name measurement)
    (hne : measurement ≠ "") :
    Route.ofPath? (pathOf (targetOf ["history".toList, segment, name] query)) =
      some (.history segment name) := by
  have hplain : ∀ s ∈ ["history".toList, segment, name], Plain s :=
    List.forall_mem_cons.2 ⟨plain_first.2, List.forall_mem_cons.2 ⟨h.plain,
      List.forall_mem_singleton.2 hm.plain⟩⟩
  rw [Route.ofPath?, splitOn_pathOf (by simp) hplain]
  show (if (String.ofList name).isEmpty then none
    else some (Route.history (String.ofList segment).toList (String.ofList name).toList)) = _
  simp only [hm.isEmpty_iff, String.toList_ofList, if_neg hne]

/-! ### Answers -/

section Answers

variable {α : Type} {f : Type → Type} [Monad f]
  {ask : α → String → String → Window → f (Except String (List Point))} {now : Int}
  {c : Catalog α} {d : Dictionary} {m : Measurement}

theorem respond_list : respond ask now c ⟨"GET", targetOf ["dictionaries".toList] query⟩ =
    pure (listDictionaries c) := by
  simp only [respond, route_list, if_true, get]

/-- What a request for the dictionary of a key gets. -/
theorem respond_dictionary (h : Spells segment key) :
    respond ask now c ⟨"GET", targetOf ["dictionaries".toList, segment] query⟩ =
      pure (if key = "" then .notFound
        else match c.dictionary? key with
          | some d => .document d.toJson
          | none => .refused (.unknownDictionary key)) := by
  rw [respond, route_dictionary h]
  by_cases hk : key = ""
  · rw [if_pos hk, if_pos hk]
  · rw [if_neg hk, if_neg hk]
    cases hd : c.dictionary? key <;> simp only [if_true, get, showDictionary, h.decodes, hd]

/-- A request for the samples of a measurement reaches the catalog with exactly its names. -/
theorem respond_history (h : Spells segment key) (hm : Spells name measurement)
    (hne : measurement ≠ "") (hquery : ∀ q ∈ query, '#' ∉ q) {p : HistoryParameters}
    (hp : HistoryParameters.ofQuery (query.getD []) = .ok p) :
    respond ask now c ⟨"GET", targetOf ["history".toList, segment, name] query⟩ = do
      return showPoints (← c.history ask ⟨key, measurement, windowOf now p, p.maxPoints⟩) := by
  have hplain : ∀ s ∈ ["history".toList, segment, name], Plain s :=
    List.forall_mem_cons.2 ⟨plain_first.2, List.forall_mem_cons.2 ⟨h.plain,
      List.forall_mem_singleton.2 hm.plain⟩⟩
  rw [respond, route_history h hm hne]
  simp only [if_true, get, showHistory, h.decodes, hm.decodes,
    queryOf_targetOf (List.cons_ne_nil _ _) hplain hquery, hp]

/-- A listed dictionary is the one that its key finds. -/
theorem dictionary?_of_mem (hk : (c.dictionaries.map (·.key)).Nodup) (hd : d ∈ c.dictionaries) :
    c.dictionary? d.key = some d :=
  (find?_key_eq_some_iff hk).2 ⟨hd, rfl⟩

theorem dictionary?_eq_none (h : key ∉ c.dictionaries.map (·.key)) : c.dictionary? key = none := by
  rw [Catalog.dictionary?, List.find?_eq_none]
  intro d hd hkey
  exact h (List.mem_map.2 ⟨d, hd, beq_iff_eq.1 hkey⟩)

/-- A listed measurement passes every check of a history request but those of the window and the
archive. -/
theorem prepare_of_mem (hk : (c.dictionaries.map (·.key)).Nodup) (hd : d ∈ c.dictionaries)
    (hr : d.Registered) (hm : m ∈ d.measurements) (window : Window) (maxPoints : Option Nat) :
    c.prepare ⟨d.key, m.name, window, maxPoints⟩ =
      if window.finish < window.start then .error (.invalidRange window)
      else c.archive.elim (.error .historyUnavailable) .ok := by
  have hname : d.find? m.name = some m := by
    rw [d.find?_eq]
    exact (find?_key_eq_some_iff hr.sound.names_nodup).2 ⟨hm, rfl⟩
  simp only [Catalog.prepare, dictionary?_of_mem hk hd, hname]
  cases c.archive <;> rfl

end Answers

/-- **What is listed can be fetched.** A catalog that serves an accepted configuration lists its
dictionaries in their order. A path that spells a listed key gets the document of its dictionary,
unless the key is empty, and a path that spells any other key gets 404. A path that spells a
measurement reaches the catalog with the key and the name, which are known there. Percent-encoding
spells every text. -/
theorem listed_answers {config : ServerConfig} (hv : config.validate = .ok ())
    (hr : ∀ d ∈ config.dictionaries, d.Registered) {α : Type} {f : Type → Type} [Monad f]
    (ask : α → String → String → Window → f (Except String (List Point))) (now : Int)
    {c : Catalog α} (hc : c.dictionaries = config.dictionaries)
    (query : Option (List Char)) :
    respond ask now c ⟨"GET", targetOf ["dictionaries".toList] query⟩ =
      pure (.document (.array (config.dictionaries.map Dictionary.summaryJson))) ∧
    (∀ d ∈ config.dictionaries, ∀ segment, Spells segment d.key →
      respond ask now c ⟨"GET", targetOf ["dictionaries".toList, segment] query⟩ =
        pure (if d.key = "" then .notFound else .document d.toJson)) ∧
    (∀ key segment, key ∉ config.dictionaryKeys → Spells segment key → ∃ response,
      respond ask now c ⟨"GET", targetOf ["dictionaries".toList, segment] query⟩ =
        pure response ∧ response.status = 404) ∧
    (∀ d ∈ config.dictionaries, ∀ m ∈ d.measurements, ∀ segment name, Spells segment d.key →
      Spells name m.name → (∀ q ∈ query, '#' ∉ q) → ∀ p,
      HistoryParameters.ofQuery (query.getD []) = .ok p →
        respond ask now c ⟨"GET", targetOf ["history".toList, segment, name] query⟩ = (do
          return showPoints (← c.history ask ⟨d.key, m.name, windowOf now p, p.maxPoints⟩)) ∧
        ∀ window maxPoints, c.prepare ⟨d.key, m.name, window, maxPoints⟩ =
          if window.finish < window.start then .error (.invalidRange window)
          else c.archive.elim (.error .historyUnavailable) .ok) ∧
    ∀ stands : Char → Bool, stands '%' = false → stands '/' = false → stands '?' = false →
      stands '#' = false → ∀ text, Spells (Percent.encodeChars stands text) text := by
  have hk : (c.dictionaries.map (·.key)).Nodup := hc ▸ config.keys_nodup hv
  refine ⟨?_, fun d hd segment h => ?_, fun key segment hkey h => ?_,
    fun d hd m hm segment name h hname hquery p hp => ⟨?_, fun window maxPoints => ?_⟩,
    fun _ => spells_encodeChars⟩
  · rw [respond_list, listDictionaries, hc]
  · rw [respond_dictionary h, dictionary?_of_mem hk (hc ▸ hd)]
  · refine ⟨_, respond_dictionary h, ?_⟩
    rw [dictionary?_eq_none (hc ▸ hkey)]
    split <;> rfl
  · have hne : m.name ≠ "" := by
      intro hempty
      obtain ⟨x, hx, -⟩ := (hr d hd).sound.name_nonBlank m hm
      rw [hempty] at hx
      cases hx
    exact respond_history h hname hne hquery hp
  · exact prepare_of_mem hk (hc ▸ hd) (hr d hd) hm window maxPoints

end TelemetryRelay.Http

namespace TelemetryRelay

/-- How well a station on the ground hears the rocket. -/
def Measurement.signal : Measurement := ⟨"signal?", "gs/signal", [⟨"dB", .integer, some 0, some 90⟩]⟩

/-- A dictionary whose key holds a slash, a blank and a percent sign. -/
def Dictionary.ground : Dictionary := (empty "Ground" "gs/1 50%").push .signal rfl rfl

theorem Dictionary.ground_registered : ground.Registered :=
  .add (m := .signal) (.empty "Ground" "gs/1 50%") (List.forall_mem_singleton.2 rfl) rfl

namespace Http

/-- An archive that holds nothing. -/
def askNothing (_ : Unit) (_ _ : String) (_ : Window) : Id (Except String (List Point)) := .ok []

/-- A key and a name that need encoding. -/
theorem listed_answers_encoded :
    respond askNothing 0 ⟨[.ground], some ()⟩
        ⟨"GET", "/dictionaries/gs%2F1%2050%25".toList⟩ = .document Dictionary.ground.toJson ∧
      respond askNothing 0 ⟨[.ground], some ()⟩
        ⟨"GET", "/history/gs%2F1%2050%25/signal%3F".toList⟩ = .document (.array []) := by
  have hv : ServerConfig.validate { dictionaries := [.ground] } = .ok () := rfl
  have hr : ∀ d ∈ [Dictionary.ground], d.Registered :=
    List.forall_mem_singleton.2 Dictionary.ground_registered
  obtain ⟨-, hdictionary, -, hhistory, hspells⟩ :=
    listed_answers hv hr askNothing 0 (c := ⟨[.ground], some ()⟩) rfl none
  have hspells := hspells Percent.isUnreserved rfl rfl rfl rfl
  obtain ⟨hreached, hprepare⟩ := hhistory .ground List.mem_cons_self .signal List.mem_cons_self
    _ _ (hspells _) (hspells _) nofun {} rfl
  refine ⟨hdictionary .ground List.mem_cons_self _ (hspells _), hreached.trans ?_⟩
  rw [Catalog.history, hprepare]
  rfl

/-- **A dictionary whose key is empty has no path**, though its configuration is accepted and it is
listed. -/
theorem empty_key_not_found : ¬ ∀ (config : ServerConfig) (d : Dictionary),
    config.validate = .ok () → (∀ d ∈ config.dictionaries, d.Registered) →
      d ∈ config.dictionaries →
        respond askNothing 0 ⟨config.dictionaries, none⟩ ⟨"GET", targetOf ["dictionaries".toList,
          Percent.encodeChars Percent.isUnreserved d.key]⟩ = .document d.toJson := by
  intro h
  have hanswer := h { dictionaries := [.empty "Void" ""] } (.empty "Void" "") rfl
    (List.forall_mem_singleton.2 (.empty "Void" "")) List.mem_cons_self
  have hstatus := congrArg Response.status hanswer
  exact absurd hstatus (by decide)

end Http

end TelemetryRelay
