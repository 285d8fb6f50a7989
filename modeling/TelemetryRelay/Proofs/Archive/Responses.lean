import TelemetryRelay.Proofs.Archive.Answers

/-!
# What is read out of an answer

An answer to a query that can be read gives the samples of its first result, or its error. A row
shows a sample (`Shows`) if a whole time and a number stand where the columns say; the samples of
some rows are those of the rows that show one, in order (`Samples`).

* `columnIndex_eq_iff`: the place of a column.
* `samplePoint?_eq_some_iff`: the rows that show a sample.
* `ResponseSeries.points_reordered`: the order of named columns does not matter.
* `toQuery_exact`: **what a query comes to.**
-/

namespace TelemetryRelay

open Decimal (IsInt64)

/-! ### The shape of samples -/

/-- **Where a column stands**: at the first place that has its name, or at a fixed place if there is
none of its name. -/
def StandsAt (name : String) (fallback : Nat) (columns : List String) (i : Nat) : Prop :=
  (columns[i]? = some name ∧ ∀ j < i, columns[j]? ≠ some name) ∨ (name ∉ columns ∧ i = fallback)

/-- **A row that shows a sample**: a whole number of 64 signed bits stands in its time column, and a
number in its value column. -/
inductive Shows (columns : List String) (row : List Json) : Point → Prop where
  | sample {timeAt valueAt : Nat} {time : Int} {value : Json.Number}
      (htimeAt : StandsAt "time" 0 columns timeAt) (hvalueAt : StandsAt "value" 1 columns valueAt)
      (htime : row[timeAt]? = some (.number (.integer time))) (hint : IsInt64 time)
      (hvalue : row[valueAt]? = some (.number value)) : Shows columns row ⟨time, value.toFloat⟩

/-- **The samples of some rows**, each with the names of its columns: one of each row that shows a
sample, in order; other rows are passed over. -/
inductive Samples : List (List String × List Json) → List Point → Prop where
  | nil : Samples [] []
  | sample {columns : List String} {row : List Json} {p : Point}
      {rows : List (List String × List Json)} {points : List Point} (h : Shows columns row p)
      (hrows : Samples rows points) : Samples ((columns, row) :: rows) (p :: points)
  | skip {columns : List String} {row : List Json} {rows : List (List String × List Json)}
      {points : List Point} (h : ∀ p, ¬ Shows columns row p) (hrows : Samples rows points) :
      Samples ((columns, row) :: rows) points

/-- The rows of a series, each with the names of its columns. -/
def ResponseSeries.namedRows (s : ResponseSeries) : List (List String × List Json) :=
  s.rows.map fun row => (s.columns, row)

/-- The rows of all series of the first result. -/
def QueryResponse.firstRows (r : QueryResponse) : List (List String × List Json) :=
  match r.results with
  | [] => []
  | result :: _ => result.series.flatMap ResponseSeries.namedRows

/-! ### Samples of rows -/

section

variable {name : String} {fallback i : Nat} {columns : List String} {row : List Json} {p : Point}

/-- A name that no column has is not found. -/
theorem findIdx?_eq_none_iff_not_mem : columns.findIdx? (· == name) = none ↔ name ∉ columns := by
  rw [List.findIdx?_eq_none_iff]
  constructor
  · intro h hmem
    simpa using h name hmem
  · intro h x hx
    simp only [beq_eq_false_iff_ne]
    rintro rfl
    exact h hx

/-- The first column of a name is found. -/
theorem findIdx?_eq_some_iff_first : columns.findIdx? (· == name) = some i ↔
    columns[i]? = some name ∧ ∀ j < i, columns[j]? ≠ some name := by
  rw [List.findIdx?_eq_some_iff_getElem]
  constructor
  · rintro ⟨hi, hname, hbefore⟩
    rw [beq_iff_eq] at hname
    refine ⟨by rw [List.getElem?_eq_getElem hi, hname], ?_⟩
    intro j hj hsame
    obtain ⟨hlt, hsame⟩ := List.getElem?_eq_some_iff.1 hsame
    exact hbefore j hj (by rw [hsame, beq_self_eq_true])
  · rintro ⟨hname, hbefore⟩
    obtain ⟨hi, hname⟩ := List.getElem?_eq_some_iff.1 hname
    refine ⟨hi, by rw [hname, beq_self_eq_true], ?_⟩
    intro j hj hsame
    have hlt : j < columns.length := by omega
    exact hbefore j hj (by rw [List.getElem?_eq_getElem hlt, beq_iff_eq.1 hsame])

/-- **The place of a column.** -/
theorem columnIndex_eq_iff : columnIndex name fallback columns = i ↔
    StandsAt name fallback columns i := by
  unfold columnIndex StandsAt
  -- the name is found where it stands first, or the fixed place is taken
  cases hidx : columns.findIdx? (· == name) with
  | none =>
    have hno := findIdx?_eq_none_iff_not_mem.1 hidx
    constructor
    · rintro rfl
      exact .inr ⟨hno, rfl⟩
    · rintro (⟨hname, -⟩ | ⟨-, rfl⟩)
      · exact absurd (List.mem_of_getElem? hname) hno
      · rfl
  | some k =>
    have hk := findIdx?_eq_some_iff_first.1 hidx
    constructor
    · rintro rfl
      exact .inl hk
    · rintro (hi | ⟨hno, -⟩)
      · rw [← findIdx?_eq_some_iff_first, hidx] at hi
        exact Option.some.inj hi
      · exact absurd (List.mem_of_getElem? hk.1) hno

/-- **The rows that show a sample.** -/
theorem samplePoint?_eq_some_iff (hrow : ∀ n, Json.number n ∈ row → n.Representable) :
    samplePoint? (columnIndex "time" 0 columns) (columnIndex "value" 1 columns) row = some p ↔
      Shows columns row p := by
  constructor
  · intro h
    obtain ⟨time, htime, h⟩ := Option.bind_eq_some_iff.1 h
    obtain ⟨value, hvalue, h⟩ := Option.bind_eq_some_iff.1 h
    cases h
    obtain ⟨timeCell, htimeCell, htime⟩ := Option.bind_eq_some_iff.1 htime
    obtain ⟨valueCell, hvalueCell, hvalue⟩ := Option.bind_eq_some_iff.1 hvalue
    unfold Json.asTime? at htime
    split at htime
    · next i =>
      -- the reader checks the upper bound only; the lower one holds of every number of a document
      obtain ⟨hhigh, heq⟩ := Option.ite_none_right_eq_some.1 htime
      cases heq
      unfold Json.asNumber? at hvalue
      split at hvalue
      · next n =>
        cases hvalue
        obtain ⟨hlow, -⟩ := hrow _ (List.mem_of_getElem? htimeCell)
        exact .sample (columnIndex_eq_iff.1 rfl) (columnIndex_eq_iff.1 rfl) htimeCell ⟨hlow, hhigh⟩
          hvalueCell
      · cases hvalue
    · cases htime
  · rintro ⟨htimeAt, hvalueAt, htime, hint, hvalue⟩
    rw [columnIndex_eq_iff.2 htimeAt, columnIndex_eq_iff.2 hvalueAt]
    unfold samplePoint?
    rw [htime, hvalue]
    simp only [Option.bind_eq_bind, Option.bind_some, Json.asTime?, if_pos hint.2, Json.asNumber?]
    rfl

end

/-- The sample that a row shows, if it shows one. -/
def shown? (namedRow : List String × List Json) : Option Point :=
  samplePoint? (columnIndex "time" 0 namedRow.1) (columnIndex "value" 1 namedRow.1) namedRow.2

/-- **The samples of rows are taken row by row.** -/
theorem samples_iff {rows : List (List String × List Json)} {points : List Point}
    (hrows : ∀ row ∈ rows, ∀ n, Json.number n ∈ row.2 → n.Representable) :
    Samples rows points ↔ rows.filterMap shown? = points := by
  induction rows generalizing points with
  | nil =>
    constructor
    · rintro ⟨⟩
      rfl
    · rintro rfl
      exact .nil
  | cons row rows ih =>
    obtain ⟨columns, row⟩ := row
    obtain ⟨hrow, hrows⟩ := List.forall_mem_cons.1 hrows
    have hshows : ∀ p, shown? (columns, row) = some p ↔ Shows columns row p :=
      fun p => samplePoint?_eq_some_iff hrow
    have ih := fun points => @ih points hrows
    cases hshown : shown? (columns, row) with
    | none =>
      -- the row is passed over on both sides
      rw [List.filterMap_cons_none hshown]
      have hno : ∀ p, ¬ Shows columns row p := by
        intro p hp
        rw [← hshows, hshown] at hp
        cases hp
      constructor
      · intro h
        cases h with
        | sample h _ => exact absurd h (hno _)
        | skip _ h => exact (ih points).1 h
      · intro h
        exact .skip hno ((ih points).2 h)
    | some p =>
      rw [List.filterMap_cons_some hshown]
      have hp := (hshows p).1 hshown
      constructor
      · intro h
        cases h with
        | sample h hmore =>
          rw [← hshows, hshown, Option.some.injEq] at h
          rw [h, (ih _).1 hmore]
        | skip h _ => exact absurd hp (h p)
      · rintro rfl
        exact .sample hp ((ih _).2 rfl)

namespace QueryResponse

variable {body : String} {response : QueryResponse}

/-- The samples of an answer are those of the rows of its first result. -/
theorem points_eq (response : QueryResponse) :
    response.points = response.firstRows.filterMap shown? := by
  unfold points firstRows
  cases response.results with
  | nil => rfl
  | cons result more =>
    simp only [List.head?_cons, Option.map_some, Option.getD_some, QueryResult.points,
      List.filterMap_flatMap]
    congr 1
    funext s
    rw [ResponseSeries.points, ResponseSeries.namedRows, List.filterMap_map]
    rfl

/-- The error of an answer is that of its first result. -/
theorem error?_eq_some_iff {reason : String} : response.error? = some reason ↔
    ∃ result more, response.results = result :: more ∧ result.error = some reason := by
  unfold error?
  cases response.results with
  | nil =>
    constructor
    · intro h
      cases h
    · rintro ⟨result, more, h, -⟩
      cases h
  | cons result more =>
    constructor
    · intro h
      exact ⟨result, more, rfl, h⟩
    · rintro ⟨_, _, hcons, h⟩
      cases hcons
      exact h

theorem error?_eq_none_iff : response.error? = none ↔
    ∀ result more, response.results = result :: more → result.error = none := by
  constructor
  · intro h result more hresults
    by_contra hsome
    obtain ⟨reason, hreason⟩ := Option.ne_none_iff_exists'.1 hsome
    have herror := error?_eq_some_iff.2 ⟨result, more, hresults, hreason⟩
    rw [h] at herror
    cases herror
  · intro h
    by_contra hsome
    obtain ⟨reason, hreason⟩ := Option.ne_none_iff_exists'.1 hsome
    obtain ⟨result, more, hresults, herror⟩ := error?_eq_some_iff.1 hreason
    rw [h result more hresults] at herror
    cases herror

/-- The numbers in the rows of the first result. -/
theorem representable_firstRows (h : parse? body = some response) :
    ∀ row ∈ response.firstRows, ∀ n, Json.number n ∈ row.2 → n.Representable := by
  intro namedRow hmem n hn
  unfold firstRows at hmem
  split at hmem
  · cases hmem
  · next result more hresults =>
    obtain ⟨s, hs, hnamed⟩ := List.mem_flatMap.1 hmem
    obtain ⟨row, hrow, rfl⟩ := List.mem_map.1 hnamed
    have hresult : result ∈ response.results := by
      rw [hresults]
      exact List.mem_cons_self
    exact representable h result hresult s hs row hrow n hn

end QueryResponse

/-! ### The order of columns -/

section

variable {α : Type} {l : List α} {order : List Nat} {k i : Nat}

/-- The items of a list in another order. -/
def reordered (order : List Nat) (l : List α) : List α := order.filterMap fun i => l[i]?

/-- Each item stands where the order says. -/
theorem getElem?_reordered (horder : ∀ i ∈ order, i < l.length) (hk : order[k]? = some i) :
    (reordered order l)[k]? = l[i]? := by
  have hmap : (reordered order l).map some = order.map fun i => l[i]? := by
    unfold reordered
    rw [List.map_filterMap_some_eq_filter_map_isSome, List.filter_eq_self]
    intro x hx
    obtain ⟨i, hi, rfl⟩ := List.mem_map.1 hx
    simp [horder i hi]
  have hget := congrArg (·[k]?) hmap
  simp only [List.getElem?_map, hk, Option.map_some] at hget
  cases hfound : (reordered order l)[k]? with
  | none =>
    rw [hfound] at hget
    cases hget
  | some x =>
    rw [hfound, Option.map_some, Option.some.injEq] at hget
    exact hget

end

namespace ResponseSeries

variable {s s' : ResponseSeries} {order : List Nat}

/-- A series with its columns in another order, and the cells of every row with them. -/
def reordered (order : List Nat) (s : ResponseSeries) : ResponseSeries :=
  ⟨TelemetryRelay.reordered order s.columns, s.rows.map (TelemetryRelay.reordered order)⟩

/-- **A series in which every column has its own name**, the time and the value among them, and
every row one cell for each. -/
structure Named (s : ResponseSeries) : Prop where
  nodup : s.columns.Nodup
  time : "time" ∈ s.columns
  value : "value" ∈ s.columns
  rows : ∀ row ∈ s.rows, row.length = s.columns.length

end ResponseSeries

/-- A column of a name stands where the order puts it. -/
theorem exists_columnIndex_reordered {columns : List String} {order : List Nat} {name : String}
    (hnodup : columns.Nodup) (hname : name ∈ columns)
    (horder : order.Perm (List.range columns.length)) (fallback : Nat) :
    order[columnIndex name fallback (reordered order columns)]? =
      some (columnIndex name fallback columns) := by
  have hlt : ∀ i ∈ order, i < columns.length := by
    intro i hi
    exact List.mem_range.1 (horder.mem_iff.1 hi)
  have hdistinct : order.Nodup := horder.nodup_iff.2 List.nodup_range
  obtain ⟨i, hi, hget⟩ := List.getElem_of_mem hname
  have hat : columns[i]? = some name := by rw [List.getElem?_eq_getElem hi, hget]
  have hunique : ∀ j, columns[j]? = some name → j = i := by
    intro j hj
    obtain ⟨hjlt, hj⟩ := List.getElem?_eq_some_iff.1 hj
    exact (hnodup.getElem_inj_iff).1 (hj.trans hget.symm)
  have hmem : i ∈ order := horder.mem_iff.2 (List.mem_range.2 hi)
  obtain ⟨k, hk, hki⟩ := List.getElem_of_mem hmem
  have hplace : order[k]? = some i := by rw [List.getElem?_eq_getElem hk, hki]
  have hold : columnIndex name fallback columns = i := by
    apply columnIndex_eq_iff.2 (.inl ⟨hat, ?_⟩)
    intro j hj hsame
    have := hunique j hsame
    omega
  have hnew : columnIndex name fallback (reordered order columns) = k := by
    apply columnIndex_eq_iff.2 (.inl ⟨?_, ?_⟩)
    · rw [getElem?_reordered hlt hplace, hat]
    · -- an earlier place of the name would be an earlier place of `i` in the order
      intro j hj hsame
      have hjk : j < order.length := by omega
      have hjat : order[j]? = some order[j] := List.getElem?_eq_getElem hjk
      rw [getElem?_reordered hlt hjat] at hsame
      have hsame : order[j] = order[k] := (hunique _ hsame).trans hki.symm
      have := (hdistinct.getElem_inj_iff).1 hsame
      omega
  rw [hold, hnew, hplace]

/-- **The order of named columns does not matter.** -/
theorem ResponseSeries.Named.points_reordered {s : ResponseSeries} (h : s.Named)
    {order : List Nat} (horder : order.Perm (List.range s.columns.length)) :
    (s.reordered order).points = s.points := by
  have htime := exists_columnIndex_reordered h.nodup h.time horder 0
  have hvalue := exists_columnIndex_reordered h.nodup h.value horder 1
  unfold ResponseSeries.points ResponseSeries.reordered
  dsimp only
  rw [List.filterMap_map]
  apply List.filterMap_congr
  intro row hrow
  have hlt : ∀ i ∈ order, i < row.length := by
    intro i hi
    rw [h.rows row hrow]
    exact List.mem_range.1 (horder.mem_iff.1 hi)
  rw [Function.comp_apply, samplePoint?, samplePoint?, getElem?_reordered hlt htime,
    getElem?_reordered hlt hvalue]

/-- The same series, or one with named columns in another order. -/
inductive ResponseSeries.Alike (s : ResponseSeries) : ResponseSeries → Prop where
  | same : Alike s s
  | reordered {order : List Nat} (h : s.Named)
      (horder : order.Perm (List.range s.columns.length)) : Alike s (s.reordered order)

/-- **Answers whose first results differ in the order of named columns at most.** -/
inductive QueryResponse.Alike : QueryResponse → QueryResponse → Prop where
  | empty : Alike ⟨[]⟩ ⟨[]⟩
  | first {result result' : QueryResult} {more more' : List QueryResult}
      (herror : result'.error = result.error)
      (hseries : List.Forall₂ ResponseSeries.Alike result.series result'.series) :
      Alike ⟨result :: more⟩ ⟨result' :: more'⟩

theorem QueryResult.points_alike {series series' : List ResponseSeries}
    (h : List.Forall₂ ResponseSeries.Alike series series') :
    series'.flatMap ResponseSeries.points = series.flatMap ResponseSeries.points := by
  induction h with
  | nil => rfl
  | cons hs _ ih =>
    rw [List.flatMap_cons, List.flatMap_cons, ih]
    cases hs with
    | same => rfl
    | reordered h horder => rw [h.points_reordered horder]

namespace ArchiveReply

variable {status : Nat} {body : String} {response : QueryResponse}

/-- What an answer that can be read comes to. -/
theorem toQuery_answered (hs : Status.isSuccess status = true)
    (hb : QueryResponse.parse? body = some response) :
    toQuery (.answered status body) =
      match response.error? with
      | some reason => .error (.queryFailed reason)
      | none => .ok response.points := by
  simp only [toQuery, hs, hb]
  rfl

/-- **What a query comes to.** An error of the first result is reported. Otherwise the samples are
those of the rows of the first result, in order, each once; a row that shows none is passed over.
The order of named columns does not matter. -/
theorem toQuery_exact (hs : Status.isSuccess status = true)
    (hb : QueryResponse.parse? body = some response) :
    (∀ e, toQuery (.answered status body) = .error e ↔ ∃ result more reason,
      response.results = result :: more ∧ result.error = some reason ∧ e = .queryFailed reason) ∧
    (∀ points, toQuery (.answered status body) = .ok points ↔
      (∀ result more, response.results = result :: more → result.error = none) ∧
        Samples response.firstRows points) ∧
    ∀ body' response', QueryResponse.parse? body' = some response' → response.Alike response' →
      toQuery (.answered status body') = toQuery (.answered status body) := by
  have hanswer := toQuery_answered hs hb
  refine ⟨?_, ?_, ?_⟩
  · intro e
    rw [hanswer]
    constructor
    · intro h
      split at h
      · next reason hreason =>
        cases h
        obtain ⟨result, more, hresults, herror⟩ := QueryResponse.error?_eq_some_iff.1 hreason
        exact ⟨result, more, reason, hresults, herror, rfl⟩
      · cases h
    · rintro ⟨result, more, reason, hresults, herror, rfl⟩
      rw [QueryResponse.error?_eq_some_iff.2 ⟨result, more, hresults, herror⟩]
  · intro points
    rw [hanswer, samples_iff (QueryResponse.representable_firstRows hb),
      ← QueryResponse.points_eq, ← QueryResponse.error?_eq_none_iff]
    constructor
    · intro h
      split at h
      · cases h
      · next hnone =>
        cases h
        exact ⟨hnone, rfl⟩
    · rintro ⟨hnone, rfl⟩
      rw [hnone]
  · intro body' response' hb' halike
    rw [toQuery_answered hs hb', hanswer]
    cases halike with
    | empty => rfl
    | first herror hseries =>
      rename_i result result' more more'
      have hpoints : (QueryResponse.mk (result' :: more')).points =
          (QueryResponse.mk (result :: more)).points := QueryResult.points_alike hseries
      have herrors : (QueryResponse.mk (result' :: more')).error? =
          (QueryResponse.mk (result :: more)).error? := herror
      rw [hpoints, herrors]

/-- An answer of the archive, with a row that shows a sample and a row that shows none. -/
def altitudesByTime : String :=
  "\x7b\"results\":[\x7b\"statement_id\":0,\"series\":[\x7b\"name\":\"altitude\",\"columns\":[\"time\",\"value\"],\"values\":[[1,7],[2,null]]\x7d]\x7d]\x7d"

/-- The same answer with its columns exchanged. -/
def altitudesByValue : String :=
  "\x7b\"results\":[\x7b\"statement_id\":0,\"series\":[\x7b\"name\":\"altitude\",\"columns\":[\"value\",\"time\"],\"values\":[[7,1],[null,2]]\x7d]\x7d]\x7d"

/-- The columns of an answer may stand in one order or in the other. -/
theorem toQuery_exact_exchanged : Status.isSuccess 200 = true ∧
    QueryResponse.parse? altitudesByTime =
      some ⟨[⟨[⟨["time", "value"], [[.ofInt 1, .ofInt 7], [.ofInt 2, .null]]⟩], none⟩]⟩ ∧
    toQuery (.answered 200 altitudesByTime) = .ok [⟨1, Float.ofInt 7⟩] ∧
    toQuery (.answered 200 altitudesByValue) = .ok [⟨1, Float.ofInt 7⟩] := by
  have hs : Status.isSuccess 200 = true := by decide
  have hb : QueryResponse.parse? altitudesByTime =
      some ⟨[⟨[⟨["time", "value"], [[.ofInt 1, .ofInt 7], [.ofInt 2, .null]]⟩], none⟩]⟩ := by
    cbv
  have hb' : QueryResponse.parse? altitudesByValue =
      some ⟨[⟨[⟨["value", "time"], [[.ofInt 7, .ofInt 1], [.null, .ofInt 2]]⟩], none⟩]⟩ := by
    cbv
  obtain ⟨-, hsamples, hsame⟩ := toQuery_exact hs hb
  have hfirst : Shows ["time", "value"] [.ofInt 1, .ofInt 7] ⟨1, Float.ofInt 7⟩ :=
    @Shows.sample _ _ 0 1 1 (.integer 7) (columnIndex_eq_iff.1 rfl) (columnIndex_eq_iff.1 rfl) rfl
      ⟨by decide, by decide⟩ rfl
  have hsecond : ∀ p, ¬ Shows ["time", "value"] [.ofInt 2, .null] p := by
    rintro p ⟨-, hvalueAt, -, -, hvalue⟩
    rw [← columnIndex_eq_iff.2 hvalueAt] at hvalue
    cases hvalue
  have hnone : ∀ result more,
      [QueryResult.mk [⟨["time", "value"], [[.ofInt 1, .ofInt 7], [.ofInt 2, .null]]⟩] none] =
        result :: more → result.error = none := by
    rintro result more ⟨⟩
    rfl
  have hanswer := (hsamples [⟨1, Float.ofInt 7⟩]).2
    ⟨hnone, .sample hfirst (.skip hsecond .nil)⟩
  have halike : QueryResponse.Alike
      ⟨[⟨[⟨["time", "value"], [[.ofInt 1, .ofInt 7], [.ofInt 2, .null]]⟩], none⟩]⟩
      ⟨[⟨[⟨["value", "time"], [[.ofInt 7, .ofInt 1], [.null, .ofInt 2]]⟩], none⟩]⟩ := by
    refine .first rfl (.cons ?_ .nil)
    exact @ResponseSeries.Alike.reordered _ [1, 0] ⟨by decide, by decide, by decide, by simp⟩
      (by decide)
  exact ⟨hs, hb, hanswer, (hsame _ _ hb' halike).trans hanswer⟩

end ArchiveReply

end TelemetryRelay
