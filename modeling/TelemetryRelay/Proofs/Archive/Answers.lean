import TelemetryRelay.Archive.Exchange
import TelemetryRelay.Proofs.Json.Records

/-!
# Reading an answer

What the text of an answer may hold, and what is read of it. An answer is an object with the field
`results`, a result one with `series` or `error`, a series one with `columns` and `values`
(`QueryResponse.Shape`); the order of the fields does not matter, and what stands in other fields is
passed over.

* `QueryResponse.representable`: the numbers in the rows of an answer are numbers of a document.
* `QueryResponse.parse?_of_shape`: **an answer with the named fields is read as what they say.**
-/

namespace TelemetryRelay

open Json (Document Reader valuesOf)

/-! ### Numbers in an answer -/

/-- The numbers in the rows of a series are numbers of a document. -/
def ResponseSeries.Representable (s : ResponseSeries) : Prop :=
  ∀ row ∈ s.rows, ∀ n, Json.number n ∈ row → n.Representable

/-- The rows that a draft of a series has, if it has them, hold numbers of a document. -/
def SeriesDraft.Representable (draft : SeriesDraft) : Prop :=
  ∀ rows, draft.rows = some rows → ∀ row ∈ rows, ∀ n, Json.number n ∈ row → n.Representable

theorem SeriesDraft.gives_fields : ∀ field ∈ fields, ∀ draft : SeriesDraft,
    draft.Representable → (field.read draft).Gives Representable := by
  have hrows : (Reader.list (.list .any)).Gives fun rows =>
      ∀ row ∈ rows, ∀ n, Json.number n ∈ row → n.Representable := by
    intro depth cs rows rest h row hrow n hn
    exact Reader.gives_any.list.list _ _ _ _ h row hrow _ hn n rfl
  simp only [fields, List.forall_mem_cons]
  refine ⟨?_, ?_, nofun⟩
  · intro draft h
    exact Reader.gives_once (Reader.gives_true _) fun _ _ => h
  · intro draft _
    refine Reader.gives_once hrows ?_
    intro rows hrows found hfound
    cases hfound
    exact hrows

theorem ResponseSeries.gives_reader : reader.Gives Representable := by
  have hblank : SeriesDraft.Representable {} := nofun
  have hdraft := Reader.gives_record hblank SeriesDraft.gives_fields
  refine hdraft.filterMap ?_
  intro draft s hrows hs
  obtain ⟨columns, -, hs⟩ := Option.bind_eq_some_iff.1 hs
  obtain ⟨rows, hsome, hs⟩ := Option.bind_eq_some_iff.1 hs
  cases hs
  exact hrows rows hsome

/-- The series that a draft of a result has, if it has them, hold numbers of a document. -/
def ResultDraft.Representable (draft : ResultDraft) : Prop :=
  ∀ series, draft.series = some (some series) → ∀ s ∈ series, s.Representable

theorem ResultDraft.gives_fields : ∀ field ∈ fields, ∀ draft : ResultDraft,
    draft.Representable → (field.read draft).Gives Representable := by
  simp only [fields, List.forall_mem_cons]
  refine ⟨?_, ?_, nofun⟩
  · intro draft _
    refine Reader.gives_once ResponseSeries.gives_reader.list.optional ?_
    intro series hseries found hfound
    cases hfound
    exact hseries found rfl
  · intro draft h
    exact Reader.gives_once (Reader.gives_true _) fun _ _ => h

theorem QueryResult.gives_reader : reader.Gives fun r => ∀ s ∈ r.series, s.Representable := by
  have hblank : ResultDraft.Representable {} := nofun
  have hdraft := Reader.gives_record hblank ResultDraft.gives_fields
  refine hdraft.filterMap ?_
  intro draft r hseries hr s hs
  cases hr
  unfold ResultDraft.finish at hs
  cases hfound : draft.series with
  | none =>
    rw [hfound] at hs
    cases hs
  | some series =>
    rw [hfound] at hs
    cases series with
    | none => cases hs
    | some series => exact hseries series hfound s hs

/-- The results that a draft of an answer has, if it has them, hold numbers of a document. -/
def ResponseDraft.Representable (draft : ResponseDraft) : Prop :=
  ∀ results, draft.results = some results →
    ∀ result ∈ results, ∀ s ∈ result.series, s.Representable

theorem ResponseDraft.gives_fields : ∀ field ∈ fields, ∀ draft : ResponseDraft,
    draft.Representable → (field.read draft).Gives Representable := by
  simp only [fields, List.forall_mem_cons]
  refine ⟨?_, nofun⟩
  intro draft _
  refine Reader.gives_once QueryResult.gives_reader.list ?_
  intro results hresults found hfound
  cases hfound
  exact hresults

namespace QueryResponse

variable {body : String} {response response' : QueryResponse}

/-- **The numbers in the rows of an answer are numbers of a document.** -/
theorem representable (h : parse? body = some response) :
    ∀ result ∈ response.results, ∀ s ∈ result.series, s.Representable := by
  have hblank : ResponseDraft.Representable {} := nofun
  have hdraft := Reader.gives_record hblank ResponseDraft.gives_fields
  have hreader : reader.Gives fun r : QueryResponse =>
      ∀ result ∈ r.results, ∀ s ∈ result.series, s.Representable := by
    refine hdraft.filterMap ?_
    intro draft r hresults hr
    obtain ⟨results, hsome, rfl⟩ := Option.map_eq_some_iff.1 hr
    exact hresults results hsome
  exact hreader.parse? h

end QueryResponse

/-! ### Answers with the named fields -/

/-- **What a document says of a series**: the names of its columns, and its rows. -/
inductive ResponseSeries.Shape : Json → ResponseSeries → Prop where
  | object {fields : List (String × Json)} {columns : List String} {rows : List (List Json)}
      (hcolumns : valuesOf "columns" fields = [.array (columns.map .string)])
      (hrows : valuesOf "values" fields = [.array (rows.map .array)]) :
      Shape (.object fields) ⟨columns, rows⟩

namespace QueryResult

/-- The series that the `series` fields give: none without a field and for null. -/
inductive SeriesGiven : List Json → List ResponseSeries → Prop where
  | absent : SeriesGiven [] []
  | null : SeriesGiven [.null] []
  | given {items : List Json} {series : List ResponseSeries}
      (h : List.Forall₂ ResponseSeries.Shape items series) : SeriesGiven [.array items] series

/-- The error that the `error` fields give: none without a field and for null. -/
inductive ErrorGiven : List Json → Option String → Prop where
  | absent : ErrorGiven [] none
  | null : ErrorGiven [.null] none
  | given (reason : String) : ErrorGiven [.string reason] (some reason)

/-- **What a document says of a result.** -/
inductive Shape : Json → QueryResult → Prop where
  | object {fields : List (String × Json)} {series : List ResponseSeries} {error : Option String}
      (hseries : SeriesGiven (valuesOf "series" fields) series)
      (herror : ErrorGiven (valuesOf "error" fields) error) :
      Shape (.object fields) ⟨series, error⟩

end QueryResult

/-- **What a document says of an answer.** -/
inductive QueryResponse.Shape : Json → QueryResponse → Prop where
  | object {fields : List (String × Json)} {items : List Json} {results : List QueryResult}
      (hresults : valuesOf "results" fields = [.array items])
      (h : List.Forall₂ QueryResult.Shape items results) : Shape (.object fields) ⟨results⟩

open Json.Reader (ReadsField reads_any reads_fieldValue reads_fieldValue_other reads_list
  reads_optional_null reads_record reads_record_pair reads_text readsField_of_absent
  readsField_of_given seen seen_append_of_ne seen_append_self)

variable {j : Json}

/-- **A series is read as the document says.** -/
theorem ResponseSeries.Shape.reads {s : ResponseSeries} (h : Shape j s) : reader.Reads j s := by
  obtain ⟨hcolumns, hrows⟩ := h
  rename_i entries columns rows
  have hcolumnsRead : (Reader.list .text).ReadsField "columns" entries columns :=
    readsField_of_given hcolumns
      (reads_list (List.forall₂_map_left_iff.2 (List.forall₂_same.2 fun s _ => reads_text s)))
  have hrowsRead : (Reader.list (.list .any)).ReadsField "values" entries rows :=
    readsField_of_given hrows (reads_list (List.forall₂_map_left_iff.2
      (List.forall₂_same.2 fun row _ => reads_list (List.forall₂_same.2 fun j _ => reads_any j))))
  have hrecord : (Reader.record SeriesDraft.fields {}).Reads (.object entries) _ :=
    reads_record_pair SeriesDraft.mk (fun _ _ => rfl) (fun _ _ _ => rfl) (fun _ _ => rfl)
      (fun _ _ _ => rfl) (by decide) hcolumnsRead hrowsRead
  refine hrecord.filterMap ?_
  simp [SeriesDraft.finish, seen, hcolumns, hrows]

namespace QueryResult

variable {entries : List (String × Json)}

/-- What is read of the `series` field, and what a result makes of it. -/
theorem SeriesGiven.exists_reads {series : List ResponseSeries}
    (h : SeriesGiven (valuesOf "series" entries) series) :
    ∃ found, (Reader.optional (.list ResponseSeries.reader)).ReadsField "series" entries found ∧
      (seen "series" entries found).join.getD [] = series := by
  generalize hvalues : valuesOf "series" entries = values at h
  cases h with
  | absent => exact ⟨none, readsField_of_absent hvalues none, by simp [seen, hvalues]⟩
  | null =>
    exact ⟨none, readsField_of_given hvalues (reads_optional_null _), by simp [seen, hvalues]⟩
  | given h =>
    have hlist := reads_list (h.imp fun _ _ => ResponseSeries.Shape.reads)
    exact ⟨some series, readsField_of_given hvalues (hlist.optional (by simp)),
      by simp [seen, hvalues]⟩

theorem ErrorGiven.exists_reads {error : Option String}
    (h : ErrorGiven (valuesOf "error" entries) error) :
    ∃ found, (Reader.optional .text).ReadsField "error" entries found ∧
      (seen "error" entries found).join = error := by
  generalize hvalues : valuesOf "error" entries = values at h
  cases h with
  | absent => exact ⟨none, readsField_of_absent hvalues none, by simp [seen, hvalues]⟩
  | null =>
    exact ⟨none, readsField_of_given hvalues (reads_optional_null _), by simp [seen, hvalues]⟩
  | given reason =>
    exact ⟨some reason, readsField_of_given hvalues ((reads_text reason).optional (by simp)),
      by simp [seen, hvalues]⟩

/-- **A result is read as the document says.** -/
theorem Shape.reads {r : QueryResult} (h : Shape j r) : reader.Reads j r := by
  obtain ⟨hseries, herror⟩ := h
  rename_i entries series error
  obtain ⟨found, hseriesRead, hseries⟩ := hseries.exists_reads
  obtain ⟨reason, herrorRead, herror⟩ := herror.exists_reads
  have hrecord : (Reader.record ResultDraft.fields {}).Reads (.object entries) _ :=
    reads_record_pair ResultDraft.mk (fun _ _ => rfl) (fun _ _ _ => rfl) (fun _ _ => rfl)
      (fun _ _ _ => rfl) (by decide) hseriesRead herrorRead
  refine hrecord.filterMap ?_
  rw [ResultDraft.finish, hseries, herror]

end QueryResult

namespace QueryResponse

theorem Shape.reads {r : QueryResponse} (h : Shape j r) : reader.Reads j r := by
  obtain ⟨hresults, h⟩ := h
  rename_i entries items results
  have hresultsRead : (Reader.list QueryResult.reader).ReadsField "results" entries results :=
    readsField_of_given hresults (reads_list (h.imp fun _ _ => QueryResult.Shape.reads))
  have hrecord := @reads_record _ ResponseDraft.fields entries
    (fun done => ⟨seen "results" done results⟩) ?_
  · refine hrecord.filterMap ?_
    simp [ResponseDraft.finish, seen, hresults]
  · intro done key v more hentries
    by_cases hkey : key = "results"
    · subst hkey
      rw [seen_append_self]
      exact reads_fieldValue rfl (hresultsRead.once_read hentries rfl)
    · rw [seen_append_of_ne hkey]
      refine reads_fieldValue_other ?_ v
      simp [ResponseDraft.fields, Reader.Field.once, Ne.symm hkey]

/-- **An answer with the named fields is read as what they say.** -/
theorem parse?_of_shape {body : String} {response : QueryResponse}
    (hj : Document body.toList j) (h : Shape j response) : parse? body = some response :=
  h.reads.parse? hj

end QueryResponse

end TelemetryRelay
