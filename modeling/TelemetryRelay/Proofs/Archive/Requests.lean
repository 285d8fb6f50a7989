import TelemetryRelay.Archive.Endpoint
import TelemetryRelay.Proofs.Configuration.ArchivePort
import TelemetryRelay.Proofs.Configuration.Uniqueness
import TelemetryRelay.Proofs.Http.Query
import TelemetryRelay.Proofs.Url.Rereading

/-!
# Where requests to the archive go

The URL of a request is a text: the base URL without the slashes at its end, a slash, the name of an
endpoint, and perhaps a query. It is read as a URL of the same server. If the base URL has neither
query nor fragment, the name becomes the last segment of its path, and the query is read as the
fields that are written in it. Else the name becomes a part of that query or fragment, and the path
stays as it is, so that no endpoint is reached.

* `withoutSlashes_bare`, `withoutSlashes_marked`: what stays of the text of a URL.
* `parse_bare`, `parse_marked`: what is read of a request behind the one and the other.
* `archive_requests`: **which requests reach their endpoint.**
* `endpoint_swallowed`: a base URL with a query is accepted, and no endpoint is reached.
-/

namespace TelemetryRelay

open Url (BeginsMark Canonical Escaped Fronted InOrder IsFilePath IsSegment IsVisible SchemeKind
  slashed)
open Http (fieldPiece formFields queryChars)

variable {u v : Url} {host : Host} {segments : List String} {name : String}
  {fields : List (String × String)}

namespace ArchiveEndpoint

/-! ### Slashes at the end -/

/-- A slash. -/
def isSlash (c : Char) : Bool := c == '/'

theorem toList_withoutSlashes (s : String) :
    (withoutSlashes s).toList = s.toList.rdropWhile isSlash := String.toList_ofList

/-- A segment that is not empty does not end in a slash. -/
theorem exists_last {kind : SchemeKind} {s : String} (h : IsSegment kind s) (hne : s ≠ "") :
    ∃ init last, s.toList = init ++ [last] ∧ isSlash last = false := by
  have hchars : s.toList ≠ [] := by rwa [ne_eq, String.toList_eq_nil_iff]
  refine ⟨s.toList.dropLast, s.toList.getLast hchars, ?_, ?_⟩
  · exact (List.dropLast_append_getLast hchars).symm
  · have hslash := h.slashless _ (List.getLast_mem hchars)
    unfold SchemeKind.isSlash at hslash
    exact (Bool.or_eq_false_iff.1 hslash).1

/-- The segments of a path without the empty ones at its end. -/
def kept (segments : List String) : List String := segments.rdropWhile (·.isEmpty)

/-- **The slashes at the end of a path** are its empty segments there. -/
theorem rdropWhile_slashed {kind : SchemeKind} (h : ∀ s ∈ segments, IsSegment kind s) :
    (slashed segments).rdropWhile isSlash = slashed (kept segments) := by
  unfold kept
  induction segments using List.reverseRecOn with
  | nil => rfl
  | append_singleton init s ih =>
    have hinit := ih fun t ht => h t (List.mem_append_left _ ht)
    have hlast : slashed (init ++ [s]) = slashed init ++ '/' :: s.toList := by
      rw [Url.slashed_append, Url.slashed_singleton]
    by_cases hempty : s = ""
    · have hdrops : (slashed (init ++ [s])).rdropWhile isSlash =
          (slashed init).rdropWhile isSlash := by
        rw [hlast, hempty]
        exact List.rdropWhile_concat_pos _ _ _ rfl
      rw [hdrops, hinit, List.rdropWhile_concat_pos _ _ _ (String.isEmpty_iff.2 hempty)]
    · obtain ⟨before, last, hs, hslash⟩ := exists_last (h s (by simp)) hempty
      have hkeeps : (slashed (init ++ [s])).rdropWhile isSlash = slashed (init ++ [s]) := by
        have hends : slashed (init ++ [s]) = (slashed init ++ '/' :: before) ++ last :: [] := by
          rw [hlast, hs, List.append_assoc, List.cons_append]
        rw [hends, rdropWhile_append_cons hslash]
        rfl
      rw [hkeeps, List.rdropWhile_concat_neg _ _ _ (mt String.isEmpty_iff.1 hempty)]

/-- The front of a URL does not end in a slash. -/
theorem exists_front_last (h : Fronted u host) :
    ∃ before last, u.front = before ++ [last] ∧ isSlash last = false := by
  -- the front ends in the host and the port
  obtain ⟨place, hplace⟩ : ∃ place, place = host.text.toList ++
    (u.port.map Decimal.digits).elim [] (':' :: ·) := ⟨_, rfl⟩
  have hfront : u.front = u.scheme.toList ++ ':' :: '/' :: '/' ::
      (u.writtenCredentials.elim [] (· ++ ['@']) ++ place) := by
    have hfront := Url.front_append h.located []
    rw [List.append_nil] at hfront
    have htext : (u.written host []).text = u.writtenCredentials.elim [] (· ++ ['@']) ++
        (host.text.toList ++ ((u.port.map Decimal.digits).elim [] (':' :: ·) ++ [])) := rfl
    rw [hfront, htext, List.append_nil, hplace]
  have hchars : ∀ c ∈ place, isSlash c = false := by
    have hslash : ∀ {c : Char}, c ∉ ['/', '\\', '?', '#'] → isSlash c = false := by
      intro c hc
      by_contra hslash
      rw [Bool.not_eq_false, isSlash, beq_iff_eq] at hslash
      exact hc (hslash ▸ List.mem_cons_self)
    intro c hc
    rcases List.mem_append.1 (hplace ▸ hc) with hc | hc
    · exact hslash (h.plain_host c hc).1
    · exact hslash (Fronted.plain_port u c hc).1
  have hne : place ≠ [] := by
    rw [hplace]
    exact List.append_ne_nil_of_left_ne_nil h.stable.ne_nil _
  have hlast : place = place.dropLast ++ [place.getLast hne] :=
    (List.dropLast_append_getLast hne).symm
  refine ⟨u.scheme.toList ++ ':' :: '/' :: '/' ::
    (u.writtenCredentials.elim [] (· ++ ['@']) ++ place.dropLast), place.getLast hne, ?_,
    hchars _ (List.getLast_mem hne)⟩
  rw [hfront]
  nth_rewrite 1 [hlast]
  simp only [List.append_assoc, List.cons_append]

theorem rdropWhile_front (h : Fronted u host) (rest : List Char) :
    (u.front ++ rest).rdropWhile isSlash = u.front ++ rest.rdropWhile isSlash := by
  obtain ⟨before, last, hfront, hlast⟩ := exists_front_last h
  rw [hfront, List.append_assoc, List.singleton_append, rdropWhile_append_cons hlast,
    List.append_assoc, List.singleton_append]

/-- **What stays of the text of a URL** without query and fragment: its front, and its path up to
the empty segments at the end. -/
theorem withoutSlashes_bare (h : Canonical u host segments) (hbare : u.marks = []) :
    (withoutSlashes u.text).toList = u.front ++ slashed (kept segments) := by
  rw [toList_withoutSlashes, Url.toList_text h.path, hbare, List.append_nil,
    rdropWhile_front h.front, rdropWhile_slashed h.inOrder.segment]

/-- **What stays of the text of a URL** with a query or a fragment: all up to the first mark, and
perhaps more. -/
theorem withoutSlashes_marked (h : Canonical u host segments) (hmarked : u.marks ≠ []) :
    ∃ more, (withoutSlashes u.text).toList = u.front ++ (slashed segments ++ more) ∧ more ≠ [] ∧
      BeginsMark more ∧ ∀ c ∈ more, IsVisible c := by
  obtain ⟨mark, rest, hrest⟩ := List.exists_cons_of_ne_nil hmarked
  have hbegins : mark = '?' ∨ mark = '#' := Url.beginsMark_marks u mark (by rw [hrest]; rfl)
  have hslash : isSlash mark = false := by
    rcases hbegins with rfl | rfl
    · rfl
    · rfl
  refine ⟨mark :: rest.rdropWhile isSlash, ?_, List.cons_ne_nil _ _, ?_, ?_⟩
  · rw [toList_withoutSlashes, Url.toList_text h.path, hrest, rdropWhile_front h.front,
      rdropWhile_append_cons hslash]
  · intro c hc
    obtain rfl := Option.some.inj hc
    exact hbegins
  · intro c hc
    have hmem : c ∈ mark :: rest := by
      rcases List.mem_cons.1 hc with rfl | hc
      · exact List.mem_cons_self
      · exact List.mem_cons_of_mem _ ((List.rdropWhile_prefix _ _).subset hc)
    exact h.visible_marks c (hrest ▸ hmem)

/-! ### Names and fields -/

/-- The endpoints of an archive. -/
def endpoints : List String := ["ping", "write", "query"]

theorem endpoint_chars : ∀ name ∈ endpoints, (name.toList.all fun c => c.toNat < 128 ∧
    Url.standsInPath c = true ∧ c ≠ '/' ∧ c ≠ '\\') = true ∧ Url.isSingleDot name = false ∧
      Url.isDoubleDot name = false ∧ Url.isDriveName name.toList = false ∧ name ≠ "" := by
  decide +kernel

theorem isSegment_endpoint (hname : name ∈ endpoints) (kind : SchemeKind) :
    IsSegment kind name := by
  obtain ⟨hchars, hsingle, hdouble, -, -⟩ := endpoint_chars name hname
  have hchar := forall_mem_of_all hchars
  refine ⟨fun c hc => ?_, fun c hc => ?_, hsingle, hdouble⟩
  · obtain ⟨hascii, hstands, -⟩ := hchar c hc
    exact ⟨hascii, hstands⟩
  · obtain ⟨-, -, hslash, hback⟩ := hchar c hc
    unfold SchemeKind.isSlash
    rw [beq_eq_false_iff_ne.2 hslash, beq_eq_false_iff_ne.2 hback]
    rfl

/-- A name is put behind a path. -/
theorem inOrder_endpoint {kind : SchemeKind} (h : InOrder kind segments)
    (hname : name ∈ endpoints) : InOrder kind (kept segments ++ [name]) := by
  constructor
  · refine List.forall_mem_append.2 ⟨fun s hs => ?_, ?_⟩
    · exact h.segment s ((List.rdropWhile_prefix _ _).subset hs)
    · exact List.forall_mem_singleton.2 (isSegment_endpoint hname kind)
  · intro _
    exact List.append_ne_nil_of_right_ne_nil _ (List.cons_ne_nil _ _)

theorem isFilePath_endpoint (h : IsFilePath segments) (hname : name ∈ endpoints) :
    IsFilePath (kept segments ++ [name]) := by
  obtain ⟨-, -, -, hdrive, -⟩ := endpoint_chars name hname
  obtain ⟨first, rest, hsegments, hfirst, hempty⟩ := h
  cases hkept : kept segments with
  | nil => exact ⟨name, [], rfl, hdrive, fun _ => rfl⟩
  | cons s more =>
    have hsame : s = first := by
      have hbegins : kept segments <+: segments := List.rdropWhile_prefix _ _
      rw [hkept, hsegments, List.cons_prefix_cons] at hbegins
      exact hbegins.1
    refine ⟨s, more ++ [name], rfl, hsame ▸ hfirst, fun hs => ?_⟩
    -- the one empty segment of such a path would not be kept
    rw [hsegments, hempty (hsame ▸ hs), ← hsame, hs] at hkept
    cases hkept

/-- A name or a value as it is written. -/
def written (s : String) : List Char := (Percent.component s).toList

/-- The query of a request, if it has fields. -/
def fieldQuery (fields : List (String × String)) : Option (List Char) :=
  if fields = [] then none else some (queryChars written fields)

/-- The fields are read back. -/
theorem formFields_fieldQuery (fields : List (String × String)) :
    formFields ((fieldQuery fields).getD []) = fields := by
  unfold fieldQuery
  split
  · next hnone =>
    rw [hnone]
    rfl
  · apply Http.formFields_queryChars
    intro field _
    exact ⟨Http.writes_component field.1, Http.writes_component field.2⟩

theorem escaped_written (kind : SchemeKind) (s : String) :
    Escaped kind.standsInQuery (written s) := by
  have hall : ∀ c : Char, c.toNat < 128 → Percent.isUnreserved c = true →
      kind.standsInQuery c = true :=
    forall_ascii (by cases kind <;> decide +kernel)
  obtain ⟨hpercent, hdigits⟩ := Url.keepsEscapes_query kind
  intro c hc
  rw [written, Percent.component, Percent.encode, String.toList_ofList] at hc
  rcases Percent.mem_encodeChars hc with ⟨hascii, hunreserved, -⟩ | rfl | ⟨n, hn, rfl⟩
  · exact ⟨hascii, hall c hascii hunreserved⟩
  · exact ⟨by decide, hpercent⟩
  · exact ⟨Percent.hexDigit_toNat_lt n hn, hdigits n hn⟩

/-- What is written for fields may stand in a query. -/
theorem escaped_fieldQuery (kind : SchemeKind) (fields : List (String × String)) :
    ∀ q ∈ fieldQuery fields, Escaped kind.standsInQuery q := by
  have hmarks : ∀ c ∈ ['&', '='], c.toNat < 128 ∧ kind.standsInQuery c = true := by
    cases kind <;> exact forall_mem_of_all (by decide)
  intro q hq c hc
  unfold fieldQuery at hq
  split at hq
  · cases hq
  · obtain rfl := Option.some.inj hq
    rcases Http.mem_queryChars hc with rfl | ⟨field, -, hc⟩
    · exact hmarks _ (by decide)
    · rcases Http.mem_fieldPiece hc with rfl | ⟨s, -, hc⟩
      · exact hmarks _ (by decide)
      · exact escaped_written kind s c hc

/-- A query as it is put behind a path. -/
def queryMark (fields : List (String × String)) : List Char :=
  (fieldQuery fields).elim [] ('?' :: ·)

/-- **A query is cut off behind its mark**, and what may stand in it is visible. -/
theorem queryMark_spec (fields : List (String × String)) :
    Url.splitTail (queryMark fields) = ([], fieldQuery fields, none) ∧
      BeginsMark (queryMark fields) ∧ ∀ c ∈ queryMark fields, IsVisible c := by
  have hescaped := escaped_fieldQuery .other fields
  have hhash : ∀ q ∈ fieldQuery fields, '#' ∉ q := by
    intro q hq hmem
    exact (Url.visible_of_query (hescaped q hq '#' hmem).2).2 rfl
  have hsplit := Url.splitTail_marks hhash none
  rw [Option.elim_none, List.append_nil] at hsplit
  refine ⟨hsplit, ?_⟩
  unfold queryMark
  cases hq : fieldQuery fields with
  | none => exact ⟨nofun, nofun⟩
  | some q =>
    constructor
    · intro c hc
      exact .inl (Option.some.inj hc).symm
    · refine List.forall_mem_cons.2 ⟨by decide, fun c hc => ?_⟩
      exact (Url.visible_of_query (hescaped q hq c hc).2).1

/-! ### Requests -/

/-- The URL of a request: behind the base URL a slash, the name of an endpoint, and fields. -/
def requestUrl (e : ArchiveEndpoint) (name : String) (fields : List (String × String)) : String :=
  e.base ++ "/" ++ name ++ String.ofList (queryMark fields)

theorem requestUrl_atUrl (url db name : String) (fields : List (String × String)) :
    requestUrl (.atUrl url db) name fields =
      String.ofList ((withoutSlashes url).toList ++ '/' :: (name.toList ++ queryMark fields)) := by
  have htext : (requestUrl (.atUrl url db) name fields).toList =
      (withoutSlashes url).toList ++ '/' :: (name.toList ++ queryMark fields) := by
    unfold requestUrl
    simp only [String.toList_append, String.toList_ofList, List.append_assoc]
    rfl
  rw [← htext, String.ofList_toList]

/-- **A request behind a URL without marks**: its path goes on with the endpoint, and it has the
query that is written. -/
theorem parse_bare (h : Canonical u host segments) (hbare : u.marks = []) (db : String)
    (hname : name ∈ endpoints) : Url.parse (requestUrl (.atUrl u.text db) name fields) =
      .ok { u with
        path := .segments (kept segments ++ [name])
        query := (fieldQuery fields).map String.ofList } := by
  obtain ⟨hsplit, hbegins, hvisible⟩ := queryMark_spec fields
  have htext : (withoutSlashes u.text).toList ++ '/' :: (name.toList ++ queryMark fields) =
      u.front ++ (slashed (kept segments ++ [name]) ++ queryMark fields) := by
    rw [withoutSlashes_bare h hbare, Url.slashed_append, Url.slashed_singleton]
    simp only [List.append_assoc, List.cons_append]
  have hencode : (fieldQuery fields).map (fun q =>
      Percent.encode (SchemeKind.of u.scheme).standsInQuery (String.ofList q)) =
        (fieldQuery fields).map String.ofList := by
    cases hq : fieldQuery fields with
    | none => rfl
    | some q =>
      have hescaped := escaped_fieldQuery (.of u.scheme) fields q hq
      exact congrArg (some ∘ String.ofList) (Percent.encodeChars_of_stands hescaped)
  have hfragment : u.fragment = none := (Url.marks_eq_nil_iff.1 hbare).2
  have hfile : SchemeKind.of u.scheme = .file → IsFilePath (kept segments ++ [name]) := by
    intro hkind
    exact isFilePath_endpoint (h.file hkind) hname
  rw [requestUrl_atUrl, htext,
    Url.parse_front h.front (inOrder_endpoint h.inOrder hname) hfile hbegins hvisible,
    Url.withTail_eq, hsplit]
  dsimp only
  rw [hencode, Option.map_none, ← hfragment]

/-- **A request behind a URL with marks**: only its query and its fragment change. -/
theorem parse_marked (h : Canonical u host segments) (hmarked : u.marks ≠ []) (db : String)
    (hname : name ∈ endpoints) : ∃ query fragment,
      Url.parse (requestUrl (.atUrl u.text db) name fields) = .ok { u with query, fragment } := by
  obtain ⟨more, hmore, hne, hbegins, hvisible⟩ := withoutSlashes_marked h hmarked
  obtain ⟨-, -, hquery⟩ := queryMark_spec fields
  have hsegment := isSegment_endpoint hname .other
  -- all that is put behind a mark stays behind it
  have hends : BeginsMark (more ++ '/' :: (name.toList ++ queryMark fields)) := by
    intro c hc
    rw [List.head?_append_of_ne_nil _ hne] at hc
    exact hbegins c hc
  have hall : ∀ c ∈ more ++ '/' :: (name.toList ++ queryMark fields), IsVisible c := by
    refine List.forall_mem_append.2 ⟨hvisible, List.forall_mem_cons.2 ⟨by decide, ?_⟩⟩
    refine List.forall_mem_append.2 ⟨fun c hc => ?_, hquery⟩
    exact (Url.visible_of_path (hsegment.escaped c hc).2).1
  have hread := Url.parse_front h.front h.inOrder h.file hends hall
  rw [Url.withTail_eq, ← h.path] at hread
  have htext : requestUrl (.atUrl u.text db) name fields = String.ofList (u.front ++
      (slashed segments ++ (more ++ '/' :: (name.toList ++ queryMark fields)))) := by
    rw [requestUrl_atUrl, hmore, List.append_assoc, List.append_assoc]
  rw [htext]
  exact ⟨_, _, hread⟩

/-! ### Servers and endpoints -/

/-- A URL on the same server, for the same user. -/
structure SameServer (u v : Url) : Prop where
  scheme : v.scheme = u.scheme
  host : v.host = u.host
  port : v.port = u.port
  username : v.username = u.username
  password : v.password = u.password

/-- A URL that is an endpoint behind the path of a base URL, with the given fields. -/
structure Reaches (u v : Url) (endpoint : String) (fields : List (String × String)) : Prop where
  path : v.path.text = withoutSlashes u.path.text ++ endpoint
  fields : formFields (v.query.getD "").toList = fields

/-- **Where a request goes**: to the server of a base URL. It reaches its endpoint there exactly if
the base URL has neither query nor fragment; else the path of the base URL is asked for. -/
def Addressed (u : Url) (request endpoint : String) (fields : List (String × String)) : Prop :=
  ∃ v, Url.parse request = .ok v ∧ SameServer u v ∧
    (Reaches u v endpoint fields ↔ u.query = none ∧ u.fragment = none) ∧
    (¬ (u.query = none ∧ u.fragment = none) → v.path = u.path)

/-- The text of a path that goes on with a name. -/
theorem pathText_kept {kind : SchemeKind} (h : ∀ s ∈ segments, IsSegment kind s) (name : String) :
    (UrlPath.segments (kept segments ++ [name])).text =
      withoutSlashes (UrlPath.segments segments).text ++ ("/" ++ name) := by
  have hslash : ("/" ++ name).toList = '/' :: name.toList := by
    rw [String.toList_append]
    rfl
  rw [← String.toList_inj, String.toList_append, hslash, toList_withoutSlashes,
    Url.toList_pathText, Url.toList_pathText, Url.slashed_append, Url.slashed_singleton,
    rdropWhile_slashed h]

/-- No path goes on with an endpoint behind itself. -/
theorem pathText_ne (hname : name ∈ endpoints) (s : String) :
    s ≠ withoutSlashes s ++ ("/" ++ name) := by
  obtain ⟨-, -, -, -, hne⟩ := endpoint_chars name hname
  obtain ⟨init, last, hlast, hslash⟩ := exists_last (isSegment_endpoint hname .other) hne
  intro hs
  have hchars : s.toList = (withoutSlashes s).toList ++ ('/' :: init ++ [last]) := by
    have hends := congrArg String.toList hs
    rw [String.toList_append, String.toList_append, hlast] at hends
    exact hends
  -- such a path does not end in a slash, so that nothing is cut off
  have hkept : (withoutSlashes s).toList = s.toList := by
    rw [toList_withoutSlashes, hchars, ← List.append_assoc, rdropWhile_append_cons hslash]
    rfl
  have hlength := congrArg List.length hchars
  rw [hkept, List.length_append, List.length_append] at hlength
  simp only [List.length_cons] at hlength
  omega

/-- **Every request goes to the server of the base URL**, and reaches its endpoint if it can. -/
theorem addressed (h : Canonical u host segments) (db : String) (hname : name ∈ endpoints) :
    Addressed u (requestUrl (.atUrl u.text db) name fields) ("/" ++ name) fields := by
  unfold Addressed
  rw [← Url.marks_eq_nil_iff]
  by_cases hbare : u.marks = []
  · refine ⟨_, parse_bare h hbare db hname, ⟨rfl, rfl, rfl, rfl, rfl⟩, ?_, absurd hbare⟩
    refine iff_of_true ⟨?_, ?_⟩ hbare
    · rw [h.path]
      exact pathText_kept h.inOrder.segment name
    · have hquery : (((fieldQuery fields).map String.ofList).getD "").toList =
          (fieldQuery fields).getD [] := by
        cases fieldQuery fields with
        | none => rfl
        | some q => exact String.toList_ofList
      dsimp only
      rw [hquery, formFields_fieldQuery]
  · obtain ⟨query, fragment, hread⟩ : ∃ query fragment,
      Url.parse (requestUrl (.atUrl u.text db) name fields) = .ok { u with query, fragment } :=
        parse_marked h hbare db hname
    refine ⟨_, hread, ⟨rfl, rfl, rfl, rfl, rfl⟩, iff_of_false ?_ hbare, fun _ => rfl⟩
    intro hreaches
    exact pathText_ne hname _ hreaches.path

/-- What is written for a first field and those behind it. -/
theorem queryMark_cons (field : String × String) (rest : List (String × String)) :
    queryMark (field :: rest) = '?' :: (fieldPiece written field ++
      (rest.map (fieldPiece written)).flatMap ('&' :: ·)) := rfl

/-- **The requests of an archive**, with their endpoints and fields. -/
theorem requestUrl_endpoints (e : ArchiveEndpoint) (query : String) :
    e.pingUrl = e.requestUrl "ping" [] ∧
      e.writeUrl = e.requestUrl "write" [("db", e.db), ("precision", "ms")] ∧
      e.queryUrl query = e.requestUrl "query" [("db", e.db), ("epoch", "ms"), ("q", query)] := by
  have hnames : ∀ s ∈ ["db", "precision", "ms", "epoch", "q"], written s = s.toList := by
    decide +kernel
  simp only [List.forall_mem_cons] at hnames
  obtain ⟨hdb, hprecision, hms, hepoch, hq, -⟩ := hnames
  have hvalue : ∀ s, (Percent.component s).toList = written s := fun _ => rfl
  refine ⟨?_, ?_, ?_⟩
  · rw [← String.toList_inj]
    unfold pingUrl requestUrl
    simp [queryMark, fieldQuery]
  · rw [← String.toList_inj]
    unfold writeUrl requestUrl
    rw [queryMark_cons]
    simp [fieldPiece, hvalue, hdb, hprecision, hms]
  · rw [← String.toList_inj]
    unfold queryUrl requestUrl
    rw [queryMark_cons]
    simp [fieldPiece, hvalue, hdb, hepoch, hms, hq]

end ArchiveEndpoint

/-! ### The archive -/

open ArchiveEndpoint (Addressed addressed requestUrl_endpoints withoutSlashes)

/-- **The URL of an archive is canonical.** -/
theorem HistoryTarget.canonical_url {target : HistoryTarget} (h : target.url = .ok u) :
    ∃ host segments, Canonical u host segments := by
  obtain ⟨v, hparse, hhost, hu⟩ := exists_parse h
  obtain ⟨host, hlocated⟩ := Option.ne_none_iff_exists'.1 hhost
  obtain ⟨segments, hcanonical⟩ := Url.canonical_of_parse hparse hlocated
  refine ⟨host, segments, ?_⟩
  split at hu
  · exact hu ▸ hcanonical
  · next hport =>
    -- a bare host, which is one of `http`
    have hname : namesScheme target.host.toList = false := by
      rw [Bool.or_eq_true, not_or] at hport
      exact Bool.not_eq_true _ ▸ hport.2
    rw [hname, if_neg Bool.false_ne_true] at hparse
    obtain ⟨hscheme, -⟩ := exists_bare_parts (Url.parse_readsText hparse hhost)
    have hkind : SchemeKind.of v.scheme ≠ .file := by
      rw [hscheme]
      decide
    exact hu ▸ hcanonical.withPort hkind (by decide)

/-- **Which requests reach their endpoint.** All requests of an archive whose configuration is
accepted go to the server of its URL, whatever the database and the query. They reach their
endpoints there, with exactly their fields, if that URL has neither query nor fragment, and only
then. -/
theorem archive_requests {config : ServerConfig} (h : config.validate = .ok ()) :
    ∃ u, config.history.url = .ok u ∧ ∀ db query : String,
      Addressed u (ArchiveEndpoint.atUrl u.text db).pingUrl "/ping" [] ∧
      Addressed u (ArchiveEndpoint.atUrl u.text db).writeUrl "/write"
        [("db", db), ("precision", "ms")] ∧
      Addressed u ((ArchiveEndpoint.atUrl u.text db).queryUrl query) "/query"
        [("db", db), ("epoch", "ms"), ("q", query)] := by
  obtain ⟨-, -, -, -, -, u, hu⟩ := ServerConfig.validate_eq_ok_iff.1 h
  obtain ⟨host, segments, hcanonical⟩ := HistoryTarget.canonical_url hu
  refine ⟨u, hu, fun db query => ?_⟩
  obtain ⟨hping, hwrite, hquery⟩ := requestUrl_endpoints (.atUrl u.text db) query
  rw [hping, hwrite, hquery]
  refine ⟨?_, ?_, ?_⟩
  · exact addressed hcanonical db (by decide)
  · exact addressed hcanonical db (by decide)
  · exact addressed hcanonical db (by decide)

/-- An archive below a path. -/
theorem archive_requests_below : ∃ u,
    HistoryTarget.url ⟨"http://localhost/base//", "void"⟩ = .ok u ∧ ∀ db : String,
      ∃ v, Url.parse (ArchiveEndpoint.atUrl u.text db).writeUrl = .ok v ∧
        v.path.text = "/base/write" ∧
        formFields (v.query.getD "").toList = [("db", db), ("precision", "ms")] := by
  have hvalid : ServerConfig.validate { history := ⟨"http://localhost/base//", "void"⟩ } = .ok () :=
    rfl
  obtain ⟨u, hu, hrequests⟩ := archive_requests hvalid
  have hparts : ∃ u, HistoryTarget.url ⟨"http://localhost/base//", "void"⟩ = .ok u ∧
      u.path.text = "/base//" ∧ u.query = none ∧ u.fragment = none := ⟨_, rfl, rfl, rfl, rfl⟩
  obtain ⟨u', hu', hpath, hquery, hfragment⟩ := hparts
  obtain rfl : u = u' := Except.ok.inj (hu.symm.trans hu')
  refine ⟨u, hu, fun db => ?_⟩
  obtain ⟨-, ⟨v, hv, -, hreaches, -⟩, -⟩ := hrequests db ""
  obtain ⟨hends, hfields⟩ := hreaches.2 ⟨hquery, hfragment⟩
  rw [hpath] at hends
  exact ⟨v, hv, hends, hfields⟩

/-- **A query swallows the endpoint**: a base URL that has one is accepted, and the request that is
to reach the endpoint asks for the path of the base URL. -/
theorem endpoint_swallowed : ¬ ∀ (config : ServerConfig) (u : Url) (db : String),
    config.validate = .ok () → config.history.url = .ok u →
      ∃ v, Url.parse (ArchiveEndpoint.atUrl u.text db).pingUrl = .ok v ∧
        v.path.text = withoutSlashes u.path.text ++ "/ping" := by
  intro h
  have hurl : ∃ u, HistoryTarget.url ⟨"http://localhost/?token=1", "void"⟩ = .ok u ∧
      withoutSlashes u.path.text ++ "/ping" = "/ping" ∧
      (ArchiveEndpoint.atUrl u.text "void").pingUrl = "http://localhost/?token=1/ping" :=
    ⟨_, rfl, rfl, rfl⟩
  have hread : ∃ v, Url.parse "http://localhost/?token=1/ping" = .ok v ∧ v.path.text = "/" :=
    ⟨_, rfl, rfl⟩
  obtain ⟨u, hu, hends, hrequest⟩ := hurl
  obtain ⟨v, hv, hpath⟩ := hread
  obtain ⟨v', hv', hping⟩ :=
    h { history := ⟨"http://localhost/?token=1", "void"⟩ } u "void" rfl hu
  rw [hrequest, hv] at hv'
  obtain rfl : v = v' := Except.ok.inj hv'
  rw [hends, hpath] at hping
  exact absurd hping (by decide)

end TelemetryRelay
