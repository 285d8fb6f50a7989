import TelemetryRelay.Proofs.Url.Host
import TelemetryRelay.Proofs.Url.Path
import TelemetryRelay.Proofs.Url.Reading

/-!
# URLs that have been read

A URL with a host that has been read is canonical: its scheme is in lower case, its host is read
back from its text, its port is not the scheme's own, and all else that is written in it is escaped.
Nothing of this depends on how the URL was written.

* `Canonical`: what is said of such a URL.
* `canonical_of_parse`: **a URL that has been read is canonical**, if it has a host.
-/

namespace TelemetryRelay.Url

variable {kind : SchemeKind} {cs rest : List Char} {c : Char} {s scheme : String} {u v : Url}
  {host : Host} {segments : List String}

/-! ### Schemes -/

theorem toNat_le_of_le {a b : Char} (h : a ≤ b) : a.toNat ≤ b.toNat := h

theorem ascii_of_isLetter (h : isLetter c = true) : c.toNat < 128 := by
  unfold isLetter at h
  simp only [Bool.or_eq_true, Bool.and_eq_true, decide_eq_true_eq] at h
  rcases h with ⟨-, h⟩ | ⟨-, h⟩
  · exact Nat.lt_of_le_of_lt (toNat_le_of_le h) (by decide)
  · exact Nat.lt_of_le_of_lt (toNat_le_of_le h) (by decide)

theorem ascii_of_isSchemeChar (h : isSchemeChar c = true) : c.toNat < 128 := by
  unfold isSchemeChar at h
  simp only [Bool.or_eq_true, Bool.and_eq_true, decide_eq_true_eq, beq_iff_eq] at h
  rcases h with (((h | ⟨-, h⟩) | rfl) | rfl) | rfl
  · exact ascii_of_isLetter h
  · exact Nat.lt_of_le_of_lt (toNat_le_of_le h) (by decide)
  all_goals decide

/-- A character in lower case. -/
def lowerChar (c : Char) : Char := if 'A' ≤ c ∧ c ≤ 'Z' then Char.ofNat (c.toNat + 32) else c

theorem toList_lowerAscii (cs : List Char) :
    (Text.lowerAscii (String.ofList cs)).toList = cs.map lowerChar := by
  rw [Text.lowerAscii, String.toList_ofList, String.toList_ofList]
  rfl

/-- Lower case keeps letters and the characters of schemes, and is kept. -/
theorem lowerChar_spec : ∀ c : Char, c.toNat < 128 →
    (isLetter c = true → isLetter (lowerChar c) = true) ∧
      (isSchemeChar c = true → isSchemeChar (lowerChar c) = true) ∧
      lowerChar (lowerChar c) = lowerChar c :=
  forall_ascii (by decide +kernel)

/-- **A scheme stays one in lower case**, and stays as it is from then on. -/
theorem IsScheme.lower (h : IsScheme cs) (hscheme : Text.lowerAscii (String.ofList cs) = scheme) :
    IsScheme scheme.toList ∧ Text.lowerAscii scheme = scheme := by
  obtain ⟨hchars, first, hfirst, hletter⟩ := h
  have hlist : scheme.toList = cs.map lowerChar := by rw [← hscheme, toList_lowerAscii]
  refine ⟨⟨?_, lowerChar first, ?_, ?_⟩, ?_⟩
  · rw [hlist, List.forall_mem_map]
    intro c hc
    have hc := hchars c hc
    exact (lowerChar_spec _ (ascii_of_isSchemeChar hc)).2.1 hc
  · rw [hlist, List.head?_map, Option.mem_def.1 hfirst]
    rfl
  · exact (lowerChar_spec _ (ascii_of_isLetter hletter)).1 hletter
  · rw [← String.toList_inj, ← String.ofList_toList (s := scheme), toList_lowerAscii,
      String.toList_ofList, hlist, List.map_map]
    refine List.map_congr_left fun c hc => ?_
    exact (lowerChar_spec _ (ascii_of_isSchemeChar (hchars c hc))).2.2

/-! ### Canonical URLs -/

/-- **What stands before the path** of a URL with a host. -/
structure Fronted (u : Url) (host : Host) : Prop where
  scheme : IsScheme u.scheme.toList
  lower : Text.lowerAscii u.scheme = u.scheme
  located : u.host = some host
  stable : Host.Stable (.of u.scheme) host
  username : Escaped standsInCredentials u.username.toList
  password : Escaped standsInCredentials u.password.toList
  port : ∀ n ∈ u.port, n ≤ 65535 ∧ defaultPort? u.scheme ≠ some n
  file : SchemeKind.of u.scheme = .file →
    u.username = "" ∧ u.password = "" ∧ u.port = none ∧ host ≠ .domain "localhost"

/-- The path of a file URL with a host: it does not begin with a drive, and it does not begin with
an empty segment unless that is all. -/
def IsFilePath (segments : List String) : Prop :=
  ∃ first rest, segments = first :: rest ∧ isDriveName first.toList = false ∧
    (first = "" → rest = [])

/-- **A canonical URL with a host.** -/
structure Canonical (u : Url) (host : Host) (segments : List String) : Prop where
  front : Fronted u host
  path : u.path = .segments segments
  inOrder : InOrder (.of u.scheme) segments
  file : SchemeKind.of u.scheme = .file → IsFilePath segments
  query : ∀ q ∈ u.query, Escaped (SchemeKind.of u.scheme).standsInQuery q.toList
  fragment : ∀ f ∈ u.fragment, Escaped standsInFragment f.toList

/-- A canonical URL stays canonical with another port. -/
theorem Canonical.withPort (h : Canonical u host segments) (hkind : SchemeKind.of u.scheme ≠ .file)
    {port : Nat} (hbound : port ≤ 65535) : Canonical (u.withPort port) host segments := by
  have hport : ∀ n ∈ (u.withPort port).port, n ≤ 65535 ∧ defaultPort? u.scheme ≠ some n := by
    intro n hn
    unfold Url.withPort at hn
    dsimp only at hn
    split at hn
    · cases hn
    · next hown =>
      obtain rfl := Option.some.inj hn
      exact ⟨hbound, hown⟩
  have hfront : Fronted (u.withPort port) host :=
    { h.front with port := hport, file := fun hfile => absurd hfile hkind }
  exact { h with front := hfront }

/-! ### What is read -/

theorem escaped_escapeCredentials (cs : List Char) :
    Escaped standsInCredentials (escapeCredentials cs).toList := by
  rw [escapeCredentials, Percent.encode, String.toList_ofList]
  exact escaped_encodeChars keepsEscapes_credentials _

/-- What is read behind an authority, in parts. -/
theorem withTail_eq (kind : SchemeKind) (path : List Char → UrlPath) (u : Url) (cs : List Char) :
    withTail kind path u cs =
      { u with
        path := path (splitTail cs).1
        query := (splitTail cs).2.1.map fun q => Percent.encode kind.standsInQuery (String.ofList q)
        fragment := (splitTail cs).2.2.map fun f =>
          Percent.encode standsInFragment (String.ofList f) } := rfl

/-- Query and fragment are escaped. -/
theorem escaped_withTail {path : List Char → UrlPath} (h : u = withTail kind path v cs) :
    (∀ q ∈ u.query, Escaped kind.standsInQuery q.toList) ∧
      ∀ f ∈ u.fragment, Escaped standsInFragment f.toList := by
  rw [withTail_eq] at h
  subst h
  constructor
  · intro q hq
    obtain ⟨text, -, rfl⟩ := Option.map_eq_some_iff.1 hq
    rw [Percent.encode, String.toList_ofList]
    exact escaped_encodeChars (keepsEscapes_query kind) _
  · intro f hf
    obtain ⟨text, -, rfl⟩ := Option.map_eq_some_iff.1 hf
    rw [Percent.encode, String.toList_ofList]
    exact escaped_encodeChars keepsEscapes_fragment _

/-- What is read of an authority: credentials, and the rest behind a host and a port. -/
theorem readLocation_tail (h : readLocation kind u cs = .ok v) : ∃ host port tail,
    v = withTail kind (fun p => .segments (readPath kind p)) { u with host, port } tail := by
  obtain ⟨hostText, rest, hsplit⟩ : ∃ hostText rest, splitHost kind false cs = (hostText, rest) :=
    ⟨_, _, rfl⟩
  unfold readLocation at h
  simp only [hsplit] at h
  split at h
  · cases h
  · next found hfound =>
    split at h
    · split at h
      · cases h
      · split at h
        · cases h
        · next port tail hport =>
          split at h
          · cases h
          · cases h
            exact ⟨found, port, tail, rfl⟩
    · split at h
      · cases h
      · cases h
        exact ⟨found, none, rest, rfl⟩

theorem readAuthority_tail (h : readAuthority kind scheme cs = .ok u) : ∃ v tail,
    u = withTail kind (fun p => .segments (readPath kind p)) v tail ∧
      Escaped standsInCredentials v.username.toList ∧
      Escaped standsInCredentials v.password.toList := by
  unfold readAuthority at h
  split at h
  · obtain ⟨host, port, tail, rfl⟩ := readLocation_tail h
    exact ⟨_, tail, rfl, nofun, nofun⟩
  · next credentials rest _ =>
    split at h
    · cases h
    · obtain ⟨host, port, tail, rfl⟩ := readLocation_tail h
      exact ⟨_, tail, rfl, escaped_escapeCredentials _, escaped_escapeCredentials _⟩

/-- **What is read of an authority is canonical.** -/
theorem canonical_of_readAuthority (hscheme : IsScheme scheme.toList)
    (hlower : Text.lowerAscii scheme = scheme) (hkind : SchemeKind.of scheme ≠ .file)
    (h : readAuthority (.of scheme) scheme cs = .ok u) (hhost : u.host = some host) :
    ∃ segments, Canonical u host segments := by
  obtain ⟨p, hp⟩ := readAuthority_spec h
  obtain ⟨v, tail, htail, husername, hpassword⟩ := readAuthority_tail h
  obtain rfl := hp.scheme_eq
  have hread := hp.host_eq
  rw [hhost] at hread
  obtain ⟨hquery, hfragment⟩ := escaped_withTail htail
  have hport : ∀ n ∈ u.port, n ≤ 65535 ∧ defaultPort? u.scheme ≠ some n := by
    intro n hn
    rw [hp.port_eq, Parts.kept_eq] at hn
    split at hn
    · cases hn
    · next hown =>
      refine ⟨hp.bound n hn, fun hdefault => hown ?_⟩
      rw [hdefault]
      exact hn
  rw [withTail_eq] at htail
  have husername : Escaped standsInCredentials u.username.toList := by
    rw [htail]
    exact husername
  have hpassword : Escaped standsInCredentials u.password.toList := by
    rw [htail]
    exact hpassword
  refine ⟨readPath (.of u.scheme) (splitTail tail).1, ⟨hscheme, hlower, hhost,
    Host.stable_of_readHost hread, husername, hpassword, hport, fun hfile => absurd hfile hkind⟩,
    ?_, inOrder_readPath _ _, fun hfile => absurd hfile hkind, hquery, hfragment⟩
  exact congrArg Url.path htail

/-- The segments of a file URL: empty ones at the beginning do not count. -/
def fileSegments (cs : List Char) : List String :=
  let levels := (readPath .file cs).dropWhile (·.isEmpty)
  if levels.isEmpty then [""] else levels

theorem inOrder_fileSegments (cs : List Char) : InOrder .file (fileSegments cs) ∧
    ∃ first rest, fileSegments cs = first :: rest ∧ (first = "" → rest = []) := by
  have hinOrder := inOrder_readPath .file cs
  unfold fileSegments
  dsimp only
  split
  · refine ⟨⟨?_, fun _ => List.cons_ne_nil _ _⟩, "", [], rfl, fun _ => rfl⟩
    exact List.forall_mem_singleton.2 (isSegment_empty .file)
  · next hsome =>
    rw [List.isEmpty_iff] at hsome
    obtain ⟨first, rest, hlevels⟩ := List.exists_cons_of_ne_nil hsome
    refine ⟨⟨fun s hs => ?_, fun _ => hsome⟩, first, rest, hlevels, ?_⟩
    · exact hinOrder.segment s ((List.dropWhile_sublist _).subset hs)
    · rintro rfl
      -- the first segment that is kept is not empty
      have hfirst := List.head?_dropWhile_not (·.isEmpty) (readPath .file cs)
      rw [hlevels] at hfirst
      cases hfirst

/-- What is read of a file URL with a host. -/
theorem readFile_tail (h : readFile cs = .ok u) (hhost : u.host = some host) :
    ∃ hostText tail, Host.parseSpecial hostText = .ok host ∧ host ≠ .domain "localhost" ∧
      u = withTail .file (fun p => .segments (fileSegments p))
        { scheme := "file", host := some host } tail ∧
      ∀ first ∈ (fileSegments (splitTail tail).1).head?, isDriveName first.toList = false := by
  have hbare : (.ok { scheme := "file" } : Except UrlFault Url) ≠ .ok u := by
    intro hbare
    cases hbare
    cases hhost
  unfold readFile at h
  dsimp only at h
  split at h
  · next a b rest =>
    split at h
    · split at h
      · exact absurd h hbare
      · split at h
        · cases h
        · next found hfound =>
          split at h
          · exact absurd h hbare
          · next hlocal =>
            obtain ⟨tail, htail⟩ : ∃ tail, rest.drop (rest.takeWhile fun c =>
              !SchemeKind.file.endsAuthority c).length = tail := ⟨_, rfl⟩
            rw [htail] at h
            obtain ⟨-, first, more, hsegments, -⟩ := inOrder_fileSegments (splitTail tail).1
            split at h
            · next first' more' hpath =>
              have hfirst : fileSegments (splitTail tail).1 = first' :: more' :=
                UrlPath.segments.inj hpath
              split at h
              · exact absurd h hbare
              · next hdrive =>
                cases h
                cases hhost
                refine ⟨_, tail, hfound, hlocal, rfl, fun x hx => ?_⟩
                rw [hfirst] at hx
                obtain rfl := Option.some.inj hx
                exact Bool.eq_false_iff.2 hdrive
            · next hpath =>
              exact absurd (congrArg UrlPath.segments hsegments) (hpath first more)
    · exact absurd h hbare
  · exact absurd h hbare

/-- **What is read of a file URL is canonical.** -/
theorem canonical_of_readFile (h : readFile cs = .ok u) (hhost : u.host = some host) :
    ∃ segments, Canonical u host segments := by
  obtain ⟨hostText, tail, hparse, hlocal, htail, hdrive⟩ := readFile_tail h hhost
  obtain ⟨hquery, hfragment⟩ := escaped_withTail htail
  obtain ⟨hinOrder, first, rest, hsegments, hempty⟩ := inOrder_fileSegments (splitTail tail).1
  have hstable : Host.Stable .file host := Host.stable_of_parseSpecial nofun hparse
  have hname : IsScheme "file".toList := ⟨List.all_eq_true.1 rfl, 'f', rfl, rfl⟩
  have hlower : Text.lowerAscii "file" = "file" := by decide
  rw [withTail_eq] at htail
  subst htail
  refine ⟨fileSegments (splitTail tail).1, ⟨hname, hlower, rfl, hstable, nofun, nofun, nofun,
    fun _ => ⟨rfl, rfl, rfl, hlocal⟩⟩, rfl, hinOrder, fun _ => ⟨first, rest, hsegments, ?_, hempty⟩,
    hquery, hfragment⟩
  exact hdrive first (by rw [hsegments]; rfl)

/-- **A URL that has been read is canonical**, if it has a host. -/
theorem canonical_of_parse (h : parse s = .ok u) (hhost : u.host = some host) :
    ∃ segments, Canonical u host segments := by
  unfold parse at h
  split at h
  · cases h
  · next scheme rest hsplit =>
    obtain ⟨name, -, hname, hlower⟩ := splitScheme_eq_iff.1 hsplit
    obtain ⟨hscheme, hlower⟩ := hname.lower hlower
    split at h
    · exact canonical_of_readFile h hhost
    · next hkind =>
      rw [← hkind] at h
      exact canonical_of_readAuthority hscheme hlower (by rw [hkind]; nofun) h hhost
    · next hkind =>
      split at h
      · rw [← hkind] at h
        exact canonical_of_readAuthority hscheme hlower (by rw [hkind]; nofun) h hhost
      · cases h
        cases hhost
      · cases h
        cases hhost

end TelemetryRelay.Url
