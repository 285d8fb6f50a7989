import TelemetryRelay.Configuration.Validate
import TelemetryRelay.Proofs.Decimal.Digits
import TelemetryRelay.Proofs.Url.Reading

/-!
# The port of the archive

An archive is given as a URL, or as a bare host that stands for `http`. A URL is connected to at
the port that is written in it, or else at its scheme's, and a bare host at the port that is written
behind it, or else at the archive's own. The one exception is port 80 behind a bare host: the URL
does not keep it, as it is the port of `http`, and so the archive's own takes its place.

* `cleaned_bare`: the text of a bare host that is read.
* `archive_port`: **the port of an archive**, for every text that is accepted.
* `port_eighty_lost`: the exception.
-/

namespace TelemetryRelay

open Decimal (isDigit)
open Url (Located Parts SchemeKind Slashes cleaned isMargin)

/-- A text names a scheme exactly if it holds a colon and two slashes. -/
theorem namesScheme_iff {cs : List Char} : namesScheme cs = true ↔ [':', '/', '/'] <:+: cs := by
  fun_induction namesScheme cs with
  | case1 => simp
  | case2 rest => exact ⟨fun _ => ⟨[], rest, rfl⟩, fun _ => rfl⟩
  | case3 c rest hno ih =>
    rw [ih, List.infix_cons_iff]
    refine ⟨.inr, fun h => h.resolve_left ?_⟩
    rintro ⟨more, hmore⟩
    obtain ⟨rfl, rfl⟩ := List.cons.inj hmore
    exact hno more rfl rfl

/-- What is kept of the inside of a text. -/
def isKept (c : Char) : Bool := c != '\t' && c != '\n' && c != '\r'

/-- A text without the margin at its end and without line breaks. -/
def trimmed (cs : List Char) : List Char :=
  (cs.reverse.dropWhile isMargin).reverse.filter isKept

/-- What ends in no margin is not trimmed. -/
theorem trimmed_append {before : List Char} {c : Char} (hc : isMargin c = false) (cs : List Char) :
    trimmed (before ++ c :: cs) = before.filter isKept ++ ([c].filter isKept ++ trimmed cs) := by
  have hdrop : (before ++ c :: cs).rdropWhile isMargin =
      before ++ ([c] ++ cs.rdropWhile isMargin) := rdropWhile_append_cons hc before cs
  have htrimmed : ∀ xs, trimmed xs = (xs.rdropWhile isMargin).filter isKept := fun _ => rfl
  rw [htrimmed, htrimmed, hdrop, List.filter_append, List.filter_append]

theorem not_isMargin_of_isDigit {c : Char} (h : isDigit c = true) :
    isMargin c = false ∧ isKept c = true := by
  have hlow := (Decimal.isDigit_iff.1 h).1
  have hne : ∀ x : Char, x.toNat < 48 → c ≠ x := by
    rintro x hx rfl
    omega
  refine ⟨decide_eq_false (by omega), ?_⟩
  simp [isKept, hne '\t' (by decide), hne '\n' (by decide), hne '\r' (by decide)]

/-- Digits are not trimmed. -/
theorem trimmed_digits {ds : List Char} (hd : ∀ c ∈ ds, isDigit c = true) : trimmed ds = ds := by
  have hdrop : ds.reverse.dropWhile isMargin = ds.reverse := by
    cases hds : ds.reverse with
    | nil => rfl
    | cons c more =>
      have hc : c ∈ ds := List.mem_reverse.1 (hds ▸ List.mem_cons_self)
      rw [List.dropWhile_cons_of_neg]
      rw [(not_isMargin_of_isDigit (hd c hc)).1]
      exact Bool.false_ne_true
  rw [trimmed, hdrop, List.reverse_reverse, List.filter_eq_self]
  exact fun c hc => (not_isMargin_of_isDigit (hd c hc)).2

/-- The text that is read for a bare host. -/
theorem cleaned_bare (host : String) :
    cleaned ("http://" ++ host) = "http".toList ++ ':' :: (['/', '/'] ++ trimmed host.toList) := by
  have htext : ("http://" ++ host).toList = "http:/".toList ++ '/' :: host.toList := by
    rw [String.toList_append]
    rfl
  have hcleaned : cleaned ("http://" ++ host) = trimmed (("http://" ++ host).toList) := by
    have hfirst : ("http://" ++ host).toList.dropWhile isMargin = ("http://" ++ host).toList := by
      rw [htext]
      exact List.dropWhile_cons_of_neg (by decide)
    rw [cleaned, hfirst]
    rfl
  rw [hcleaned, htext, trimmed_append (by decide)]
  rfl

/-- A number behind a colon is not trimmed. -/
theorem trimmed_port {before ds : List Char} (hd : ∀ c ∈ ds, isDigit c = true) :
    trimmed (before ++ ':' :: ds) = before.filter isKept ++ ':' :: ds := by
  rw [trimmed_append (by decide), trimmed_digits hd]
  rfl

variable {target : HistoryTarget} {u : Url} {p : Parts}

/-- The scheme of a bare host. -/
theorem bare_scheme {host scheme : String} {rest : List Char}
    (h : Url.splitScheme (cleaned ("http://" ++ host)) = some (scheme, rest)) :
    scheme = "http" ∧ rest = ['/', '/'] ++ trimmed host.toList := by
  have hname : Url.IsScheme "http".toList := ⟨List.all_eq_true.1 rfl, 'h', rfl, rfl⟩
  have hsplit := Url.splitScheme_eq_iff.2 ⟨_, cleaned_bare host, hname, rfl⟩
  obtain ⟨hscheme, hrest⟩ := Prod.mk.inj (Option.some.inj (h.symm.trans hsplit))
  exact ⟨hscheme.trans (by decide), hrest⟩

/-- **What the URL of an archive is read from**, and that a bare host may get a port. -/
theorem HistoryTarget.exists_parse (h : target.url = .ok u) : ∃ v,
    Url.parse (if namesScheme target.host.toList then target.host else "http://" ++ target.host) =
        .ok v ∧
      v.host ≠ none ∧
      u = if v.port.isSome || namesScheme target.host.toList then v
        else v.withPort archivePort := by
  unfold url at h
  dsimp only at h
  split at h
  · cases h
  · next v hparse =>
    split at h
    · cases h
    · next hhost =>
      refine ⟨v, hparse, by simpa using hhost, ?_⟩
      split at h
      · next hkept =>
        cases h
        exact (if_pos hkept).symm
      · next hkept =>
        cases h
        exact (if_neg hkept).symm

/-- An archive that is given as a URL has that URL. -/
theorem HistoryTarget.readsText_named (h : target.url = .ok u)
    (hn : namesScheme target.host.toList = true) : Url.ReadsText target.host u := by
  obtain ⟨v, hparse, hhost, hu⟩ := exists_parse h
  rw [if_pos hn] at hparse
  rw [hn, Bool.or_true, if_pos rfl] at hu
  exact hu ▸ Url.parse_readsText hparse hhost

/-- A bare host is read as one of `http`, and gets the archive's own port if it keeps none. -/
theorem HistoryTarget.readsText_bare (h : target.url = .ok u)
    (hn : namesScheme target.host.toList = false) : ∃ v,
    Url.ReadsText ("http://" ++ target.host) v ∧
      u = if v.port.isSome then v else v.withPort archivePort := by
  obtain ⟨v, hparse, hhost, hu⟩ := exists_parse h
  rw [hn, if_neg Bool.false_ne_true] at hparse
  rw [hn, Bool.or_false] at hu
  exact ⟨v, Url.parse_readsText hparse hhost, hu⟩

/-- The authority of a bare host. -/
theorem exists_bare_parts {host : String} {v : Url} (hv : Url.ReadsText ("http://" ++ host) v) :
    v.scheme = "http" ∧ ∃ p, Located ("http://" ++ host) "http" p ∧
      Url.readHost .special p.host = .ok v.host := by
  obtain ⟨rest, hsplit⟩ := hv.scheme
  have hscheme := (bare_scheme hsplit).1
  rcases hv.located with ⟨hfile, -⟩ | ⟨p, hp, hhost⟩
  · exact absurd (hfile.symm.trans hscheme) (by decide)
  · rw [hscheme] at hp hhost
    exact ⟨hscheme, p, hp, hhost⟩

/-- **The port of a bare host**: the one that is written, or the archive's own. -/
theorem bare_port {host : String} {v : Url} (hv : Url.ReadsText ("http://" ++ host) v)
    (hp : Located ("http://" ++ host) "http" p) :
    (if v.port.isSome then v else v.withPort archivePort).effectivePort? =
      some (if p.number = some 80 then 8086 else p.number.getD 8086) := by
  obtain ⟨hscheme, hport, -⟩ := hv.port "http" p hp
  have hdefault : Url.defaultPort? "http" = some 80 := rfl
  rw [Url.Parts.kept_eq, hdefault] at hport
  have hown : (v.withPort archivePort).effectivePort? = some 8086 := by
    rw [Url.effectivePort?, Url.withPort]
    dsimp only
    rw [hscheme]
    rfl
  by_cases heighty : p.number = some 80
  · rw [if_pos heighty] at hport
    rw [hport, if_pos heighty]
    exact hown
  · rw [if_neg heighty] at hport ⊢
    cases hn : p.number with
    | none =>
      rw [hport, hn]
      exact hown
    | some n =>
      rw [hport, hn, Option.isSome_some, if_pos rfl, Url.effectivePort?, hport, hn]
      rfl

/-- The digits at the end of a text. -/
theorem takeWhile_reverse_digits {before ds : List Char} (hd : ∀ c ∈ ds, isDigit c = true) :
    (before ++ ':' :: ds).reverse.takeWhile isDigit = ds.reverse := by
  rw [List.reverse_append, List.reverse_cons, List.append_assoc, List.singleton_append,
    List.takeWhile_append_of_pos (by simpa using hd), List.takeWhile_cons_of_neg (by decide),
    List.append_nil]

/-- The authority of a bare host that ends in a number. -/
theorem bare_text {host : String} (hp : Located ("http://" ++ host) "http" p)
    {before ds : List Char} (htext : host.toList = before ++ ':' :: ds)
    (hd : ∀ c ∈ ds, isDigit c = true) (hb : ∀ c ∈ before, c ∉ ['/', '\\', '?', '#']) :
    p.text = before.filter isKept ++ ':' :: ds ∧ p.tail = [] := by
  have hplain : ∀ c ∈ before.filter isKept ++ ':' :: ds, c ∉ ['/', '\\', '?', '#'] := by
    refine List.forall_mem_append.2 ⟨fun c hc => hb c (List.mem_filter.1 hc).1, ?_⟩
    refine List.forall_mem_cons.2 ⟨by simp, fun c hc hends => ?_⟩
    exact Bool.false_ne_true ((Url.isDigit_of_mem_ends hends).symm.trans (hd c hc))
  obtain ⟨name, slashes, hcleaned, hname, hscheme, hslashes⟩ := hp.text
  have hrest := (bare_scheme (Url.splitScheme_eq_iff.2 ⟨name, hcleaned, hname, hscheme⟩)).2
  rw [htext, trimmed_port hd] at hrest
  have htwo : Slashes .special ['/', '/'] (before.filter isKept ++ ':' :: ds) := by
    refine ⟨List.forall_mem_cons.2 ⟨rfl, List.forall_mem_singleton.2 rfl⟩, fun c hc => ?_⟩
    by_contra hslash
    rw [Bool.not_eq_false] at hslash
    have hends : SchemeKind.special.endsAuthority c = true := by
      rw [SchemeKind.endsAuthority, hslash]
      rfl
    exact hplain c (List.mem_of_mem_head? hc) (Url.mem_of_endsAuthority hends)
  have hslashes : Slashes .special slashes p.text := hslashes
  have hsame := hslashes.unique htwo hrest
  refine ⟨hsame, ?_⟩
  cases htail : p.tail with
  | nil => rfl
  | cons c more =>
    have hmem : c ∈ p.text := by simp [Parts.text, Parts.location, Parts.behind, htail]
    exact absurd (hp.wellFormed.tail c (by rw [htail]; rfl)) (hplain c (hsame ▸ hmem))

/-- **A number behind a colon is a port**, whatever the host before it. -/
theorem bare_number {host : String} {found : Option Host}
    (hhost : Url.readHost .special p.host = .ok found)
    (hp : Located ("http://" ++ host) "http" p) {before ds : List Char}
    (htext : host.toList = before ++ ':' :: ds) (hd : ∀ c ∈ ds, isDigit c = true) (hne : ds ≠ [])
    (hb : ∀ c ∈ before, c ∉ ['/', '\\', '?', '#']) : p.number = some (Decimal.value ds) := by
  obtain ⟨hsame, htail⟩ := bare_text hp htext hd hb
  unfold Parts.text Parts.location Parts.behind at hsame
  rw [htail, List.append_nil] at hsame
  cases hport : p.port with
  | some es =>
    -- the digits at the end are those of the port
    rw [hport, ← List.append_assoc] at hsame
    have hdigits := congrArg (fun cs => cs.reverse.takeWhile isDigit) hsame
    dsimp only [Option.elim_some] at hdigits
    rw [takeWhile_reverse_digits (hp.wellFormed.port es hport), takeWhile_reverse_digits hd,
      List.reverse_inj] at hdigits
    rw [Parts.number, hport, hdigits, Option.bind_some, if_neg (by simpa using hne)]
  | none =>
    -- else they would end the host
    exfalso
    rw [hport, Option.elim_none, List.append_nil] at hsame
    have hends : ∃ x, p.host = x ++ ':' :: ds := by
      rcases List.append_eq_append_iff.1 hsame with ⟨x, -, hx⟩ | ⟨x, hcredentials, hx⟩
      · exact ⟨x, hx⟩
      · cases x with
        | nil => exact ⟨[], hx.symm⟩
        | cons y more =>
          -- the at-sign behind the credentials would stand among the digits
          exfalso
          cases hc : p.credentials with
          | none =>
            rw [hc] at hcredentials
            exact absurd hcredentials.symm (by simp)
          | some credentials =>
            rw [hc, Option.elim_some] at hcredentials
            have hlast := congrArg List.getLast? hcredentials
            rw [List.getLast?_concat, List.getLast?_append, List.getLast?_cons, Option.some_or,
              ← List.getLast?_cons] at hlast
            have hmem : '@' ∈ ':' :: ds := by
              rw [hx]
              exact List.mem_append_left _ (List.mem_of_getLast? hlast.symm)
            rcases List.mem_cons.1 hmem with hmem | hmem
            · exact absurd hmem (by decide)
            · exact absurd (hd _ hmem) (by decide)
    obtain ⟨x, hx⟩ := hends
    rw [hx] at hhost
    exact Url.readHost_port hd hhost

/-- **The port of an archive.** A bare host is connected to at the port that is written behind it,
unless that is 80, and else at 8086; if it ends in a colon and a number, this is the port that is
written. A URL is connected to at the port that is written in it, or else at its scheme's. -/
theorem archive_port (h : target.url = .ok u) :
    (¬ [':', '/', '/'] <:+: target.host.toList →
      (∃ p, Located ("http://" ++ target.host) "http" p) ∧
      (∀ p, Located ("http://" ++ target.host) "http" p → (∀ n ∈ p.number, n ≤ 65535) ∧
        u.effectivePort? = some (if p.number = some 80 then 8086 else p.number.getD 8086)) ∧
      ∀ before ds, target.host.toList = before ++ ':' :: ds → ds ≠ [] →
        (∀ c ∈ ds, isDigit c = true) → (∀ c ∈ before, c ∉ ['/', '\\', '?', '#']) →
        u.effectivePort? =
          some (if Decimal.value ds = 80 then 8086 else Decimal.value ds)) ∧
    ([':', '/', '/'] <:+: target.host.toList →
      (u.scheme = "file" ∧ u.effectivePort? = none ∨ ∃ p, Located target.host u.scheme p) ∧
      ∀ scheme p, Located target.host scheme p → (∀ n ∈ p.number, n ≤ 65535) ∧
        u.scheme = scheme ∧ u.effectivePort? = p.number.or (Url.defaultPort? scheme)) := by
  rw [← namesScheme_iff]
  constructor
  · intro hn
    obtain ⟨v, hv, rfl⟩ := HistoryTarget.readsText_bare h (Bool.not_eq_true _ ▸ hn)
    obtain ⟨-, q, hq, hhost⟩ := exists_bare_parts hv
    refine ⟨⟨q, hq⟩, fun p hp => ⟨(hv.port "http" p hp).2.2, bare_port hv hp⟩, ?_⟩
    intro before ds htext hne hd hb
    rw [bare_port hv hq, bare_number hhost hq htext hd hne hb, Option.getD_some]
    simp only [Option.some.injEq]
  · intro hn
    have hu := HistoryTarget.readsText_named h hn
    constructor
    · rcases hu.located with ⟨hfile, hport⟩ | ⟨p, hp, -⟩
      · refine .inl ⟨hfile, ?_⟩
        rw [Url.effectivePort?, hport, hfile]
        rfl
      · exact .inr ⟨p, hp⟩
    · intro scheme p hp
      obtain ⟨hscheme, hport, hbound⟩ := hu.port scheme p hp
      refine ⟨hbound, hscheme, ?_⟩
      rw [Url.effectivePort?, hport, hscheme, Parts.kept_or]

/-- A port behind an address in brackets. -/
theorem archive_port_bracketed : ∃ u, HistoryTarget.url ⟨"[::1]:9000", "void"⟩ = .ok u ∧
    u.effectivePort? = some 9000 := by
  have hurl : ∃ u, HistoryTarget.url ⟨"[::1]:9000", "void"⟩ = .ok u := ⟨_, rfl⟩
  obtain ⟨u, hu⟩ := hurl
  obtain ⟨hbare, -⟩ := archive_port hu
  obtain ⟨-, -, hport⟩ := hbare (by rw [← namesScheme_iff]; decide)
  have hplain : ∀ c ∈ "[::1]".toList, c ∉ ['/', '\\', '?', '#'] := by simp
  exact ⟨u, hu, hport "[::1]".toList "9000".toList rfl (by decide) (List.all_eq_true.1 rfl) hplain⟩

/-- **Port 80 behind a bare host is lost**: the archive's own takes its place. -/
theorem port_eighty_lost : ¬ ∀ (before ds : List Char) (u : Url),
    1 ≤ Decimal.value ds → Decimal.value ds ≤ 65535 → (∀ c ∈ ds, isDigit c = true) →
      (∀ c ∈ before, c ∉ [':', '/', '\\', '?', '#']) →
      HistoryTarget.url ⟨String.ofList (before ++ ':' :: ds), "void"⟩ = .ok u →
        u.effectivePort? = some (Decimal.value ds) := by
  intro h
  have hurl : ∃ u, HistoryTarget.url ⟨String.ofList ("localhost".toList ++ ':' :: "80".toList),
      "void"⟩ = .ok u ∧ u.effectivePort? = some 8086 := ⟨_, rfl, rfl⟩
  obtain ⟨u, hu, hown⟩ := hurl
  have hplain : ∀ c ∈ "localhost".toList, c ∉ [':', '/', '\\', '?', '#'] := by simp
  have hport := h "localhost".toList "80".toList u (by decide) (by decide) (List.all_eq_true.1 rfl)
    hplain hu
  rw [hown] at hport
  exact absurd hport (by decide)

end TelemetryRelay
