import TelemetryRelay.Proofs.Text.Percent
import TelemetryRelay.Proofs.Text.Pieces
import TelemetryRelay.Proofs.Url.Authority

/-!
# What a URL is read from

The text of a URL with a host is a scheme, slashes and an authority (`Located`), in one way only.

* `parseSpecial_port`: no host of a special scheme ends in a colon and digits, not even one with an
  open bracket, so a number at the end of an authority is a port.
* `Located.unique`: the scheme and the parts of a text.
* `parse_readsText`: **a URL with a host has the scheme that is written and the port that is
  written**, unless that is the scheme's own.
-/

namespace TelemetryRelay

/-! ### Hosts -/

/-- A name with a forbidden character is no domain. -/
theorem Domain.toAscii?_of_forbidden {c : Char} {cs : List Char} (hc : c.toNat < 0x80)
    (hf : isForbidden c = true) (hmem : c ∈ cs) : toAscii? cs = none := by
  have hchar : foldChar? c = none := by
    unfold foldChar?
    dsimp only
    rw [if_pos hc, if_pos hf]
  rw [toAscii?, labels?, fold?, mapM_eq_none hchar hmem]
  rfl

namespace Url

open Decimal (isDigit)

variable {kind : SchemeKind} {x ds cs : List Char} {scheme : String} {p : Parts} {s : String}
  {u : Url}

/-- **No host of a special scheme ends in a colon and digits.** -/
theorem parseSpecial_port (hd : ∀ c ∈ ds, isDigit c = true) {host : Host} :
    Host.parseSpecial (x ++ ':' :: ds) ≠ .ok host := by
  intro h
  unfold Host.parseSpecial at h
  split at h
  · next rest hrest =>
    -- what stands in brackets ends in one
    cases x with
    | nil => exact absurd (List.cons.inj hrest).1 (by decide)
    | cons y more =>
      obtain ⟨-, rfl⟩ := List.cons.inj hrest
      unfold Host.ofBracketed at h
      split at h
      · next hlast =>
        have hlast : (more ++ ':' :: ds).getLast? = some ']' := hlast
        rw [List.getLast?_append, List.getLast?_cons, Option.some_or, ← List.getLast?_cons] at hlast
        rcases List.mem_cons.1 (List.mem_of_getLast? hlast) with hbad | hdigit
        · exact absurd hbad (by decide)
        · exact absurd (hd _ hdigit) (by decide)
      · cases h
  · split at h
    · cases h
    · next name hname =>
      have hmem : ':' ∈ name.toList := by
        rw [← Utf8.mem_octets_iff (by decide), Utf8.decode?_eq_some_iff.1 hname]
        refine Percent.mem_decode (by decide) (by decide) ?_
        rw [Utf8.mem_octets_iff (by decide), String.toList_ofList]
        exact List.mem_append_right _ List.mem_cons_self
      rw [Domain.toAscii?_of_forbidden (by decide) (by decide) hmem] at h
      cases h

theorem readHost_port (hd : ∀ c ∈ ds, isDigit c = true) {host : Option Host} :
    readHost .special (x ++ ':' :: ds) ≠ .ok host := by
  intro h
  unfold readHost at h
  dsimp only at h
  split at h
  · cases h
  · cases hparse : Host.parseSpecial (x ++ ':' :: ds) with
    | error fault =>
      rw [hparse] at h
      cases h
    | ok found => exact parseSpecial_port hd hparse

/-! ### Texts -/

/-- The characters of a scheme. -/
def IsScheme (name : List Char) : Prop :=
  (∀ c ∈ name, isSchemeChar c = true) ∧ ∃ c ∈ name.head?, isLetter c = true

/-- **The slashes before an authority**: any number for a special scheme, and else two. -/
def Slashes : SchemeKind → List Char → List Char → Prop
  | .special, slashes, cs =>
    (∀ c ∈ slashes, SchemeKind.special.isSlash c = true) ∧
      ∀ c ∈ cs.head?, SchemeKind.special.isSlash c = false
  | .file, slashes, _ =>
    ∃ a b, slashes = [a, b] ∧ SchemeKind.file.isSlash a = true ∧ SchemeKind.file.isSlash b = true
  | .other, slashes, _ => slashes = ['/', '/']

/-- **The text of a URL with a host**: a scheme and a colon, slashes, and an authority. -/
structure Located (s : String) (scheme : String) (p : Parts) : Prop where
  wellFormed : p.WellFormed (.of scheme)
  text : ∃ name slashes, cleaned s = name ++ ':' :: (slashes ++ p.text) ∧ IsScheme name ∧
    Text.lowerAscii (String.ofList name) = scheme ∧ Slashes (.of scheme) slashes p.text

theorem splitScheme_eq_iff {rest : List Char} : splitScheme cs = some (scheme, rest) ↔
    ∃ name, cs = name ++ ':' :: rest ∧ IsScheme name ∧
      Text.lowerAscii (String.ofList name) = scheme := by
  constructor
  · intro h
    unfold splitScheme at h
    split at h
    · cases h
    · next c more =>
      split at h
      · next hletter =>
        split at h
        · next found hfound =>
          cases h
          refine ⟨(c :: more).takeWhile isSchemeChar, ?_, ⟨?_, c, ?_, hletter⟩, rfl⟩
          · rw [← hfound, List.takeWhile_append_dropWhile]
          · exact fun x hx => List.mem_takeWhile_imp hx
          · rw [List.takeWhile_cons_of_pos (by simp [isSchemeChar, hletter])]
            rfl
        · cases h
      · cases h
  · rintro ⟨name, rfl, ⟨hname, c, hc, hletter⟩, rfl⟩
    have hcolon : isSchemeChar ':' ≠ true := by decide
    have htake : (name ++ ':' :: rest).takeWhile isSchemeChar = name := by
      rw [List.takeWhile_append_of_pos hname, List.takeWhile_cons_of_neg hcolon, List.append_nil]
    have hdrop : (name ++ ':' :: rest).dropWhile isSchemeChar = ':' :: rest := by
      rw [List.dropWhile_append_of_pos hname, List.dropWhile_cons_of_neg hcolon]
    obtain ⟨more, rfl⟩ := List.head?_eq_some_iff.1 hc
    rw [List.cons_append] at htake hdrop ⊢
    unfold splitScheme
    dsimp only
    rw [if_pos hletter, hdrop, htake]
    rfl

theorem dropWhile_slashes {slashes text : List Char}
    (h : ∀ c ∈ slashes, SchemeKind.special.isSlash c = true)
    (ht : ∀ c ∈ text.head?, SchemeKind.special.isSlash c = false) :
    (slashes ++ text).dropWhile SchemeKind.special.isSlash = text := by
  rw [List.dropWhile_append_of_pos h]
  cases text with
  | nil => rfl
  | cons c more => rw [List.dropWhile_cons_of_neg (by rw [ht c rfl]; exact Bool.false_ne_true)]

/-- The slashes of a text are given by its scheme. -/
theorem Slashes.unique {slashes slashes' text text' : List Char} (h : Slashes kind slashes text)
    (h' : Slashes kind slashes' text') (heq : slashes ++ text = slashes' ++ text') :
    text = text' := by
  cases kind with
  | special =>
    rw [← dropWhile_slashes h.1 h.2, heq, dropWhile_slashes h'.1 h'.2]
  | file =>
    obtain ⟨a, b, rfl, -, -⟩ := h
    obtain ⟨a', b', rfl, -, -⟩ := h'
    exact (List.append_inj heq rfl).2
  | other =>
    obtain rfl := h
    obtain rfl := h'
    exact List.append_cancel_left heq

/-- **A text has one scheme and one authority.** -/
theorem Located.unique {scheme' : String} {q : Parts} (h : Located s scheme p)
    (h' : Located s scheme' q) : scheme = scheme' ∧ p = q := by
  obtain ⟨name, slashes, htext, hname, hscheme, hslashes⟩ := h.text
  obtain ⟨name', slashes', htext', hname', hscheme', hslashes'⟩ := h'.text
  have hsplit := splitScheme_eq_iff.2 ⟨name, htext, hname, hscheme⟩
  have hsplit' := splitScheme_eq_iff.2 ⟨name', htext', hname', hscheme'⟩
  obtain ⟨rfl, hrest⟩ := Prod.mk.inj (Option.some.inj (hsplit.symm.trans hsplit'))
  exact ⟨rfl, h.wellFormed.unique h'.wellFormed (hslashes.unique hslashes' hrest)⟩

/-- The authority of a text with a port ends in it. -/
theorem Parts.WellFormed.region_eq (hp : p.WellFormed .file) (hport : p.port = some ds) :
    region .file p.text = p.credentials.elim [] (· ++ ['@']) ++ p.host ++ ':' :: ds := by
  have htext : p.text = (p.credentials.elim [] (· ++ ['@']) ++ p.host ++ ':' :: ds) ++ p.tail := by
    simp [text, location, behind, hport]
  have hcredentials : ∀ c ∈ p.credentials.elim [] (· ++ ['@']),
      SchemeKind.file.endsAuthority c = false := by
    cases hc : p.credentials with
    | none => exact List.forall_mem_nil _
    | some before =>
      refine List.forall_mem_append.2 ⟨hp.credentials before hc, ?_⟩
      exact List.forall_mem_singleton.2 rfl
  have hdigits : ∀ c ∈ ds, SchemeKind.file.endsAuthority c = false := by
    intro c hc
    by_contra hends
    have hno := isDigit_of_mem_ends (mem_of_endsAuthority (Bool.not_eq_false _ ▸ hends))
    exact Bool.false_ne_true (hno.symm.trans (hp.port ds hport c hc))
  have hplain : ∀ c ∈ p.credentials.elim [] (· ++ ['@']) ++ p.host ++ ':' :: ds,
      SchemeKind.file.endsAuthority c = false := by
    refine List.forall_mem_append.2 ⟨List.forall_mem_append.2 ⟨hcredentials, hp.host.plain⟩, ?_⟩
    exact List.forall_mem_cons.2 ⟨rfl, hdigits⟩
  have htail : region .file p.tail = [] := by
    cases ht : p.tail with
    | nil => rfl
    | cons c more =>
      have hends : ∀ x ∈ ['/', '\\', '?', '#'], SchemeKind.file.endsAuthority x = true := by
        simp only [List.forall_mem_cons]
        exact ⟨rfl, rfl, rfl, rfl, List.forall_mem_nil _⟩
      have hc := hends c (hp.tail c (by rw [ht]; rfl))
      exact List.takeWhile_cons_of_neg (by rw [hc]; exact Bool.false_ne_true)
  rw [htext, region_append hplain, htail, List.append_nil]

/-- **A file URL with a host has no port**, and none can be written in it. -/
theorem readFile_spec {cs : List Char} (h : readFile cs = .ok u) (hhost : u.host ≠ none) :
    u.scheme = "file" ∧ u.port = none ∧ ∀ slashes (p : Parts), cs = slashes ++ p.text →
      Slashes .file slashes p.text → p.WellFormed .file → p.port = none := by
  unfold readFile at h
  dsimp only at h
  split at h
  · next a b rest =>
    split at h
    · split at h
      · cases h
        exact absurd rfl hhost
      · split at h
        · cases h
        · next host hparsed =>
          have hwritten : ∀ slashes (p : Parts), a :: b :: rest = slashes ++ p.text →
              Slashes .file slashes p.text → p.WellFormed .file → p.port = none := by
            rintro slashes p hcs ⟨a', b', rfl, -, -⟩ hp
            have hrest : rest = p.text := (List.cons.inj (List.cons.inj hcs).2).2
            cases hport : p.port with
            | none => rfl
            | some ds =>
              have hregion := hp.region_eq hport
              rw [← hrest, region] at hregion
              rw [hregion] at hparsed
              exact absurd hparsed (parseSpecial_port (hp.port ds hport))
          split at h
          · cases h
            exact absurd rfl hhost
          · split at h
            · split at h
              · cases h
                exact absurd rfl hhost
              · cases h
                exact ⟨rfl, rfl, hwritten⟩
            · cases h
              exact ⟨rfl, rfl, hwritten⟩
    · cases h
      exact absurd rfl hhost
  · cases h
    exact absurd rfl hhost

theorem of_eq_file (h : SchemeKind.of scheme = .file) : scheme = "file" := by
  unfold SchemeKind.of at h
  split at h
  · rfl
  all_goals cases h

/-- **What a URL with a host is read from**: the scheme of its text, and the authority of its text
if it is no file URL, with the host and the port that are written there. A text with an authority
gives no other scheme and no other port. -/
structure ReadsText (s : String) (u : Url) : Prop where
  scheme : ∃ rest, splitScheme (cleaned s) = some (u.scheme, rest)
  located : u.scheme = "file" ∧ u.port = none ∨
    ∃ p, Located s u.scheme p ∧ readHost (.of u.scheme) p.host = .ok u.host
  port : ∀ scheme p, Located s scheme p → u.scheme = scheme ∧ u.port = p.kept scheme ∧
    ∀ n ∈ p.number, n ≤ 65535

/-- What is read of an authority in a text is read of that text. -/
theorem Located.readsText {cs : List Char} (hl : Located s scheme p)
    (hr : Reads (.of scheme) scheme cs u p) : ReadsText s u := by
  obtain rfl := hr.scheme_eq
  obtain ⟨name, slashes, htext, hname, hscheme, -⟩ := hl.text
  refine ⟨⟨_, splitScheme_eq_iff.2 ⟨name, htext, hname, hscheme⟩⟩, .inr ⟨p, hl, hr.host_eq⟩, ?_⟩
  intro scheme' q hq
  obtain ⟨rfl, rfl⟩ := hl.unique hq
  exact ⟨rfl, hr.port_eq, hr.bound⟩

/-- **A URL with a host is read from its text.** -/
theorem parse_readsText (h : parse s = .ok u) (hhost : u.host ≠ none) : ReadsText s u := by
  unfold parse at h
  split at h
  · cases h
  · next scheme rest hsplit =>
    obtain ⟨name, htext, hname, hscheme⟩ := splitScheme_eq_iff.1 hsplit
    split at h
    · next hkind =>
      obtain ⟨hfile, hport, hwritten⟩ := readFile_spec h hhost
      obtain rfl := of_eq_file hkind
      refine ⟨⟨rest, hfile ▸ hsplit⟩, .inl ⟨hfile, hport⟩, fun scheme q hq => ?_⟩
      obtain ⟨name', slashes, htext', hname', hscheme', hslashes⟩ := hq.text
      have hsplit' := splitScheme_eq_iff.2 ⟨name', htext', hname', hscheme'⟩
      obtain ⟨rfl, hrest⟩ := Prod.mk.inj (Option.some.inj (hsplit.symm.trans hsplit'))
      have hnone := hwritten slashes q hrest hslashes hq.wellFormed
      refine ⟨hfile, ?_, ?_⟩
      · rw [hport, Parts.kept, hnone]
        rfl
      · rw [Parts.number, hnone]
        exact nofun
    · next hkind =>
      obtain ⟨p, hp⟩ := readAuthority_spec h
      have hslashes : Slashes .special (rest.takeWhile SchemeKind.special.isSlash)
          (rest.dropWhile SchemeKind.special.isSlash) := by
        refine ⟨fun c hc => List.mem_takeWhile_imp hc, fun c hc => ?_⟩
        have := List.head?_dropWhile_not SchemeKind.special.isSlash rest
        rw [hc] at this
        simpa using this
      have hlocated : Located s scheme p := by
        refine ⟨hkind ▸ hp.wellFormed, name, rest.takeWhile SchemeKind.special.isSlash, ?_, hname,
          hscheme, ?_⟩
        · rw [hp.text_eq, List.takeWhile_append_dropWhile, htext]
        · rw [hkind, hp.text_eq]
          exact hslashes
      exact hlocated.readsText (hkind ▸ hp)
    · next hkind =>
      split at h
      · next more =>
        obtain ⟨p, hp⟩ := readAuthority_spec h
        have hlocated : Located s scheme p := by
          refine ⟨hkind ▸ hp.wellFormed, name, ['/', '/'], ?_, hname, hscheme, ?_⟩
          · rw [hp.text_eq, htext]
            rfl
          · rw [hkind]
            rfl
        exact hlocated.readsText (hkind ▸ hp)
      · cases h
        exact absurd rfl hhost
      · cases h
        exact absurd rfl hhost

end Url

end TelemetryRelay
