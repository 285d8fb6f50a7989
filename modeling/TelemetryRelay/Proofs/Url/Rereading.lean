import TelemetryRelay.Proofs.Decimal.Digits
import TelemetryRelay.Proofs.Url.Canonical

/-!
# Canonical URLs are read back

What stands before the path of a canonical URL is read back whatever path in order, query and
fragment follow it. So the URL is read back from its own text, and a text that is put behind it
changes the parts that it is put behind and no others.

* `readAuthority_parts`: what is read of the parts of an authority.
* `parse_front`: **the front of a canonical URL is read back**, with any path in order behind it.
* `parse_text_of_parse`: **a URL that has been read is read back from its text**, if it has a host.
-/

namespace TelemetryRelay.Url

variable {kind : SchemeKind} {cs ds tail rest : List Char} {c : Char} {s scheme : String}
  {u v : Url} {p : Parts} {host : Host} {segments : List String}

/-! ### Authorities -/

/-- Digits are read as a port, up to where the authority ends. -/
theorem readPort_digits (hd : ∀ c ∈ ds, Decimal.isDigit c = true)
    (ht : ∀ c ∈ tail.head?, c ∈ ['/', '\\', '?', '#']) (hbound : Decimal.value ds ≤ 65535) :
    readPort scheme (ds ++ tail) = .ok (readPort.port scheme ds, tail) := by
  unfold readPort
  dsimp only
  rw [takeWhile_digits hd ht, List.drop_left, if_neg (Nat.not_lt.2 hbound)]
  cases tail with
  | nil => rfl
  | cons c more =>
    have hc := ht c rfl
    dsimp only
    rw [if_pos]
    simpa using hc

/-- The number of a port is its value, unless there are no digits. -/
theorem Parts.value_le (hbound : ∀ n ∈ p.number, n ≤ 65535) (hport : p.port = some ds) :
    Decimal.value ds ≤ 65535 := by
  by_cases hempty : ds.isEmpty = true
  · rw [List.isEmpty_iff.1 hempty]
    exact Nat.zero_le _
  · apply hbound
    rw [Parts.number, hport, Option.bind_some, if_neg hempty]
    rfl

/-- What is read of a host, a port and what follows. -/
theorem readLocation_parts (hp : p.WellFormed kind) (hhost : readHost kind p.host = .ok (some host))
    (hbound : ∀ n ∈ p.number, n ≤ 65535) (u : Url) : readLocation kind u p.location =
      .ok (withTail kind (fun q => .segments (readPath kind q))
        { u with host := some host, port := p.kept u.scheme } p.tail) := by
  unfold readLocation
  simp only [hp.splitHost_eq, hhost, Option.isNone_some, Bool.false_and]
  cases hport : p.port with
  | none =>
    have hbehind : p.behind = p.tail := by rw [Parts.behind, hport]; rfl
    have hkept : p.kept u.scheme = none := by rw [Parts.kept, hport]; rfl
    rw [hbehind, hkept]
    split
    · next more hmore => exact absurd hmore hp.tail_ne
    · rfl
  | some ds =>
    have hbehind : p.behind = ':' :: (ds ++ p.tail) := by rw [Parts.behind, hport]; rfl
    have hkept : p.kept u.scheme = readPort.port u.scheme ds := by rw [Parts.kept, hport]; rfl
    have hread : readPort u.scheme (ds ++ p.tail) = .ok (readPort.port u.scheme ds, p.tail) :=
      readPort_digits (hp.port ds hport) hp.tail (Parts.value_le hbound hport)
    rw [hbehind, hkept]
    simp only [hread]
    rfl

/-- **What is read of the parts of an authority.** -/
theorem readAuthority_parts (scheme : String) (hp : p.WellFormed kind) (hne : p.host ≠ [])
    (hhost : readHost kind p.host = .ok (some host)) (hbound : ∀ n ∈ p.number, n ≤ 65535) :
    readAuthority kind scheme p.text =
      .ok (withTail kind (fun q => .segments (readPath kind q))
        { scheme
          username := (p.credentials.elim ("", "") readCredentials).1
          password := (p.credentials.elim ("", "") readCredentials).2
          host := some host
          port := p.kept scheme } p.tail) := by
  unfold readAuthority
  rw [hp.splitCredentials_eq]
  cases hcredentials : p.credentials with
  | none =>
    have htext : p.text = p.location := by rw [Parts.text, hcredentials]; rfl
    rw [htext]
    exact readLocation_parts hp hhost hbound { scheme }
  | some credentials =>
    obtain ⟨first, more, hfirst⟩ := List.exists_cons_of_ne_nil hne
    have hgoes : (p.location.head?.any kind.endsAuthority) = false := by
      rw [Parts.location, hfirst]
      exact hp.host.plain first (by rw [hfirst]; exact List.mem_cons_self)
    simp only [Option.map_some, hgoes, Bool.and_false, if_neg Bool.false_ne_true]
    exact readLocation_parts hp hhost hbound _

/-! ### The front of a URL -/

/-- What stands before the path of a URL. -/
def front (u : Url) : List Char := u.scheme.toList ++ ':' :: u.authority.toList

/-- The credentials of a URL as they are written. -/
def writtenCredentials (u : Url) : Option (List Char) :=
  if u.username.isEmpty && u.password.isEmpty then none
  else some (u.username.toList ++ if u.password.isEmpty then [] else ':' :: u.password.toList)

/-- The parts of the authority of a URL. -/
def written (u : Url) (host : Host) (tail : List Char) : Parts where
  credentials := u.writtenCredentials
  host := host.text.toList
  port := u.port.map Decimal.digits
  tail

theorem toList_credentials (u : Url) :
    u.credentials.toList = u.writtenCredentials.elim [] (· ++ ['@']) := by
  unfold credentials writtenCredentials
  split
  · rfl
  · split
    · rw [String.toList_append, Option.elim_some, List.append_nil]
      rfl
    · simp only [String.toList_append, Option.elim_some, List.append_assoc]
      rfl

/-- **The front of a URL and a tail** are its scheme, two slashes, and an authority. -/
theorem front_append (h : u.host = some host) (tail : List Char) : u.front ++ tail =
    u.scheme.toList ++ ':' :: '/' :: '/' :: (u.written host tail).text := by
  have hauthority : u.authority.toList = '/' :: '/' :: (u.credentials.toList ++
      host.text.toList ++ (u.port.map Decimal.digits).elim [] (':' :: ·)) := by
    unfold authority
    rw [h]
    dsimp only
    rw [String.toList_append, String.toList_append, String.toList_append, List.append_assoc,
      List.append_assoc, List.append_assoc]
    cases u.port with
    | none => rfl
    | some port =>
      have hdigits : (":" ++ Decimal.natText port).toList = ':' :: Decimal.digits port := by
        rw [String.toList_append]
        exact congrArg (':' :: ·) String.toList_ofList
      dsimp only [Option.map_some, Option.elim_some]
      rw [hdigits]
      rfl
  rw [front, hauthority, toList_credentials, Parts.text, Parts.location, Parts.behind]
  simp only [written, List.append_assoc, List.cons_append]

theorem not_endsAuthority (h : c ∉ ['/', '\\', '?', '#']) : kind.endsAuthority c = false := by
  by_contra hends
  exact h (mem_of_endsAuthority (Bool.not_eq_false _ ▸ hends))

/-- Where a tail may begin. -/
def BeginsTail (tail : List Char) : Prop := ∀ c ∈ tail.head?, c ∈ ['/', '?', '#']

theorem BeginsTail.ends (h : BeginsTail tail) : ∀ c ∈ tail.head?, kind.endsAuthority c = true := by
  intro c hc
  have hall : ∀ c ∈ ['/', '?', '#'], kind.endsAuthority c = true := by
    cases kind <;> exact forall_mem_of_all (by decide)
  exact hall c (h c hc)

theorem region_tail (h : BeginsTail tail) : region kind tail = [] := by
  cases tail with
  | nil => rfl
  | cons c more =>
    have hends : kind.endsAuthority c = true := h.ends c rfl
    exact List.takeWhile_cons_of_neg (by rw [hends]; exact Bool.false_ne_true)

/-- What may stand in credentials is visible and ends no authority. -/
theorem credentials_char (h : standsInCredentials c = true) :
    IsVisible c ∧ c ∉ ['/', '\\', '?', '#'] ∧ c ≠ ':' := by
  unfold standsInCredentials at h
  rw [Bool.and_eq_true, Bool.not_eq_true'] at h
  obtain ⟨hpath, hlist⟩ := h
  obtain ⟨hvisible, hquestion, hhash⟩ := visible_of_path hpath
  have hslash := ne_of_contains hlist (x := '/') (by decide)
  have hback := ne_of_contains hlist (x := '\\') (by decide)
  refine ⟨hvisible, ?_, ne_of_contains hlist (by decide)⟩
  simp [hslash, hback, hquestion, hhash]

namespace Fronted

variable (h : Fronted u host)

include h

/-- What the credentials are written in. -/
theorem credentials_char {credentials : List Char} (hc : u.writtenCredentials = some credentials) :
    ∀ c ∈ credentials, IsVisible c ∧ c ∉ ['/', '\\', '?', '#'] := by
  have hname : ∀ c ∈ u.username.toList, IsVisible c ∧ c ∉ ['/', '\\', '?', '#'] := by
    intro c hc
    have hchar := Url.credentials_char (h.username c hc).2
    exact ⟨hchar.1, hchar.2.1⟩
  have hword : ∀ c ∈ u.password.toList, IsVisible c ∧ c ∉ ['/', '\\', '?', '#'] := by
    intro c hc
    have hchar := Url.credentials_char (h.password c hc).2
    exact ⟨hchar.1, hchar.2.1⟩
  unfold writtenCredentials at hc
  split at hc
  · cases hc
  · cases hc
    refine List.forall_mem_append.2 ⟨hname, ?_⟩
    split
    · exact nofun
    · exact List.forall_mem_cons.2 ⟨⟨by decide, by decide⟩, hword⟩

/-- The credentials are read back. -/
theorem readCredentials_eq :
    u.writtenCredentials.elim ("", "") readCredentials = (u.username, u.password) := by
  have hname : ∀ c ∈ u.username.toList, decide (c ≠ ':') = true := by
    intro c hc
    exact decide_eq_true (Url.credentials_char (h.username c hc).2).2.2
  have hescape : ∀ {s : String}, Escaped standsInCredentials s.toList →
      escapeCredentials s.toList = s := by
    intro s hs
    exact hs.encode_eq
  unfold writtenCredentials
  split
  · next hempty =>
    simp only [Bool.and_eq_true, String.isEmpty_iff] at hempty
    rw [hempty.1, hempty.2]
    rfl
  · rw [Option.elim_some, readCredentials, List.takeWhile_append_of_pos hname,
      List.dropWhile_append_of_pos hname]
    split
    · next hempty =>
      rw [List.takeWhile_nil, List.append_nil, hescape h.username, String.isEmpty_iff.1 hempty]
      rfl
    · rw [List.takeWhile_cons_of_neg (by decide), List.dropWhile_cons_of_neg (by decide),
        List.append_nil, List.drop_one, List.tail_cons, hescape h.username, hescape h.password]

/-- A host holds nothing that could end it. -/
theorem plain_host : ∀ c ∈ host.text.toList, c ∉ ['/', '\\', '?', '#'] ∧ c ≠ '@' := by
  intro c hc
  have hlist := (h.stable.chars c hc).2.2
  simp only [List.mem_cons, not_or, List.not_mem_nil, not_false_eq_true, and_true] at hlist ⊢
  tauto

omit h in
/-- Neither does a port. -/
theorem plain_port (u : Url) : ∀ c ∈ (u.port.map Decimal.digits).elim [] (':' :: ·),
    c ∉ ['/', '\\', '?', '#'] ∧ c ≠ '@' := by
  cases u.port with
  | none => exact nofun
  | some n =>
    refine List.forall_mem_cons.2 ⟨⟨by decide, by decide⟩, fun c hc => ?_⟩
    have hdigit := Decimal.isDigit_of_mem_digits n c hc
    constructor
    · intro hends
      exact absurd ((isDigit_of_mem_ends hends).symm.trans hdigit) (by decide)
    · rintro rfl
      exact absurd hdigit (by decide)

/-- The parts of the authority are well-formed. -/
theorem wellFormed (ht : BeginsTail tail) : (u.written host tail).WellFormed kind := by
  have hdigits : ∀ ds ∈ u.port.map Decimal.digits, ∀ c ∈ ds, Decimal.isDigit c = true := by
    intro ds hds
    obtain ⟨n, -, rfl⟩ := Option.map_eq_some_iff.1 hds
    exact Decimal.isDigit_of_mem_digits n
  have hhost : ∀ c ∈ host.text.toList, kind.endsAuthority c = false := by
    intro c hc
    exact not_endsAuthority (h.plain_host c hc).1
  refine ⟨?_, ?_, ⟨hhost, h.stable.colon, ?_⟩, hdigits, ?_⟩
  · intro credentials hc c hmem
    exact not_endsAuthority (h.credentials_char hc c hmem).2
  · -- no at-sign stands in the host or in the port, where the authority ends
    have hregion : region kind (u.written host tail).location =
        host.text.toList ++ (u.port.map Decimal.digits).elim [] (':' :: ·) := by
      have hlocation : (u.written host tail).location = host.text.toList ++
          ((u.port.map Decimal.digits).elim [] (':' :: ·) ++ tail) := rfl
      have hport : ∀ c ∈ (u.port.map Decimal.digits).elim [] (':' :: ·),
          kind.endsAuthority c = false := by
        intro c hc
        exact not_endsAuthority (plain_port u c hc).1
      rw [hlocation, region_append hhost, region_append hport, region_tail ht, List.append_nil]
    rw [hregion]
    intro hat
    rcases List.mem_append.1 hat with hat | hat
    · exact (h.plain_host '@' hat).2 rfl
    · exact (plain_port u '@' hat).2 rfl
  · intro c hc
    cases hport : u.port.map Decimal.digits with
    | none =>
      have hsame : (u.written host tail).behind = tail := by
        unfold Parts.behind written
        rw [hport]
        rfl
      rw [hsame] at hc
      exact .inl (ht.ends c hc)
    | some ds =>
      have hsame : (u.written host tail).behind = ':' :: (ds ++ tail) := by
        unfold Parts.behind written
        rw [hport]
        rfl
      rw [hsame] at hc
      obtain rfl := Option.some.inj hc
      exact .inr ⟨rfl, h.stable.closed⟩
  · intro c hc
    have hall : ∀ c ∈ ['/', '?', '#'], c ∈ ['/', '\\', '?', '#'] := forall_mem_of_all (by decide)
    exact hall c (ht c hc)

/-- The port that is kept is the one that is written. -/
theorem port_eq : (∀ n ∈ (u.written host tail).number, n ≤ 65535) ∧
    (u.written host tail).kept u.scheme = u.port := by
  have hnumber : (u.written host tail).number = u.port := by
    unfold Parts.number written
    dsimp only
    cases u.port with
    | none => rfl
    | some n =>
      rw [Option.map_some, Option.bind_some, Decimal.value_digits, if_neg]
      rw [List.isEmpty_iff]
      exact Decimal.digits_ne_nil n
  constructor
  · intro n hn
    rw [hnumber] at hn
    exact (h.port n hn).1
  · rw [Parts.kept_eq, hnumber]
    split
    · next hown =>
      cases hport : u.port with
      | none => rfl
      | some n =>
        rw [hport] at hown
        exact absurd hown.symm (h.port n hport).2
    · rfl

end Fronted

/-! ### Texts -/

/-- A text of visible characters is read as it is. -/
theorem cleaned_visible (h : ∀ c ∈ cs, IsVisible c) : cleaned (String.ofList cs) = cs := by
  have hdrop : ∀ {cs : List Char}, (∀ c ∈ cs, IsVisible c) → cs.dropWhile isMargin = cs := by
    intro cs hcs
    cases cs with
    | nil => rfl
    | cons c rest =>
      have hc := (hcs c List.mem_cons_self).1
      exact List.dropWhile_cons_of_neg fun hmargin => absurd (of_decide_eq_true hmargin) (by omega)
  unfold cleaned
  dsimp only
  rw [String.toList_ofList, hdrop h, hdrop (by simpa using h), List.reverse_reverse,
    List.filter_eq_self]
  intro c hc
  have hlow := (h c hc).1
  have hne : ∀ x : Char, x.toNat ≤ 0x20 → c ≠ x := by
    rintro x hx rfl
    omega
  simp [hne '\t' (by decide), hne '\n' (by decide), hne '\r' (by decide)]

theorem visible_of_isSchemeChar (h : isSchemeChar c = true) : IsVisible c := by
  have hall : ∀ c : Char, c.toNat < 128 → isSchemeChar c = true → IsVisible c :=
    forall_ascii (by decide +kernel)
  exact hall c (ascii_of_isSchemeChar h) h

/-- The front of a URL is visible. -/
theorem Fronted.visible (h : Fronted u host) : ∀ c ∈ u.front, IsVisible c := by
  have hcredentials : ∀ c ∈ u.writtenCredentials.elim [] (· ++ ['@']), IsVisible c := by
    cases hc : u.writtenCredentials with
    | none => exact nofun
    | some credentials =>
      refine List.forall_mem_append.2 ⟨fun c hmem => (h.credentials_char hc c hmem).1, ?_⟩
      exact List.forall_mem_singleton.2 (by decide)
  have hhost : ∀ c ∈ host.text.toList, IsVisible c := by
    intro c hc
    have hchar := h.stable.chars c hc
    exact ⟨hchar.1, hchar.2.1⟩
  have hport : ∀ c ∈ (u.port.map Decimal.digits).elim [] (':' :: ·), IsVisible c := by
    cases u.port with
    | none => exact nofun
    | some n =>
      refine List.forall_mem_cons.2 ⟨by decide, fun c hc => ?_⟩
      have hdigit := Decimal.isDigit_iff.1 (Decimal.isDigit_of_mem_digits n c hc)
      exact ⟨by omega, by omega⟩
  have htext : ∀ c ∈ (u.written host []).text, IsVisible c := by
    refine List.forall_mem_append.2 ⟨hcredentials, List.forall_mem_append.2 ⟨hhost, ?_⟩⟩
    exact List.forall_mem_append.2 ⟨hport, nofun⟩
  have hfront := front_append h.located []
  rw [List.append_nil] at hfront
  rw [hfront]
  refine List.forall_mem_append.2 ⟨fun c hc => visible_of_isSchemeChar (h.scheme.1 c hc), ?_⟩
  simp only [List.forall_mem_cons]
  exact ⟨by decide, by decide, by decide, htext⟩

/-- A query or a fragment begins with its mark. -/
def BeginsMark (rest : List Char) : Prop := ∀ c ∈ rest.head?, c = '?' ∨ c = '#'

/-- A path ends where a mark stands. -/
theorem splitTail_append (h : ∀ c ∈ cs, c ≠ '?' ∧ c ≠ '#') (hr : BeginsMark rest) :
    splitTail (cs ++ rest) = (cs, (splitTail rest).2) := by
  have hpath : ∀ c ∈ cs, (c != '?' && c != '#') = true := by
    intro c hc
    obtain ⟨hquestion, hhash⟩ := h c hc
    rw [bne_iff_ne.2 hquestion, bne_iff_ne.2 hhash]
    rfl
  have hstop : rest.takeWhile (fun c => c != '?' && c != '#') = [] := by
    cases rest with
    | nil => rfl
    | cons c more =>
      rcases hr c rfl with rfl | rfl
      · rfl
      · rfl
  unfold splitTail
  dsimp only
  rw [List.takeWhile_append_of_pos hpath, hstop, List.append_nil, List.drop_left, List.length_nil,
    List.drop_zero]
  cases rest with
  | nil => rfl
  | cons c more =>
    rcases hr c rfl with rfl | rfl
    · split
      · -- a fragment may follow the query
        split
        · rfl
        · rfl
      · rfl
      · rfl
    · rfl

theorem visible_slashed (h : ∀ s ∈ segments, IsSegment kind s) :
    ∀ c ∈ slashed segments, IsVisible c ∧ c ≠ '?' ∧ c ≠ '#' := by
  intro c hc
  obtain ⟨s, hs, hc⟩ := List.mem_flatMap.1 hc
  rcases List.mem_cons.1 hc with rfl | hc
  · decide
  · exact visible_of_path ((h s hs).escaped c hc).2

theorem beginsTail_slashed (hr : BeginsMark rest) : BeginsTail (slashed segments ++ rest) := by
  intro c hc
  cases segments with
  | nil =>
    rcases hr c hc with rfl | rfl
    · decide
    · decide
  | cons s more =>
    obtain rfl := Option.some.inj hc
    decide

/-- The slashes before an authority are all that a special scheme drops. -/
theorem dropWhile_front (h : Fronted u host) (ht : BeginsTail tail) :
    ('/' :: '/' :: (u.written host tail).text).dropWhile SchemeKind.special.isSlash =
      (u.written host tail).text := by
  have hp : (u.written host tail).WellFormed .special := h.wellFormed ht
  have hplain : ∀ c ∈ u.writtenCredentials.elim [] (· ++ ['@']) ++ host.text.toList,
      SchemeKind.special.endsAuthority c = false := by
    refine List.forall_mem_append.2 ⟨?_, hp.host.plain⟩
    cases hc : u.writtenCredentials with
    | none => exact nofun
    | some credentials =>
      refine List.forall_mem_append.2 ⟨hp.credentials credentials hc, ?_⟩
      exact List.forall_mem_singleton.2 (by decide)
  have hne : u.writtenCredentials.elim [] (· ++ ['@']) ++ host.text.toList ≠ [] :=
    List.append_ne_nil_of_right_ne_nil _ h.stable.ne_nil
  obtain ⟨first, more, hfirst⟩ := List.exists_cons_of_ne_nil hne
  have htext : (u.written host tail).text = first :: (more ++ (u.written host tail).behind) := by
    rw [Parts.text, Parts.location, ← List.append_assoc]
    exact congrArg (· ++ _) hfirst
  have hslash : SchemeKind.special.isSlash first = false := by
    have hends := hplain first (by rw [hfirst]; exact List.mem_cons_self)
    unfold SchemeKind.endsAuthority at hends
    simp only [Bool.or_eq_false_iff] at hends
    exact hends.1.1
  have hslashes : ∀ c ∈ ['/', '/'], SchemeKind.special.isSlash c = true :=
    forall_mem_of_all (by decide)
  have hhead : ∀ c ∈ (u.written host tail).text.head?, SchemeKind.special.isSlash c = false := by
    intro c hc
    rw [htext] at hc
    obtain rfl := Option.some.inj hc
    exact hslash
  exact dropWhile_slashes hslashes hhead

/-- The authority of a URL is read back, with the tail that follows it. -/
theorem readAuthority_written (h : Fronted u host) (ht : BeginsTail tail) :
    readAuthority (.of u.scheme) u.scheme (u.written host tail).text =
      .ok (withTail (.of u.scheme) (fun q => .segments (readPath (.of u.scheme) q)) u tail) := by
  obtain ⟨hbound, hkept⟩ : (∀ n ∈ (u.written host tail).number, n ≤ 65535) ∧
    (u.written host tail).kept u.scheme = u.port := h.port_eq
  have hread := readAuthority_parts u.scheme (h.wellFormed ht) h.stable.ne_nil h.stable.reads hbound
  have hcredentials : (u.written host tail).credentials.elim ("", "") readCredentials =
      (u.username, u.password) := h.readCredentials_eq
  rw [hcredentials, hkept, ← h.located] at hread
  exact hread

/-- The authority of a file URL is its host. -/
theorem written_text_file (h : Fronted u host) (hkind : SchemeKind.of u.scheme = .file)
    (tail : List Char) : (u.written host tail).text = host.text.toList ++ tail := by
  obtain ⟨husername, hpassword, hport, -⟩ := h.file hkind
  have hnone : u.writtenCredentials = none := by
    unfold writtenCredentials
    rw [husername, hpassword]
    rfl
  unfold Parts.text Parts.location Parts.behind written
  rw [hnone, hport]
  rfl

/-- What follows a file URL's host is read back. -/
theorem readFile_written (h : Fronted u host) (hkind : SchemeKind.of u.scheme = .file)
    (ht : BeginsTail tail) (hpath : IsFilePath (fileSegments (splitTail tail).1)) :
    readFile ('/' :: '/' :: (u.written host tail).text) =
      .ok (withTail .file (fun q => .segments (fileSegments q)) u tail) := by
  obtain ⟨husername, hpassword, hport, hlocal⟩ := h.file hkind
  obtain ⟨first, more, hsegments, hdrive, -⟩ := hpath
  -- the host ends where the tail begins
  have hhost : (host.text.toList ++ tail).takeWhile (fun c => !SchemeKind.file.endsAuthority c) =
      host.text.toList := by
    have hplain : ∀ c ∈ host.text.toList, (!SchemeKind.file.endsAuthority c) = true := by
      intro c hc
      rw [(h.wellFormed ht).host.plain c hc]
      rfl
    rw [List.takeWhile_append_of_pos hplain]
    exact (congrArg _ (region_tail ht)).trans (List.append_nil _)
  have hsome : host.text.toList.isEmpty = false := List.isEmpty_eq_false_iff.2 h.stable.ne_nil
  have hparse : Host.parseSpecial host.text.toList = .ok host := by
    apply h.stable.parseSpecial_eq
    rw [hkind]
    exact nofun
  -- nothing but the host stands before the path of such a URL
  have hresult : withTail .file (fun q => .segments (fileSegments q))
      { scheme := "file", host := some host } tail =
        withTail .file (fun q => .segments (fileSegments q)) u tail := by
    rw [withTail_eq, withTail_eq, of_eq_file hkind, husername, hpassword, hport, h.located]
  have hpath : (withTail .file (fun q => .segments (fileSegments q))
      { scheme := "file", host := some host } tail).path = .segments (first :: more) :=
    congrArg UrlPath.segments hsegments
  have hslashes : (SchemeKind.file.isSlash '/' && SchemeKind.file.isSlash '/') = true := rfl
  unfold readFile
  dsimp only
  rw [if_pos hslashes, written_text_file h hkind, hhost, List.drop_left, hparse, hsome,
    h.stable.not_isDriveName]
  dsimp only
  rw [if_neg hlocal, if_neg (by decide)]
  split
  · next first' more' hsame =>
    have hfirst : first' = first :=
      (List.cons.inj (UrlPath.segments.inj (hsame.symm.trans hpath))).1
    rw [hfirst, hdrive, if_neg Bool.false_ne_true]
    exact congrArg Except.ok hresult
  · exact congrArg Except.ok hresult

/-- The path of a file URL is kept. -/
theorem fileSegments_slashed (h : InOrder .file segments) (hfile : IsFilePath segments) :
    fileSegments (slashed segments) = segments := by
  obtain ⟨first, more, rfl, -, hempty⟩ := hfile
  unfold fileSegments
  dsimp only
  rw [readPath_slashed h]
  by_cases hfirst : first = ""
  · rw [hfirst, hempty hfirst]
    rfl
  · have hsome : ¬ first.isEmpty = true := by rwa [String.isEmpty_iff]
    rw [List.dropWhile_cons_of_neg hsome]
    rfl

/-- **The front of a canonical URL is read back**, whatever path in order, query and fragment are
put behind it. -/
theorem parse_front (h : Fronted u host) (hpath : InOrder (.of u.scheme) segments)
    (hfile : SchemeKind.of u.scheme = .file → IsFilePath segments) (hr : BeginsMark rest)
    (hvisible : ∀ c ∈ rest, IsVisible c) :
    parse (String.ofList (u.front ++ (slashed segments ++ rest))) =
      .ok (withTail (.of u.scheme) (fun _ => .segments segments) u rest) := by
  have hslashed := visible_slashed hpath.segment
  have hall : ∀ c ∈ u.front ++ (slashed segments ++ rest), IsVisible c := by
    refine List.forall_mem_append.2 ⟨h.visible, List.forall_mem_append.2 ⟨?_, hvisible⟩⟩
    exact fun c hc => (hslashed c hc).1
  have ht : BeginsTail (slashed segments ++ rest) := beginsTail_slashed hr
  have hsplit : splitScheme (u.front ++ (slashed segments ++ rest)) =
      some (u.scheme, '/' :: '/' :: (u.written host (slashed segments ++ rest)).text) := by
    rw [splitScheme_eq_iff]
    exact ⟨u.scheme.toList, front_append h.located _, h.scheme, by
      rw [String.ofList_toList, h.lower]⟩
  have htail : splitTail (slashed segments ++ rest) = (slashed segments, (splitTail rest).2) :=
    splitTail_append (fun c hc => (hslashed c hc).2) hr
  -- the path is read back, and the rest does not depend on it
  have hkept : ∀ {path : List Char → UrlPath} {kind : SchemeKind},
      path (slashed segments) = .segments segments →
      withTail kind path u (slashed segments ++ rest) =
        withTail kind (fun _ => .segments segments) u rest := by
    intro path kind hsame
    rw [withTail_eq, withTail_eq, htail, hsame]
  have hread := readAuthority_written h ht
  rw [hkept (congrArg UrlPath.segments (readPath_slashed hpath))] at hread
  unfold parse
  rw [cleaned_visible hall, hsplit]
  dsimp only
  cases hkind : SchemeKind.of u.scheme with
  | file =>
    have hsegments := fileSegments_slashed (hkind ▸ hpath) (hfile hkind)
    have hfirst : (splitTail (slashed segments ++ rest)).1 = slashed segments := by rw [htail]
    have hdrive : IsFilePath (fileSegments (splitTail (slashed segments ++ rest)).1) := by
      rw [hfirst, hsegments]
      exact hfile hkind
    dsimp only
    rw [readFile_written h hkind ht hdrive, hkept (congrArg UrlPath.segments hsegments)]
  | special =>
    rw [hkind] at hread
    dsimp only
    rw [dropWhile_front h ht, hread]
  | other =>
    rw [hkind] at hread
    exact hread

/-! ### Query and fragment -/

/-- The query and the fragment as they are written. -/
def marks (u : Url) : List Char :=
  u.query.elim [] ('?' :: ·.toList) ++ u.fragment.elim [] ('#' :: ·.toList)

theorem toList_marked (mark : Char) (text : Option String) :
    (marked (String.ofList [mark]) text).toList = text.elim [] (mark :: ·.toList) := by
  cases text with
  | none => rfl
  | some text =>
    rw [marked, String.toList_append, String.toList_ofList]
    rfl

/-- **The text of a URL** is its front, its path, and its marks. -/
theorem toList_text (h : u.path = .segments segments) :
    u.text.toList = u.front ++ (slashed segments ++ u.marks) := by
  have hquery : (marked "?" u.query).toList = u.query.elim [] ('?' :: ·.toList) :=
    toList_marked '?' u.query
  have hfragment : (marked "#" u.fragment).toList = u.fragment.elim [] ('#' :: ·.toList) :=
    toList_marked '#' u.fragment
  rw [text, h]
  simp only [String.toList_append, toList_pathText, hquery, hfragment, front, marks,
    List.append_assoc]
  rfl

theorem beginsMark_marks (u : Url) : BeginsMark u.marks := by
  intro c hc
  unfold marks at hc
  cases hquery : u.query with
  | some query =>
    rw [hquery] at hc
    exact .inl (Option.some.inj hc).symm
  | none =>
    rw [hquery] at hc
    cases hfragment : u.fragment with
    | some fragment =>
      rw [hfragment] at hc
      exact .inr (Option.some.inj hc).symm
    | none =>
      rw [hfragment] at hc
      cases hc

theorem marks_eq_nil_iff : u.marks = [] ↔ u.query = none ∧ u.fragment = none := by
  unfold marks
  cases u.query <;> cases u.fragment <;> simp

/-- What is cut off at the marks: a query that holds no second mark, and a fragment. -/
theorem splitTail_marks {query : Option (List Char)} (h : ∀ q ∈ query, '#' ∉ q)
    (fragment : Option (List Char)) :
    splitTail (query.elim [] ('?' :: ·) ++ fragment.elim [] ('#' :: ·)) =
      ([], query, fragment) := by
  cases query with
  | none =>
    cases fragment with
    | none => rfl
    | some fragment => rfl
  | some query =>
    have hplain : ∀ c ∈ query, decide (c ≠ '#') = true := by
      intro c hc
      refine decide_eq_true ?_
      rintro rfl
      exact h query rfl hc
    have hstop : (fragment.elim [] ('#' :: ·)).takeWhile (fun c => decide (c ≠ '#')) = [] := by
      cases fragment with
      | none => rfl
      | some fragment => rfl
    have hquery : (query ++ fragment.elim [] ('#' :: ·)).takeWhile (fun c => decide (c ≠ '#')) =
        query := by
      rw [List.takeWhile_append_of_pos hplain, hstop, List.append_nil]
    have hpath : ('?' :: (query ++ fragment.elim [] ('#' :: ·))).takeWhile
        (fun c => c != '?' && c != '#') = [] := rfl
    unfold splitTail
    rw [Option.elim_some, List.cons_append]
    dsimp only
    rw [hpath, List.length_nil, List.drop_zero]
    split
    · next rest hrest =>
      obtain ⟨-, rfl⟩ := List.cons.inj hrest
      rw [hquery, List.drop_left]
      cases fragment with
      | none => rfl
      | some fragment => rfl
    · next hhash => exact absurd (List.cons.inj hhash).1 (by decide)
    · next hquestion _ => exact absurd rfl (hquestion _)

namespace Canonical

variable (h : Canonical u host segments)

include h

theorem visible_marks : ∀ c ∈ u.marks, IsVisible c := by
  refine List.forall_mem_append.2 ⟨?_, ?_⟩
  · cases hquery : u.query with
    | none => exact nofun
    | some query =>
      refine List.forall_mem_cons.2 ⟨by decide, fun c hc => ?_⟩
      exact (visible_of_query (h.query query hquery c hc).2).1
  · cases hfragment : u.fragment with
    | none => exact nofun
    | some fragment =>
      refine List.forall_mem_cons.2 ⟨by decide, fun c hc => ?_⟩
      exact visible_of_fragment (h.fragment fragment hfragment c hc).2

/-- The marks of a URL are read back. -/
theorem withTail_marks :
    withTail (.of u.scheme) (fun _ => .segments segments) u u.marks = u := by
  have hhash : ∀ q ∈ u.query.map String.toList, '#' ∉ q := by
    intro q hq hmem
    obtain ⟨query, hquery, rfl⟩ := Option.map_eq_some_iff.1 hq
    exact (visible_of_query (h.query query hquery '#' hmem).2).2 rfl
  have hsplit := splitTail_marks hhash (u.fragment.map String.toList)
  have hmarks : u.marks = (u.query.map String.toList).elim [] ('?' :: ·) ++
      (u.fragment.map String.toList).elim [] ('#' :: ·) := by
    unfold marks
    cases u.query <;> cases u.fragment <;> rfl
  have hquery : (u.query.map String.toList).map (fun q =>
      Percent.encode (SchemeKind.of u.scheme).standsInQuery (String.ofList q)) = u.query := by
    cases hq : u.query with
    | none => rfl
    | some query => exact congrArg some (h.query query hq).encode_eq
  have hfragment : (u.fragment.map String.toList).map (fun f =>
      Percent.encode standsInFragment (String.ofList f)) = u.fragment := by
    cases hf : u.fragment with
    | none => rfl
    | some fragment => exact congrArg some (h.fragment fragment hf).encode_eq
  rw [withTail_eq, hmarks, hsplit]
  dsimp only
  rw [hquery, hfragment, ← h.path]

/-- **A canonical URL is read back from its text.** -/
theorem parse_text : parse u.text = .ok u := by
  have hread := parse_front h.front h.inOrder h.file (beginsMark_marks u) h.visible_marks
  rw [← toList_text h.path, String.ofList_toList, h.withTail_marks] at hread
  exact hread

end Canonical

/-- **A URL that has been read is read back from its text**, if it has a host. -/
theorem parse_text_of_parse (h : parse s = .ok u) (hhost : u.host = some host) :
    parse u.text = .ok u := by
  obtain ⟨segments, hcanonical⟩ := canonical_of_parse h hhost
  exact hcanonical.parse_text

end TelemetryRelay.Url
