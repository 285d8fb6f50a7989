import Mathlib.Data.List.TakeWhile
import TelemetryRelay.Url.Parser

/-!
# The grammar of authorities

An authority is perhaps credentials and an at-sign, a host, perhaps a colon and digits, and what
follows (`Parts`). The at-sign that counts is the last one, and the colon that counts is the first
one outside brackets.

* `Parts.WellFormed.unique`: a text has these parts in one way at most.
* `readAuthority_spec`: **what is read has parts**, and the port of the URL is the number that is
  written in them, unless that is the scheme's own.
-/

namespace TelemetryRelay.Url

/-- The parts of an authority, as they are written. -/
@[ext]
structure Parts where
  credentials : Option (List Char)
  host : List Char
  port : Option (List Char)
  tail : List Char

namespace Parts

/-- What follows the host. -/
def behind (p : Parts) : List Char := p.port.elim [] (':' :: ·) ++ p.tail

/-- What follows the credentials. -/
def location (p : Parts) : List Char := p.host ++ p.behind

/-- The text of an authority, and what follows it. -/
def text (p : Parts) : List Char := p.credentials.elim [] (· ++ ['@']) ++ p.location

/-- The port that is written; a colon without digits gives none. -/
def number (p : Parts) : Option Nat :=
  p.port.bind fun ds => if ds.isEmpty then none else some (Decimal.value ds)

end Parts

/-- Whether a bracket is open behind some characters; `bracketed` tells whether one is before
them. -/
def inBrackets (bracketed : Bool) : List Char → Bool
  | [] => bracketed
  | c :: cs => inBrackets (if c = '[' then true else if c = ']' then false else bracketed) cs

variable {kind : SchemeKind} {bracketed : Bool} {cs host rest ds tail before : List Char} {c : Char}
  {p q : Parts} {scheme : String}

/-- The characters before the end of the authority. -/
def region (kind : SchemeKind) (cs : List Char) : List Char :=
  cs.takeWhile fun c => !kind.endsAuthority c

/-- **A host and what follows it**: nothing in the host ends the authority, its colons stand in
brackets, and what follows begins with a colon outside brackets or with the end of the authority. -/
structure Splits (kind : SchemeKind) (bracketed : Bool) (host rest : List Char) : Prop where
  plain : ∀ c ∈ host, kind.endsAuthority c = false
  colon : ∀ before after, host = before ++ ':' :: after → inBrackets bracketed before = true
  stop : ∀ c ∈ rest.head?, kind.endsAuthority c = true ∨
    c = ':' ∧ inBrackets bracketed host = false

/-- **The parts of an authority are well-formed.** -/
structure Parts.WellFormed (kind : SchemeKind) (p : Parts) : Prop where
  credentials : ∀ cs ∈ p.credentials, ∀ c ∈ cs, kind.endsAuthority c = false
  /-- There is no later at-sign. -/
  last : '@' ∉ region kind p.location
  host : Splits kind false p.host p.behind
  port : ∀ ds ∈ p.port, ∀ c ∈ ds, Decimal.isDigit c = true
  tail : ∀ c ∈ p.tail.head?, c ∈ ['/', '\\', '?', '#']

/-! ### Credentials -/

theorem region_append (h : ∀ c ∈ before, kind.endsAuthority c = false) :
    region kind (before ++ rest) = before ++ region kind rest := by
  rw [region, List.takeWhile_append_of_pos]
  · rfl
  · intro c hc
    rw [h c hc]
    rfl

theorem splitCredentials_none (h : '@' ∉ region kind cs) : splitCredentials kind cs = none := by
  have hcontains : (region kind cs).contains '@' = false := by simpa using h
  exact if_neg (by rw [← region, hcontains]; exact Bool.false_ne_true)

/-- The last at-sign of the authority counts. -/
theorem splitCredentials_some (hkind : ∀ c ∈ before, kind.endsAuthority c = false)
    (h : '@' ∉ region kind rest) :
    splitCredentials kind (before ++ '@' :: rest) = some (before, rest) := by
  have hat : kind.endsAuthority '@' = false := by cases kind <;> rfl
  have hregion : region kind (before ++ '@' :: rest) = before ++ '@' :: region kind rest := by
    rw [region_append hkind, ← List.singleton_append, region_append (by simpa using hat)]
    rfl
  have hhost : (region kind (before ++ '@' :: rest)).reverse.takeWhile (· ≠ '@') =
      (region kind rest).reverse := by
    rw [hregion, List.reverse_append, List.reverse_cons, List.append_assoc,
      List.takeWhile_append_of_pos]
    · simp
    · intro c hc
      refine decide_eq_true ?_
      rintro rfl
      exact h (List.mem_reverse.1 hc)
  have hlength : (region kind (before ++ '@' :: rest)).length - (region kind rest).length =
      before.length + 1 := by
    rw [hregion, List.length_append, List.length_cons]
    omega
  unfold splitCredentials
  dsimp only
  rw [← region, hhost, List.length_reverse, hlength, if_pos (by simp [hregion]), hregion]
  simp

/-- A text has no at-sign in its authority, or it has a last one. -/
theorem exists_credentials (kind : SchemeKind) (cs : List Char) : '@' ∉ region kind cs ∨
    ∃ before rest, cs = before ++ '@' :: rest ∧ (∀ c ∈ before, kind.endsAuthority c = false) ∧
      '@' ∉ region kind rest := by
  by_cases h : '@' ∈ region kind cs
  · right
    obtain ⟨after, before, hsplit, hlast⟩ := List.eq_append_cons_of_mem (List.mem_reverse.2 h)
    have hregion : region kind cs = before.reverse ++ '@' :: after.reverse := by
      have := congrArg List.reverse hsplit
      simpa using this
    obtain ⟨rest, hcs⟩ : ∃ rest, cs = before.reverse ++ '@' :: rest := by
      refine ⟨after.reverse ++ cs.dropWhile fun c => !kind.endsAuthority c, ?_⟩
      rw [← List.cons_append, ← List.append_assoc, ← hregion]
      exact List.takeWhile_append_dropWhile.symm
    have hplain : ∀ c ∈ region kind cs, kind.endsAuthority c = false := by
      intro c hc
      simpa using List.mem_takeWhile_imp hc
    rw [hregion] at hplain
    refine ⟨before.reverse, rest, hcs, fun c hc => hplain c (List.mem_append_left _ hc), ?_⟩
    have hsame : region kind (before.reverse ++ ['@'] ++ rest) =
        before.reverse ++ ['@'] ++ region kind rest := by
      refine region_append fun c hc => hplain c ?_
      rw [← List.singleton_append, ← List.append_assoc]
      exact List.mem_append_left _ hc
    rw [List.append_assoc, List.singleton_append, ← hcs, hregion, List.append_assoc,
      List.singleton_append] at hsame
    rw [← (List.cons.inj (List.append_cancel_left hsame)).2, List.mem_reverse]
    exact hlast
  · exact .inl h

/-! ### Hosts -/

/-- Whether a bracket is open behind one more character. -/
def bracketedBy (bracketed : Bool) (c : Char) : Bool :=
  if c = '[' then true else if c = ']' then false else bracketed

theorem splits_nil_iff : Splits kind bracketed [] rest ↔
    ∀ c ∈ rest.head?, kind.endsAuthority c = true ∨ c = ':' ∧ bracketed = false := by
  constructor
  · intro h
    exact h.stop
  · intro h
    exact ⟨nofun, fun before after hnil => absurd hnil (by simp), h⟩

theorem splits_cons_iff : Splits kind bracketed (c :: host) rest ↔
    kind.endsAuthority c = false ∧ (c = ':' → bracketed = true) ∧
      Splits kind (bracketedBy bracketed c) host rest := by
  constructor
  · intro h
    refine ⟨h.plain c List.mem_cons_self, ?_, fun x hx => h.plain x (List.mem_cons_of_mem _ hx),
      ?_, h.stop⟩
    · rintro rfl
      exact h.colon [] host rfl
    · intro before after hsplit
      exact h.colon (c :: before) after (congrArg (c :: ·) hsplit)
  · rintro ⟨hplain, hcolon, h⟩
    refine ⟨List.forall_mem_cons.2 ⟨hplain, h.plain⟩, ?_, h.stop⟩
    intro before after hsplit
    cases before with
    | nil =>
      obtain ⟨rfl, -⟩ := List.cons.inj hsplit
      exact hcolon rfl
    | cons x before =>
      obtain ⟨hx, hsplit⟩ := List.cons.inj hsplit
      exact hx ▸ h.colon before after hsplit

/-- **A host is split off where it ends.** -/
theorem splitHost_eq_iff : splitHost kind bracketed cs = (host, rest) ↔
    cs = host ++ rest ∧ Splits kind bracketed host rest := by
  induction cs generalizing bracketed host rest with
  | nil =>
    rw [splitHost, Prod.mk.injEq]
    constructor
    · rintro ⟨rfl, rfl⟩
      exact ⟨rfl, splits_nil_iff.2 nofun⟩
    · rintro ⟨hnil, -⟩
      obtain ⟨rfl, rfl⟩ := List.append_eq_nil_iff.1 hnil.symm
      exact ⟨rfl, rfl⟩
  | cons c cs ih =>
    rw [splitHost]
    split
    · next hstop =>
      have hends : kind.endsAuthority c = true ∨ c = ':' ∧ bracketed = false := by
        simpa [or_comm] using hstop
      rw [Prod.mk.injEq]
      constructor
      · rintro ⟨rfl, rfl⟩
        refine ⟨rfl, splits_nil_iff.2 fun x hx => ?_⟩
        obtain rfl := Option.some.inj hx
        exact hends
      · rintro ⟨hcs, h⟩
        cases host with
        | nil => exact ⟨rfl, hcs⟩
        | cons x host =>
          -- a host does not begin where the authority ends
          obtain ⟨rfl, -⟩ := List.cons.inj hcs
          obtain ⟨hplain, hcolon, -⟩ := splits_cons_iff.1 h
          rcases hends with hends | ⟨hc, hb⟩
          · exact absurd (hends.symm.trans hplain) (by decide)
          · exact absurd (hb.symm.trans (hcolon hc)) (by decide)
    · next hgo =>
      rw [Bool.or_eq_true, decide_eq_true_eq, not_or, Bool.not_eq_true] at hgo
      have hcolon : c = ':' → bracketed = true := by
        intro hc
        by_contra hb
        exact hgo.1 ⟨hc, by simpa using hb⟩
      obtain ⟨host', rest', hsplit⟩ : ∃ host' rest',
          splitHost kind (bracketedBy bracketed c) cs = (host', rest') := ⟨_, _, rfl⟩
      obtain ⟨hcs, hs⟩ := ih.1 hsplit
      have hread := hsplit
      unfold bracketedBy at hread
      dsimp only
      rw [hread, Prod.mk.injEq]
      constructor
      · rintro ⟨rfl, rfl⟩
        exact ⟨by rw [hcs, List.cons_append], splits_cons_iff.2 ⟨hgo.2, hcolon, hs⟩⟩
      · rintro ⟨hall, h⟩
        cases host with
        | nil =>
          -- the authority does not end yet
          have hrest : rest = c :: cs := hall.symm
          rcases splits_nil_iff.1 h c (by rw [hrest]; rfl) with hends | ⟨hc, hb⟩
          · exact absurd (hends.symm.trans hgo.2) (by decide)
          · exact absurd (hb.symm.trans (hcolon hc)) (by decide)
        | cons x host =>
          obtain ⟨rfl, hcut⟩ := List.cons.inj hall
          have hsame := hsplit.symm.trans (ih.2 ⟨hcut, (splits_cons_iff.1 h).2.2⟩)
          exact ⟨congrArg (c :: ·) (Prod.mk.inj hsame).1, (Prod.mk.inj hsame).2⟩

/-! ### Ports -/

theorem drop_length_takeWhile (cs : List Char) :
    cs.drop (cs.takeWhile Decimal.isDigit).length = cs.dropWhile Decimal.isDigit := by
  induction cs with
  | nil => rfl
  | cons c cs ih =>
    by_cases hc : Decimal.isDigit c = true
    · rw [List.takeWhile_cons_of_pos hc, List.dropWhile_cons_of_pos hc]
      exact ih
    · rw [List.takeWhile_cons_of_neg hc, List.dropWhile_cons_of_neg hc]
      rfl

/-- **A port is read from digits**, up to where the authority ends. -/
theorem readPort_spec {port : Option Nat} (h : readPort scheme cs = .ok (port, rest)) :
    ∃ ds, cs = ds ++ rest ∧ (∀ c ∈ ds, Decimal.isDigit c = true) ∧ Decimal.value ds ≤ 65535 ∧
      port = readPort.port scheme ds ∧ ∀ c ∈ rest.head?, c ∈ ['/', '\\', '?', '#'] := by
  refine ⟨cs.takeWhile Decimal.isDigit, ?_⟩
  unfold readPort at h
  dsimp only at h
  rw [drop_length_takeWhile] at h
  split at h
  · cases h
  · next hvalue =>
    have hdigits : ∀ c ∈ cs.takeWhile Decimal.isDigit, Decimal.isDigit c = true :=
      fun c hc => List.mem_takeWhile_imp hc
    have hcs : cs = cs.takeWhile Decimal.isDigit ++ cs.dropWhile Decimal.isDigit :=
      List.takeWhile_append_dropWhile.symm
    split at h
    · next c more hmore =>
      split at h
      · next hends =>
        cases h
        refine ⟨hcs, hdigits, not_lt.1 hvalue, rfl, fun x hx => ?_⟩
        rw [hmore] at hx
        obtain rfl := Option.some.inj hx
        simpa using hends
      · cases h
    · next hmore =>
      cases h
      refine ⟨hcs, hdigits, not_lt.1 hvalue, rfl, fun x hx => ?_⟩
      rw [hmore] at hx
      cases hx

/-! ### Authorities -/

/-- The port that a URL keeps of one that is written. -/
def Parts.kept (scheme : String) (p : Parts) : Option Nat := p.port.bind (readPort.port scheme)

/-- The scheme's own port is not kept. -/
theorem Parts.kept_eq (scheme : String) (p : Parts) :
    p.kept scheme = if p.number = defaultPort? scheme then none else p.number := by
  unfold kept number
  cases p.port with
  | none =>
    rw [Option.bind_none, Option.bind_none]
    split <;> rfl
  | some ds =>
    rw [Option.bind_some, Option.bind_some, readPort.port]
    by_cases hempty : ds.isEmpty = true
    · rw [if_pos (.inl hempty), if_pos hempty]
      split <;> rfl
    · rw [if_neg hempty]
      refine if_congr ?_ rfl rfl
      rw [or_iff_right hempty, eq_comm]

/-- A URL is connected to at the port that is written, or else at its scheme's. -/
theorem Parts.kept_or (scheme : String) (p : Parts) :
    (p.kept scheme).or (defaultPort? scheme) = p.number.or (defaultPort? scheme) := by
  rw [kept_eq]
  split
  · next hown =>
    rw [hown]
    cases defaultPort? scheme <;> rfl
  · rfl

/-- **What is read of an authority**: its parts, the scheme, the host and the port of the URL. -/
structure Reads (kind : SchemeKind) (scheme : String) (cs : List Char) (u : Url) (p : Parts) :
    Prop where
  wellFormed : p.WellFormed kind
  text_eq : p.text = cs
  scheme_eq : u.scheme = scheme
  host_eq : readHost kind p.host = .ok u.host
  port_eq : u.port = p.kept scheme
  bound : ∀ n ∈ p.number, n ≤ 65535

theorem mem_of_endsAuthority (h : kind.endsAuthority c = true) : c ∈ ['/', '\\', '?', '#'] := by
  unfold SchemeKind.endsAuthority SchemeKind.isSlash at h
  simp only [Bool.or_eq_true, Bool.and_eq_true, beq_iff_eq] at h
  rcases h with ((rfl | ⟨rfl, -⟩) | rfl) | rfl <;> simp

/-- What is read behind the credentials. -/
theorem readLocation_spec {u v : Url} (h : readLocation kind u cs = .ok v)
    (hlast : '@' ∉ region kind cs) (credentials : Option (List Char))
    (hc : ∀ cr ∈ credentials, ∀ c ∈ cr, kind.endsAuthority c = false) :
    ∃ p, Reads kind u.scheme (credentials.elim [] (· ++ ['@']) ++ cs) v p := by
  obtain ⟨host, rest, hsplit⟩ : ∃ host rest, splitHost kind false cs = (host, rest) := ⟨_, _, rfl⟩
  obtain ⟨hcs, hs⟩ := splitHost_eq_iff.1 hsplit
  unfold readLocation at h
  simp only [hsplit] at h
  split at h
  · cases h
  · next found hfound =>
    split at h
    · next more =>
      split at h
      · cases h
      · split at h
        · cases h
        · next port tail hport =>
          split at h
          · cases h
          · cases h
            obtain ⟨ds, rfl, hdigits, hvalue, hkept, htail⟩ := readPort_spec hport
            refine ⟨⟨credentials, host, some ds, tail⟩, ?_⟩
            have hlocation : Parts.location ⟨credentials, host, some ds, tail⟩ = cs := hcs.symm
            refine ⟨⟨hc, hlocation ▸ hlast, hs, ?_, htail⟩, by rw [Parts.text, hlocation], rfl,
              hfound, hkept, ?_⟩
            · intro ds' hds'
              exact Option.some.inj hds' ▸ hdigits
            · intro n hn
              have hn : (if ds.isEmpty then none else some (Decimal.value ds)) = some n := hn
              split at hn
              · cases hn
              · exact Option.some.inj hn ▸ hvalue
    · next hcolon =>
      split at h
      · cases h
      · cases h
        refine ⟨⟨credentials, host, none, rest⟩, ?_⟩
        have hlocation : Parts.location ⟨credentials, host, none, rest⟩ = cs := hcs.symm
        refine ⟨⟨hc, hlocation ▸ hlast, hs, nofun, fun c hmem => ?_⟩,
          by rw [Parts.text, hlocation], rfl, hfound, rfl, nofun⟩
        rcases hs.stop c hmem with hends | ⟨rfl, -⟩
        · exact mem_of_endsAuthority hends
        · obtain ⟨more, hmore⟩ := List.head?_eq_some_iff.1 hmem
          exact absurd hmore (hcolon more)

/-- **What is read has the parts of an authority.** -/
theorem readAuthority_spec {u : Url} (h : readAuthority kind scheme cs = .ok u) :
    ∃ p, Reads kind scheme cs u p := by
  unfold readAuthority at h
  rcases exists_credentials kind cs with hnone | ⟨before, rest, rfl, hplain, hlast⟩
  · rw [splitCredentials_none hnone] at h
    exact readLocation_spec h hnone none nofun
  · rw [splitCredentials_some hplain hlast] at h
    dsimp only at h
    split at h
    · cases h
    · obtain ⟨p, hp⟩ := readLocation_spec h hlast (some before) (by simpa using hplain)
      refine ⟨p, ?_⟩
      simpa using hp

/-! ### Parts are unique -/

theorem Parts.WellFormed.splitCredentials_eq (h : p.WellFormed kind) :
    splitCredentials kind p.text = p.credentials.map (·, p.location) := by
  obtain ⟨credentials, host, port, tail⟩ := p
  cases credentials with
  | none => exact splitCredentials_none h.last
  | some before =>
    have htext : Parts.text ⟨some before, host, port, tail⟩ =
        before ++ '@' :: Parts.location ⟨some before, host, port, tail⟩ := by
      simp [Parts.text]
    rw [htext]
    exact splitCredentials_some (h.credentials before rfl) h.last

theorem Parts.WellFormed.splitHost_eq (h : p.WellFormed kind) :
    splitHost kind false p.location = (p.host, p.behind) :=
  splitHost_eq_iff.2 ⟨rfl, h.host⟩

theorem isDigit_of_mem_ends (h : c ∈ ['/', '\\', '?', '#']) : Decimal.isDigit c = false := by
  have hnone : ∀ x ∈ ['/', '\\', '?', '#'], Decimal.isDigit x = false := by
    simp only [List.forall_mem_cons]
    exact ⟨rfl, rfl, rfl, rfl, nofun⟩
  exact hnone c h

/-- Digits end where the authority does. -/
theorem takeWhile_digits (hd : ∀ c ∈ ds, Decimal.isDigit c = true)
    (ht : ∀ c ∈ tail.head?, c ∈ ['/', '\\', '?', '#']) :
    (ds ++ tail).takeWhile Decimal.isDigit = ds := by
  rw [List.takeWhile_append_of_pos hd]
  cases tail with
  | nil => simp
  | cons c more =>
    have hc := isDigit_of_mem_ends (ht c rfl)
    rw [List.takeWhile_cons_of_neg (by rw [hc]; exact Bool.false_ne_true), List.append_nil]

/-- What follows the authority does not begin with a colon. -/
theorem Parts.WellFormed.tail_ne (h : p.WellFormed kind) : p.tail ≠ ':' :: rest := by
  intro htail
  have hmem := h.tail ':' (by rw [htail]; rfl)
  simp at hmem

theorem Parts.WellFormed.port_unique (hp : p.WellFormed kind) (hq : q.WellFormed kind)
    (h : p.behind = q.behind) : p.port = q.port ∧ p.tail = q.tail := by
  unfold behind at h
  cases hpp : p.port with
  | none =>
    cases hqp : q.port with
    | none =>
      rw [hpp, hqp] at h
      exact ⟨rfl, h⟩
    | some es =>
      rw [hpp, hqp] at h
      exact absurd h hp.tail_ne
  | some ds =>
    cases hqp : q.port with
    | none =>
      rw [hpp, hqp] at h
      exact absurd h.symm hq.tail_ne
    | some es =>
      rw [hpp, hqp] at h
      have h : ds ++ p.tail = es ++ q.tail := (List.cons.inj h).2
      have hsame : ds = es := by
        rw [← takeWhile_digits (hp.port ds hpp) hp.tail, h,
          takeWhile_digits (hq.port es hqp) hq.tail]
      subst hsame
      exact ⟨rfl, List.append_cancel_left h⟩

/-- **A text has the parts of an authority in one way at most.** -/
theorem Parts.WellFormed.unique (hp : p.WellFormed kind) (hq : q.WellFormed kind)
    (h : p.text = q.text) : p = q := by
  have hsplit := hp.splitCredentials_eq
  rw [h, hq.splitCredentials_eq] at hsplit
  have hcut : p.credentials = q.credentials ∧ p.location = q.location := by
    unfold text at h
    cases hpc : p.credentials with
    | none =>
      cases hqc : q.credentials with
      | none =>
        rw [hpc, hqc] at h
        exact ⟨rfl, h⟩
      | some _ =>
        rw [hpc, hqc] at hsplit
        cases hsplit
    | some _ =>
      cases hqc : q.credentials with
      | none =>
        rw [hpc, hqc] at hsplit
        cases hsplit
      | some _ =>
        rw [hpc, hqc] at hsplit
        obtain ⟨hc, hl⟩ := Prod.mk.inj (Option.some.inj hsplit)
        exact ⟨congrArg some hc.symm, hl.symm⟩
  have hhost := hp.splitHost_eq
  rw [hcut.2, hq.splitHost_eq] at hhost
  obtain ⟨hh, hb⟩ := Prod.mk.inj hhost
  obtain ⟨hport, htail⟩ := hp.port_unique hq hb.symm
  exact Parts.ext hcut.1 hh.symm hport htail

end TelemetryRelay.Url
