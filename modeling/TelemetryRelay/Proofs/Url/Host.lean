import TelemetryRelay.Proofs.Url.Authority
import TelemetryRelay.Proofs.Url.Ipv4
import TelemetryRelay.Proofs.Url.Ipv6
import TelemetryRelay.Proofs.Text.Percent

/-!
# Hosts are read back

A host that has been read is written in characters that end no authority, with colons only between
brackets, and is read back from this text: a name is its own ASCII form, and addresses are in range.

* `Host.Stable`: what is said of such a host.
* `stable_of_readHost`: **a host that has been read is read back.**
-/

namespace TelemetryRelay

variable {cs : List Char} {kind : Url.SchemeKind} {host : Host}

namespace Host

open Url (inBrackets readHost)

/-- A visible character that neither ends an authority nor separates its parts. -/
def IsHostChar (c : Char) : Prop :=
  0x20 < c.toNat ∧ c.toNat < 0x7F ∧ c ∉ ['/', '\\', '?', '#', '@', '|']

instance (c : Char) : Decidable (IsHostChar c) := instDecidableAnd

/-- **A host that is read back from its text**, which can stand in an authority. -/
structure Stable (kind : Url.SchemeKind) (host : Host) : Prop where
  reads : readHost kind host.text.toList = .ok (some host)
  chars : ∀ c ∈ host.text.toList, IsHostChar c
  colon : ∀ before after, host.text.toList = before ++ ':' :: after → inBrackets false before = true
  closed : inBrackets false host.text.toList = false

/-- The text of a host is not empty. -/
theorem Stable.ne_nil (h : Stable kind host) : host.text.toList ≠ [] := by
  intro hnil
  have hreads := h.reads
  rw [hnil] at hreads
  cases kind <;> cases hreads

/-- The host of a scheme without opaque hosts is read as such. -/
theorem Stable.parseSpecial_eq (h : Stable kind host) (hkind : kind ≠ .other) :
    parseSpecial host.text.toList = .ok host := by
  have hreads := h.reads
  have hsome : host.text.toList.isEmpty = false := List.isEmpty_eq_false_iff.2 h.ne_nil
  unfold readHost at hreads
  split at hreads
  · exact absurd rfl hkind
  · rw [hsome, if_neg Bool.false_ne_true] at hreads
    cases hfound : parseSpecial host.text.toList with
    | error fault =>
      rw [hfound] at hreads
      cases hreads
    | ok found =>
      rw [hfound] at hreads
      cases hreads
      rfl

/-- The text of a host is no drive. -/
theorem Stable.not_isDriveName (h : Stable kind host) :
    Url.isDriveName host.text.toList = false := by
  unfold Url.isDriveName
  split
  · next a b htext =>
    rw [Bool.and_eq_false_iff, Bool.or_eq_false_iff, beq_eq_false_iff_ne, beq_eq_false_iff_ne]
    by_cases hcolon : b = ':'
    · -- a colon stands between brackets, and a bracket is no letter
      left
      have hopen := h.colon [a] [] (by rw [htext, hcolon]; rfl)
      by_cases ha : a = '['
      · rw [ha]
        decide
      · rw [inBrackets, if_neg ha, ite_self] at hopen
        cases hopen
    · refine .inr ⟨hcolon, ?_⟩
      rintro rfl
      have hbar := h.chars '|' (by rw [htext]; simp)
      exact absurd hbar.2.2 (by decide)
  · rfl

/-! ### Addresses in brackets -/

/-- Between brackets a bracket is open up to the one that closes. -/
theorem inBrackets_of_not_mem (h : ']' ∉ cs) : inBrackets true cs = true := by
  induction cs with
  | nil => rfl
  | cons c rest ih =>
    rw [List.mem_cons, not_or] at h
    rw [inBrackets]
    split
    · exact ih h.2
    · rw [if_neg (Ne.symm h.1)]
      exact ih h.2

/-- No bracket is open behind one that closes. -/
theorem inBrackets_concat (cs : List Char) :
    ∀ bracketed, inBrackets bracketed (cs ++ [']']) = false := by
  induction cs with
  | nil =>
    intro bracketed
    rfl
  | cons c rest ih =>
    intro bracketed
    rw [List.cons_append, inBrackets]
    exact ih _

/-- Without brackets none is open. -/
theorem inBrackets_of_no_bracket (h : '[' ∉ cs) : inBrackets false cs = false := by
  induction cs with
  | nil => rfl
  | cons c rest ih =>
    rw [List.mem_cons, not_or] at h
    rw [inBrackets, if_neg (Ne.symm h.1), ite_self]
    exact ih h.2

theorem toList_bracketed (pieces : List ℕ) :
    (Host.ipv6 pieces).text.toList = '[' :: ((Ipv6.text pieces).toList ++ [']']) := by
  rw [text, String.toList_append, String.toList_append]
  rfl

theorem ofBracketed_text {pieces : List ℕ} (h : Ipv6.InRange pieces) :
    ofBracketed ((Ipv6.text pieces).toList ++ [']']) = .ok (.ipv6 pieces) := by
  unfold ofBracketed
  rw [List.getLast?_concat, if_pos rfl, List.dropLast_concat, Ipv6.parse?_text h]

theorem readHost_bracketed (h : ofBracketed cs = .ok host) :
    readHost kind ('[' :: cs) = .ok (some host) := by
  have hother : parseOpaque ('[' :: cs) = .ok host := h
  have hspecial : parseSpecial ('[' :: cs) = .ok host := h
  unfold readHost
  split
  · rw [hother]
    rfl
  · rw [hspecial]
    rfl

theorem isHostChar_hexDigit : ∀ d < 16, IsHostChar (Ipv6.hexDigit d) ∧ Ipv6.hexDigit d ≠ ']' := by
  decide

/-- **An address in brackets is read back**, whatever the scheme. -/
theorem stable_ipv6 {pieces : List ℕ} (h : Ipv6.InRange pieces) : Stable kind (.ipv6 pieces) := by
  have hchars : ∀ c ∈ (Ipv6.text pieces).toList, IsHostChar c ∧ c ≠ ']' := by
    intro c hc
    rcases Ipv6.mem_text hc with rfl | ⟨d, hd, rfl⟩
    · decide
    · exact isHostChar_hexDigit d hd
  refine ⟨?_, ?_, ?_, ?_⟩
  · rw [toList_bracketed]
    exact readHost_bracketed (ofBracketed_text h)
  · rw [toList_bracketed]
    refine List.forall_mem_cons.2 ⟨by decide, List.forall_mem_append.2 ⟨?_, ?_⟩⟩
    · exact fun c hc => (hchars c hc).1
    · exact List.forall_mem_singleton.2 (by decide)
  · intro before after hsplit
    rw [toList_bracketed] at hsplit
    cases before with
    | nil => exact absurd (List.cons.inj hsplit).1 (by decide)
    | cons x before =>
      obtain ⟨hx, hinside⟩ := List.cons.inj hsplit
      subst hx
      apply inBrackets_of_not_mem
      -- what stands before a colon stands before the bracket that closes
      have hinside : (Ipv6.text pieces).toList ++ [']'] = before ++ ':' :: after := hinside
      have hlast := congrArg List.dropLast hinside
      rw [List.dropLast_concat, List.dropLast_append_of_ne_nil (List.cons_ne_nil _ _)] at hlast
      intro hmem
      exact (hchars ']' (hlast ▸ List.mem_append_left _ hmem)).2 rfl
  · rw [toList_bracketed]
    exact inBrackets_concat _ true

theorem stable_of_ofBracketed (h : ofBracketed cs = .ok host) : Stable kind host := by
  unfold ofBracketed at h
  split at h
  · split at h
    · next pieces hpieces =>
      cases h
      exact stable_ipv6 (Ipv6.inRange_of_parse? hpieces)
    · cases h
  · cases h

/-! ### Names -/

/-- A character that counts can stand in a host, and is no colon and no bracket. -/
theorem isHostChar_of_isPlain {c : Char} (h : Domain.IsPlain c) :
    IsHostChar c ∧ c ≠ ':' ∧ c ≠ '[' := by
  have hallowed := h.not_isForbidden
  unfold Domain.isForbidden at hallowed
  simp only [Bool.or_eq_false_iff, decide_eq_false_iff_not, List.contains_eq_mem] at hallowed
  obtain ⟨⟨hlow, hdelete⟩, hlist⟩ := hallowed
  have hascii := h.1
  refine ⟨⟨by omega, by omega, fun hmem => hlist ?_⟩, ?_, ?_⟩
  · have hsub : ∀ x ∈ ['/', '\\', '?', '#', '@', '|'], x ∈
        ['%', '#', '/', ':', '<', '>', '?', '@', '[', '\\', ']', '^', '|'] :=
      forall_mem_of_all (by decide)
    exact hsub c hmem
  · rintro rfl
    exact hlist (by decide)
  · rintro rfl
    exact hlist (by decide)

/-- What is read of a name in ASCII form. -/
theorem parseSpecial_plain (h : ∀ c ∈ cs, Domain.IsPlain c) (hself : Domain.toAscii? cs = some cs) :
    parseSpecial cs = ofAscii cs := by
  have hbracket : ∀ rest, cs ≠ '[' :: rest := by
    rintro rest rfl
    exact absurd (h '[' List.mem_cons_self).not_isForbidden (by decide)
  have hpercent : ∀ c ∈ cs, c.toNat < 128 ∧ c ≠ '%' := by
    intro c hc
    refine ⟨(h c hc).1, ?_⟩
    rintro rfl
    exact absurd (h '%' hc).not_isForbidden (by decide)
  unfold parseSpecial
  split
  · exact absurd rfl (hbracket _)
  · rw [Percent.decode_plain hpercent, Utf8.decode?_octets]
    dsimp only
    rw [String.toList_ofList, hself]

/-- A host whose text is a name in ASCII form is read back, if it is read of that form. -/
theorem stable_of_plain (hkind : kind ≠ .other) (h : ∀ c ∈ host.text.toList, Domain.IsPlain c)
    (hself : Domain.toAscii? host.text.toList = some host.text.toList)
    (hread : ofAscii host.text.toList = .ok host) : Stable kind host := by
  have hparse := parseSpecial_plain h hself
  have hne : host.text.toList.isEmpty = false := by
    unfold ofAscii at hread
    split at hread
    · cases hread
    · next hne => exact Bool.eq_false_iff.2 hne
  refine ⟨?_, fun c hc => (isHostChar_of_isPlain (h c hc)).1, ?_, ?_⟩
  · rw [hread] at hparse
    unfold readHost
    split
    · exact absurd rfl hkind
    · rw [hne, hparse]
      rfl
  · intro before after hsplit
    have hmem : ':' ∈ host.text.toList := by
      rw [hsplit]
      exact List.mem_append_right _ List.mem_cons_self
    exact absurd rfl (isHostChar_of_isPlain (h ':' hmem)).2.1
  · exact inBrackets_of_no_bracket fun hmem => (isHostChar_of_isPlain (h '[' hmem)).2.2 rfl

/-- **An IPv4 address is read back.** -/
theorem stable_ipv4 (hkind : kind ≠ .other) {address : ℕ} (h : address < 2 ^ 32) :
    Stable kind (.ipv4 address) := by
  have htext : (Host.ipv4 address).text.toList =
      Domain.dotted ((Ipv4.octets address).map Decimal.digits) := Ipv4.toList_text address
  have hne : (Ipv4.octets address).map Decimal.digits ≠ [] := by simp [Ipv4.octets]
  have hdigits : ∀ label ∈ (Ipv4.octets address).map Decimal.digits, ∀ c ∈ label,
      Decimal.isDigit c = true := by
    rw [List.forall_mem_map]
    exact fun n _ => Decimal.isDigit_of_mem_digits n
  have hself := Domain.toAscii?_dotted hne hdigits
  apply stable_of_plain hkind
  · rw [htext]
    exact (Domain.toAscii?_self hself).2
  · rw [htext]
    exact hself
  · have hparse := Ipv4.parse?_text h
    have hsome : (Ipv4.text address).toList.isEmpty = false := by
      rw [List.isEmpty_eq_false_iff]
      intro hnil
      rw [hnil] at hparse
      cases hparse
    show ofAscii (Ipv4.text address).toList = _
    unfold ofAscii
    rw [hsome, Ipv4.endsInNumber_text, hparse]
    rfl

/-- **A host of a special scheme is read back.** -/
theorem stable_of_parseSpecial (hkind : kind ≠ .other) (h : parseSpecial cs = .ok host) :
    Stable kind host := by
  unfold parseSpecial at h
  split at h
  · exact stable_of_ofBracketed h
  · split at h
    · cases h
    · split at h
      · cases h
      · next ascii hascii =>
        obtain ⟨hself, hplain⟩ := Domain.toAscii?_self hascii
        have hread := h
        unfold ofAscii at h
        split at h
        · cases h
        · split at h
          · split at h
            · next address haddress =>
              cases h
              exact stable_ipv4 hkind (Ipv4.lt_of_parse? haddress)
            · cases h
          · cases h
            have htext : (Host.domain (String.ofList ascii)).text.toList = ascii :=
              String.toList_ofList
            apply stable_of_plain hkind
            · rwa [htext]
            · rwa [htext]
            · rwa [htext]

/-! ### Texts -/

theorem isHostChar_of_plain {c : Char} (h : isPlain c = true) (hd : isDelimiter c = false) :
    IsHostChar c := by
  unfold isPlain at h
  rw [Bool.and_eq_true, decide_eq_true_eq, decide_eq_true_eq] at h
  have hne : ∀ x, isDelimiter x = true → c ≠ x := by
    rintro x hx rfl
    exact absurd (hx.symm.trans hd) (by decide)
  have hspace : c.toNat ≠ 0x20 := by
    intro hc
    have hsame : c.toNat = ' '.toNat := hc
    exact hne ' ' rfl (Char.toNat_inj.1 hsame)
  refine ⟨by omega, h.2, fun hmem => ?_⟩
  have hall : ∀ x ∈ ['/', '\\', '?', '#', '@', '|'], isDelimiter x = true :=
    forall_mem_of_all (by decide)
  exact hne c (hall c hmem) rfl

/-- What the text of such a host is written in. -/
def IsOpaqueChar (c : Char) : Prop := c.toNat < 128 ∧ isPlain c = true ∧ isDelimiter c = false

/-- A text without delimiters is escaped without delimiters. -/
theorem isOpaqueChar_of_escaped {s : String} (hs : s.toList.any isDelimiter = false) :
    ∀ c ∈ Percent.encodeChars isPlain s, IsOpaqueChar c := by
  intro c hc
  rcases Percent.mem_encodeChars hc with ⟨hascii, hplain, hmem⟩ | rfl | ⟨n, hn, rfl⟩
  · refine ⟨hascii, hplain, ?_⟩
    by_contra hbad
    have hany := List.any_eq_true.2 ⟨c, hmem, Bool.not_eq_false _ ▸ hbad⟩
    exact Bool.false_ne_true (hs.symm.trans hany)
  · exact ⟨by decide, by decide, by decide⟩
  · have hall : ∀ n < 16, (Percent.hexDigit n).toNat < 128 ∧
        isPlain (Percent.hexDigit n) = true ∧ isDelimiter (Percent.hexDigit n) = false := by
      decide
    exact hall n hn

/-- Such a text is read as it is. -/
theorem parseOpaque_of_chars (hchars : ∀ c ∈ cs, IsOpaqueChar c) :
    parseOpaque cs = .ok (.opaqueName (String.ofList cs)) := by
  have hany : cs.any isDelimiter = false := by
    rw [List.any_eq_false]
    intro c hc hbad
    exact absurd (hbad.symm.trans (hchars c hc).2.2) (by decide)
  unfold parseOpaque
  split
  · -- a bracket is a delimiter
    exact absurd (hchars '[' List.mem_cons_self).2.2 (by decide)
  · rw [hany, if_neg Bool.false_ne_true, Percent.encode, Percent.encodeChars_of_stands]
    intro c hc
    exact ⟨(hchars c hc).1, (hchars c hc).2.1⟩

/-- **A host that is only text is read back.** -/
theorem stable_of_parseOpaque (hne : cs ≠ []) (h : parseOpaque cs = .ok host) :
    Stable .other host := by
  unfold parseOpaque at h
  split at h
  · exact stable_of_ofBracketed h
  · split at h
    · cases h
    · next hdelimiter =>
      cases h
      obtain ⟨ds, hds⟩ : ∃ ds, ds = Percent.encodeChars isPlain (String.ofList cs) := ⟨_, rfl⟩
      have hchars : ∀ c ∈ ds, IsOpaqueChar c := by
        rw [hds]
        apply isOpaqueChar_of_escaped
        rw [String.toList_ofList]
        exact Bool.eq_false_iff.2 hdelimiter
      have hsome : ds ≠ [] := by
        rw [hds]
        apply Percent.encodeChars_ne_nil
        intro hempty
        apply hne
        rw [← String.toList_ofList (l := cs), hempty]
        rfl
      have htext : (Host.opaqueName (String.ofList ds)).text.toList = ds := String.toList_ofList
      rw [Percent.encode, ← hds]
      refine ⟨?_, ?_, ?_, ?_⟩
      · rw [htext]
        unfold readHost
        dsimp only
        rw [parseOpaque_of_chars hchars]
        dsimp only
        rw [List.isEmpty_eq_false_iff.2 hsome]
        rfl
      · rw [htext]
        intro c hc
        obtain ⟨-, hplain, hallowed⟩ := hchars c hc
        exact isHostChar_of_plain hplain hallowed
      · rw [htext]
        intro before after hsplit
        have hmem : ':' ∈ ds := by
          rw [hsplit]
          exact List.mem_append_right _ List.mem_cons_self
        exact absurd (hchars ':' hmem).2.2 (by decide)
      · rw [htext]
        exact inBrackets_of_no_bracket fun hmem => absurd (hchars '[' hmem).2.2 (by decide)

/-- **A host that has been read is read back.** -/
theorem stable_of_readHost (h : readHost kind cs = .ok (some host)) : Stable kind host := by
  unfold readHost at h
  split at h
  · split at h
    · cases h
    · next found hfound =>
      split at h
      · cases h
      · next hne =>
        cases h
        exact stable_of_parseOpaque (by simpa using hne) hfound
  · next hkind =>
    split at h
    · cases h
    · cases hparse : parseSpecial cs with
      | error fault =>
        rw [hparse] at h
        cases h
      | ok found =>
        rw [hparse] at h
        cases h
        exact stable_of_parseSpecial hkind hparse

end Host

end TelemetryRelay
