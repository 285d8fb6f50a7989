import TelemetryRelay.Text.Percent

/-!
# What encodings read back as

Text is the same as its octets: octets that are well-formed read as exactly one text
(`Utf8.decode?_eq_some_iff`). Percent-encoding writes octets in ASCII, so the octets of an encoded
text can be read one character at a time, and each character or escape gives back the octet it
stands for. The one condition is that `%` does not stand for itself.

* `Percent.decode_encodeChars`: an encoded text decodes to the octets of the text.
* `Percent.mem_encodeChars`: it holds only characters that may stand, `%`, and digits.
* `Percent.encodeChars_of_stands`: a text whose characters may all stand is encoded as itself.
* `Utf8.mem_octets_iff`, `Percent.mem_decode`: an ASCII character that no escape is made of stays
  through both.
-/

namespace TelemetryRelay.Utf8

theorem octets_ofList (cs : List Char) :
    octets (String.ofList cs) = cs.flatMap String.utf8EncodeChar := by
  simp [octets, List.utf8Encode, List.data_toByteArray]

/-- **Octets read as the text they are the octets of**, and as no other. -/
theorem decode?_eq_some_iff {bytes : List UInt8} {s : String} :
    decode? bytes = some s ↔ octets s = bytes := by
  have hbytes : octets s = bytes ↔ s.toByteArray = ⟨bytes.toArray⟩ := by
    rw [ByteArray.ext_iff, ← Array.toList_inj]
    rfl
  rw [hbytes, decode?, String.fromUTF8?]
  split
  · rw [Option.some.injEq, ← String.toByteArray_inj]
    exact eq_comm
  · next hbad =>
    constructor
    · intro h; cases h
    · intro h; exact absurd (h ▸ s.isValidUTF8) hbad

theorem decode?_octets (s : String) : decode? (octets s) = some s := decode?_eq_some_iff.2 rfl

theorem octets_eq_nil_iff {s : String} : octets s = [] ↔ s = "" := by
  rw [← decode?_eq_some_iff]
  exact ⟨fun h => (Option.some.inj h).symm, fun h => h ▸ rfl⟩

theorem utf8EncodeChar_of_lt {c : Char} (h : c.toNat < 128) :
    String.utf8EncodeChar c = [c.toNat.toUInt8] :=
  String.utf8EncodeChar_eq_singleton (if_pos (Nat.le_of_lt_succ h))

/-- An ASCII character is one octet. -/
theorem octets_ofList_cons {c : Char} (h : c.toNat < 128) (cs : List Char) :
    octets (String.ofList (c :: cs)) = c.toNat.toUInt8 :: octets (String.ofList cs) := by
  rw [octets_ofList, octets_ofList, List.flatMap_cons, utf8EncodeChar_of_lt h]
  rfl

theorem toNat_toUInt8 {n : Nat} (h : n < 256) : n.toUInt8.toNat = n := by
  rw [Nat.toUInt8, UInt8.toNat_ofNat', Nat.mod_eq_of_lt h]

/-- The octets of a character that is not ASCII are not ASCII. -/
theorem le_of_mem_utf8EncodeChar {c : Char} (hc : 128 ≤ c.toNat) :
    ∀ b ∈ String.utf8EncodeChar c, 128 ≤ b.toNat := by
  have hval : ¬ c.val.toNat ≤ 127 := by
    have : c.toNat = c.val.toNat := rfl
    omega
  unfold String.utf8EncodeChar
  dsimp only
  rw [if_neg hval]
  split
  · simp only [List.forall_mem_cons, UInt8.toNat_ofNat']
    exact ⟨by omega, by omega, nofun⟩
  · split
    · simp only [List.forall_mem_cons, UInt8.toNat_ofNat']
      exact ⟨by omega, by omega, by omega, nofun⟩
    · simp only [List.forall_mem_cons, UInt8.toNat_ofNat']
      exact ⟨by omega, by omega, by omega, by omega, nofun⟩

/-- **A text holds an ASCII character exactly if its octets hold that of the character.** -/
theorem mem_octets_iff {c : Char} (hc : c.toNat < 128) {s : String} :
    c.toNat.toUInt8 ∈ octets s ↔ c ∈ s.toList := by
  rw [← String.ofList_toList (s := s), octets_ofList, String.ofList_toList, List.mem_flatMap]
  constructor
  · rintro ⟨d, hd, hmem⟩
    by_cases hascii : d.toNat < 128
    · rw [utf8EncodeChar_of_lt hascii, List.mem_singleton] at hmem
      have hcode := congrArg UInt8.toNat hmem
      rw [toNat_toUInt8 (by omega), toNat_toUInt8 (by omega)] at hcode
      exact Char.toNat_inj.1 hcode ▸ hd
    · have := le_of_mem_utf8EncodeChar (Nat.le_of_not_lt hascii) _ hmem
      rw [toNat_toUInt8 (by omega)] at this
      omega
  · intro hmem
    refine ⟨c, hmem, ?_⟩
    rw [utf8EncodeChar_of_lt hc]
    exact List.mem_singleton_self _

end TelemetryRelay.Utf8

namespace TelemetryRelay.Percent

open Utf8 (octets octets_ofList_cons)

theorem hexDigit_toNat_lt : ∀ n < 16, (hexDigit n).toNat < 128 := by decide

theorem hexValue?_hexDigit : ∀ n < 16, hexValue? (hexDigit n).toNat.toUInt8 = some n := by decide

theorem decode_cons_of_ne {a : UInt8} (h : a ≠ 0x25) (rest : List UInt8) :
    decode (a :: rest) = a :: decode rest := by
  match rest with
  | [] => rfl
  | [_] => rfl
  | _ :: _ :: _ => rw [decode, if_neg h]

/-- **A text of ASCII without `%` decodes to its own octets.** -/
theorem decode_plain {cs : List Char} (h : ∀ c ∈ cs, c.toNat < 128 ∧ c ≠ '%') :
    decode (octets (String.ofList cs)) = octets (String.ofList cs) := by
  induction cs with
  | nil =>
    rw [Utf8.octets_ofList]
    rfl
  | cons c rest ih =>
    obtain ⟨⟨hascii, hpercent⟩, hrest⟩ := List.forall_mem_cons.1 h
    have hne : c.toNat.toUInt8 ≠ 0x25 := by
      intro he
      have hcode := congrArg UInt8.toNat he
      rw [Utf8.toNat_toUInt8 (by omega)] at hcode
      have hsame : c.toNat = '%'.toNat := hcode
      exact hpercent (Char.toNat_inj.1 hsame)
    rw [octets_ofList_cons hascii, decode_cons_of_ne hne, ih hrest]

theorem decode_escape {high low : Nat} {b c : UInt8} (hb : hexValue? b = some high)
    (hc : hexValue? c = some low) (rest : List UInt8) :
    decode (0x25 :: b :: c :: rest) = UInt8.ofNat (16 * high + low) :: decode rest := by
  rw [decode, if_pos rfl, hb, hc]

theorem decode_ne_nil {bytes : List UInt8} (h : bytes ≠ []) : decode bytes ≠ [] := by
  fun_cases decode bytes
  · exact absurd rfl h
  all_goals exact List.cons_ne_nil _ _

/-- An octet that no escape is made of stays. -/
theorem mem_decode {b : UInt8} (hp : b ≠ 0x25) (hx : hexValue? b = none) {bytes : List UInt8}
    (h : b ∈ bytes) : b ∈ decode bytes := by
  fun_induction decode bytes with
  | case1 => exact h
  | case2 => exact h
  | case3 => exact h
  | case4 x y rest high low hy hx' ih =>
    -- the three octets of an escape
    have hne : b ≠ x ∧ b ≠ y := by
      constructor <;> rintro rfl <;> simp_all
    simp only [List.mem_cons, hp, hne.1, hne.2, false_or] at h
    exact List.mem_cons_of_mem _ (ih h)
  | case5 x y rest hno ih =>
    rcases List.mem_cons.1 h with h | h
    · exact absurd h hp
    · exact List.mem_cons_of_mem _ (ih h)
  | case6 a x y rest ha ih =>
    rcases List.mem_cons.1 h with h | h
    · exact h ▸ List.mem_cons_self
    · exact List.mem_cons_of_mem _ (ih h)

variable {stands : Char → Bool}

theorem encodeOctet_cases (stands : Char → Bool) (b : UInt8) :
    (b.toNat < 128 ∧ stands (Char.ofNat b.toNat) = true ∧
      encodeOctet stands b = [Char.ofNat b.toNat]) ∨ encodeOctet stands b = escape b := by
  by_cases h : (decide (b < 0x80) && stands (Char.ofNat b.toNat)) = true
  · have hb := Bool.and_eq_true_iff.1 h
    exact .inl ⟨of_decide_eq_true hb.1, hb.2, if_pos h⟩
  · exact .inr (if_neg h)

/-- The octet of an ASCII character. -/
theorem toNat_ofNat_octet {b : UInt8} (h : b.toNat < 128) :
    (Char.ofNat b.toNat).toNat = b.toNat := by
  rw [Char.ofNat, dif_pos (show Nat.isValidChar b.toNat from .inl (by omega))]
  rfl

/-- One octet comes back, whether it was written as itself or as its escape. -/
theorem decode_encodeOctet (hp : stands '%' = false) (b : UInt8) (cs : List Char) :
    decode (octets (String.ofList (encodeOctet stands b ++ cs))) =
      b :: decode (octets (String.ofList cs)) := by
  rcases encodeOctet_cases stands b with ⟨hb, hstands, h⟩ | h
  · have hc : (Char.ofNat b.toNat).toNat = b.toNat := toNat_ofNat_octet hb
    have hne : b ≠ 0x25 := by
      rintro rfl
      exact Bool.false_ne_true (hp.symm.trans hstands)
    rw [h, List.singleton_append, octets_ofList_cons (by omega), hc,
      show b.toNat.toUInt8 = b from UInt8.ofNat_toNat]
    exact decode_cons_of_ne hne _
  · have hb : b.toNat < 256 := b.toNat_lt
    have hhigh : b.toNat / 16 < 16 := by omega
    have hlow : b.toNat % 16 < 16 := by omega
    rw [h, escape, List.cons_append, List.cons_append, List.cons_append, List.nil_append,
      octets_ofList_cons (by decide), octets_ofList_cons (hexDigit_toNat_lt _ hhigh),
      octets_ofList_cons (hexDigit_toNat_lt _ hlow)]
    refine (decode_escape (hexValue?_hexDigit _ hhigh) (hexValue?_hexDigit _ hlow) _).trans ?_
    rw [Nat.div_add_mod, UInt8.ofNat_toNat]

/-- **An encoded text decodes to its octets.** -/
theorem decode_encodeChars (hp : stands '%' = false) (s : String) :
    decode (octets (String.ofList (encodeChars stands s))) = octets s := by
  unfold encodeChars
  induction octets s with
  | nil => rfl
  | cons b rest ih => rw [List.flatMap_cons, decode_encodeOctet hp, ih]

/-- **What an encoded text holds**: characters of the text that may stand, and escapes. -/
theorem mem_encodeChars {s : String} {c : Char} (h : c ∈ encodeChars stands s) :
    (c.toNat < 128 ∧ stands c = true ∧ c ∈ s.toList) ∨ c = '%' ∨ ∃ n < 16, c = hexDigit n := by
  obtain ⟨b, hmem, hc⟩ := List.mem_flatMap.1 h
  rcases encodeOctet_cases stands b with ⟨hascii, hstands, hb⟩ | hb
  · rw [hb, List.mem_singleton] at hc
    have hcode : c.toNat = b.toNat := hc ▸ toNat_ofNat_octet hascii
    refine .inl ⟨by omega, hc ▸ hstands, ?_⟩
    rw [← Utf8.mem_octets_iff (by omega), hcode]
    have hoctet : b.toNat.toUInt8 = b := UInt8.ofNat_toNat
    rwa [hoctet]
  · have hlt : b.toNat < 256 := b.toNat_lt
    simp only [hb, escape, List.mem_cons, List.not_mem_nil, or_false] at hc
    rcases hc with rfl | rfl | rfl
    · exact .inr (.inl rfl)
    · exact .inr (.inr ⟨_, by omega, rfl⟩)
    · exact .inr (.inr ⟨_, by omega, rfl⟩)

/-- Something is written for every text but the empty one. -/
theorem encodeChars_ne_nil {s : String} (h : s ≠ "") : encodeChars stands s ≠ [] := by
  obtain ⟨b, rest, hoctets⟩ := List.exists_cons_of_ne_nil (mt Utf8.octets_eq_nil_iff.1 h)
  unfold encodeChars
  rw [hoctets, List.flatMap_cons]
  apply List.append_ne_nil_of_left_ne_nil
  rcases encodeOctet_cases stands b with ⟨-, -, hb⟩ | hb
  · rw [hb]
    exact List.cons_ne_nil _ _
  · rw [hb]
    exact List.cons_ne_nil _ _

/-- **A text whose characters may all stand is encoded as itself.** -/
theorem encodeChars_of_stands {cs : List Char} (h : ∀ c ∈ cs, c.toNat < 128 ∧ stands c = true) :
    encodeChars stands (String.ofList cs) = cs := by
  unfold encodeChars
  induction cs with
  | nil =>
    rw [Utf8.octets_ofList]
    rfl
  | cons c rest ih =>
    obtain ⟨⟨hascii, hstands⟩, hrest⟩ := List.forall_mem_cons.1 h
    have hcode : c.toNat.toUInt8.toNat = c.toNat := Utf8.toNat_toUInt8 (by omega)
    have hlt : c.toNat.toUInt8 < 0x80 := by
      rw [UInt8.lt_iff_toNat_lt, hcode]
      exact hascii
    have hself : encodeOctet stands c.toNat.toUInt8 = [c] := by
      unfold encodeOctet
      dsimp only
      rw [hcode, Char.ofNat_toNat]
      exact if_pos (by rw [hstands, decide_eq_true hlt]; rfl)
    rw [octets_ofList_cons hascii, List.flatMap_cons, hself, ih hrest, List.singleton_append]

end TelemetryRelay.Percent
