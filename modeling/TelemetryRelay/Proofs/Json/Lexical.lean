import Mathlib.Data.List.TakeWhile
import TelemetryRelay.Json.Parser

/-!
# The words of documents

What a blank, a string and a numeral may look like, as relations between a text and what it says,
without a reader. A reader for such a word is right if it takes exactly a text of the relation off
the start (`sound`), and takes every such text off (`complete`). Strings end at their quote; a
numeral has no end of its own, so there the next character must not continue it (`Ends`).

* `readString_sound`, `readString_complete`: strings, with their escapes and surrogate pairs.
* `readNumber_sound`, `readNumber_complete`: numerals.
-/

namespace TelemetryRelay.Json

open Decimal (isDigit)

/-! ### Blanks -/

/-- Nothing but blanks. -/
def Blank (cs : List Char) : Prop := ∀ c ∈ cs, isSpace c = true

theorem skipSpace_append {blank : List Char} (h : Blank blank) (cs : List Char) :
    skipSpace (blank ++ cs) = skipSpace cs :=
  List.dropWhile_append_of_pos h

theorem skipSpace_cons {c : Char} (h : isSpace c = false) (cs : List Char) :
    skipSpace (c :: cs) = c :: cs :=
  List.dropWhile_cons_of_neg (by rw [h]; exact Bool.false_ne_true)

/-- What is skipped is blank. -/
theorem exists_blank (cs : List Char) : ∃ blank, Blank blank ∧ cs = blank ++ skipSpace cs :=
  ⟨cs.takeWhile isSpace, fun _ hc => List.mem_takeWhile_imp hc,
    List.takeWhile_append_dropWhile.symm⟩

/-! ### Strings -/

/-- Four hexadecimal digits, and the 16-bit unit they stand for. -/
inductive UnitText : List Char → Nat → Prop where
  | digits {a b c d : Char} {x y z w : Nat} (ha : hexDigit? a = some x) (hb : hexDigit? b = some y)
      (hc : hexDigit? c = some z) (hd : hexDigit? d = some w) :
      UnitText [a, b, c, d] (x * 0x1000 + y * 0x100 + z * 0x10 + w)

/-- **How one character of a string is written**: as itself, behind a backslash, or as one or two
16-bit units. A unit that is half of a surrogate pair stands only beside the other half. -/
inductive CharText : List Char → Char → Prop where
  | plain {c : Char} (hquote : c ≠ '"') (hback : c ≠ '\\') (hcontrol : 0x20 ≤ c.toNat) :
      CharText [c] c
  | short {c d : Char} (h : shortEscape? c = some d) : CharText ['\\', c] d
  | unit {cs : List Char} {n : Nat} (h : UnitText cs n) (hlow : isLowSurrogate n = false)
      (hhigh : isHighSurrogate n = false) : CharText ('\\' :: 'u' :: cs) (Char.ofNat n)
  | pair {cs ds : List Char} {high low : Nat} (h : UnitText cs high) (h' : UnitText ds low)
      (hhigh : isHighSurrogate high = true) (hlow : isLowSurrogate low = true) :
      CharText ('\\' :: 'u' :: cs ++ '\\' :: 'u' :: ds)
        (Char.ofNat (0x10000 + (high - 0xD800) * 0x400 + (low - 0xDC00)))

/-- How the characters between the quotes are written. -/
inductive BodyText : List Char → List Char → Prop where
  | nil : BodyText [] []
  | cons {cs rest body : List Char} {c : Char} (h : CharText cs c) (hrest : BodyText rest body) :
      BodyText (cs ++ rest) (c :: body)

variable {cs rest : List Char}

theorem readUnit_sound {n : Nat} (h : readUnit cs = some (n, rest)) :
    ∃ text, cs = text ++ rest ∧ UnitText text n := by
  unfold readUnit at h
  split at h
  case h_2 => cases h
  case h_1 a b c d more =>
    obtain ⟨x, ha, h⟩ := Option.bind_eq_some_iff.1 h
    obtain ⟨y, hb, h⟩ := Option.bind_eq_some_iff.1 h
    obtain ⟨z, hc, h⟩ := Option.bind_eq_some_iff.1 h
    obtain ⟨w, hd, h⟩ := Option.bind_eq_some_iff.1 h
    cases h
    exact ⟨[a, b, c, d], rfl, .digits ha hb hc hd⟩

theorem readUnit_complete {n : Nat} (h : UnitText cs n) (rest : List Char) :
    readUnit (cs ++ rest) = some (n, rest) := by
  cases h with
  | digits ha hb hc hd => simp [readUnit, ha, hb, hc, hd]

/-- No unit is both halves of a pair. -/
theorem not_low_of_high {n : Nat} (h : isHighSurrogate n = true) : isLowSurrogate n = false := by
  simp only [isLowSurrogate, isHighSurrogate, Bool.and_eq_true, decide_eq_true_eq] at h ⊢
  simp only [Bool.and_eq_false_iff, decide_eq_false_iff_not]
  omega

theorem readUnicodeEscape_sound {c : Char} (h : readUnicodeEscape cs = some (c, rest)) :
    ∃ text, cs = text ++ rest ∧ CharText ('\\' :: 'u' :: text) c := by
  obtain ⟨⟨high, more⟩, hhigh, hmore⟩ := Option.bind_eq_some_iff.1 h
  obtain ⟨text, htext, hunit⟩ := readUnit_sound hhigh
  dsimp only at hmore
  split at hmore
  case isTrue => cases hmore
  rename_i hnotLow
  split at hmore
  case isFalse hsingle =>
    cases hmore
    exact ⟨text, htext, .unit hunit (Bool.eq_false_iff.2 hnotLow) (Bool.eq_false_iff.2 hsingle)⟩
  rename_i hpair
  split at hmore
  case h_2 => cases hmore
  obtain ⟨⟨low, more⟩, hlow, hmore⟩ := Option.bind_eq_some_iff.1 hmore
  obtain ⟨text', htext', hunit'⟩ := readUnit_sound hlow
  dsimp only at hmore
  split at hmore
  case isFalse => cases hmore
  rename_i hlow
  obtain ⟨rfl, rfl⟩ := Prod.mk.inj (Option.some.inj hmore)
  refine ⟨text ++ '\\' :: 'u' :: text', ?_, .pair hunit hunit' hpair hlow⟩
  rw [htext, htext', List.append_assoc]
  rfl

theorem readStringChar_sound {c : Char} (h : readStringChar cs = some (c, rest)) :
    ∃ text, cs = text ++ rest ∧ CharText text c := by
  unfold readStringChar at h
  split at h
  case h_4 => cases h
  case h_1 more =>
    obtain ⟨text, rfl, htext⟩ := readUnicodeEscape_sound h
    exact ⟨_, rfl, htext⟩
  case h_2 c' more _ =>
    obtain ⟨d, hd, h⟩ := Option.map_eq_some_iff.1 h
    cases h
    exact ⟨['\\', c'], rfl, .short hd⟩
  case h_3 =>
    split at h
    case isTrue => cases h
    rename_i hplain
    cases h
    simp only [not_or, not_lt] at hplain
    exact ⟨[c], rfl, .plain hplain.2.1 hplain.1 hplain.2.2⟩

theorem readStringChar_complete {c : Char} (h : CharText cs c) (rest : List Char) :
    readStringChar (cs ++ rest) = some (c, rest) := by
  cases h with
  | plain hquote hback hcontrol =>
    have hplain : ¬(c = '\\' ∨ c = '"' ∨ c.toNat < 0x20) := by
      simp only [not_or, not_lt]
      exact ⟨hback, hquote, hcontrol⟩
    rw [List.singleton_append, readStringChar.eq_def]
    split
    · next heq => exact absurd (List.cons.inj heq).1 hback
    · next heq => exact absurd (List.cons.inj heq).1 hback
    · next heq =>
      obtain ⟨rfl, rfl⟩ := List.cons.inj heq
      exact if_neg hplain
    · next heq => cases heq
  | @short c' _ h =>
    have hu : c' ≠ 'u' := by
      rintro rfl
      cases h
    rw [List.cons_append, List.singleton_append, readStringChar, h]
    · rfl
    · simpa using hu
  | unit h hlow hhigh =>
    show readUnicodeEscape (_ ++ rest) = _
    rw [readUnicodeEscape, readUnit_complete h]
    simp [hlow, hhigh]
  | @pair cs ds _ _ h h' hhigh hlow =>
    show readUnicodeEscape ((cs ++ '\\' :: 'u' :: ds) ++ rest) = _
    rw [readUnicodeEscape, List.append_assoc, readUnit_complete h]
    have hnotLow := not_low_of_high hhigh
    simp [hnotLow, hhigh, readUnit_complete h', hlow]

/-- A character of a string begins with no quote, and takes some room. -/
theorem CharText.exists_cons {c : Char} (h : CharText cs c) :
    ∃ first more, cs = first :: more ∧ first ≠ '"' := by
  cases h with
  | plain hquote _ _ => exact ⟨_, _, rfl, hquote⟩
  | short _ => exact ⟨_, _, rfl, by decide⟩
  | unit _ _ _ => exact ⟨_, _, rfl, by decide⟩
  | pair _ _ _ _ => exact ⟨_, _, rfl, by decide⟩

theorem readStringBody_sound : ∀ {fuel : Nat} {cs body : List Char},
    readStringBody fuel cs = some (body, rest) →
      ∃ text, cs = text ++ '"' :: rest ∧ BodyText text body := by
  intro fuel
  induction fuel with
  | zero =>
    intro cs body h
    unfold readStringBody at h
    split at h
    · cases h; exact ⟨[], rfl, .nil⟩
    · cases h
    · next hsucc _ => cases hsucc
  | succ fuel ih =>
    intro cs body h
    unfold readStringBody at h
    split at h
    · cases h; exact ⟨[], rfl, .nil⟩
    · next hzero _ => cases hzero
    · next hsucc _ =>
      cases hsucc
      obtain ⟨⟨c, more⟩, hc, hmore⟩ := Option.bind_eq_some_iff.1 h
      obtain ⟨⟨tail, rest⟩, htail, hmore⟩ := Option.bind_eq_some_iff.1 hmore
      cases hmore
      obtain ⟨text, rfl, hchar⟩ := readStringChar_sound hc
      obtain ⟨text', rfl, hbody⟩ := ih htail
      exact ⟨text ++ text', (List.append_assoc _ _ _).symm, .cons hchar hbody⟩

theorem readStringBody_complete {text body : List Char} (h : BodyText text body) (rest : List Char) :
    ∀ {fuel : Nat}, text.length ≤ fuel →
      readStringBody fuel (text ++ '"' :: rest) = some (body, rest) := by
  induction h with
  | nil => intro fuel _; cases fuel <;> rfl
  | @cons cs tail body c hc _ ih =>
    intro fuel hfuel
    obtain ⟨first, more, hcs, hne⟩ := hc.exists_cons
    have hlen : cs.length = more.length + 1 := by rw [hcs]; rfl
    rw [List.length_append] at hfuel
    obtain ⟨fuel, rfl⟩ : ∃ n, fuel = n + 1 := ⟨fuel - 1, by omega⟩
    have hread := readStringChar_complete hc (tail ++ '"' :: rest)
    rw [List.append_assoc, readStringBody, hread]
    · show (readStringBody fuel (tail ++ '"' :: rest) >>= _) = _
      rw [ih (by omega)]
      rfl
    · intro _ hquote
      rw [hcs] at hquote
      exact hne (List.cons.inj hquote).1

/-- **A string that is read is written as it should be.** -/
theorem readString_sound {s : String} (h : readString cs = some (s, rest)) :
    ∃ text body, cs = text ++ '"' :: rest ∧ BodyText text body ∧ s = String.ofList body := by
  obtain ⟨⟨body, more⟩, hbody, h⟩ := Option.map_eq_some_iff.1 h
  cases h
  obtain ⟨text, hcs, htext⟩ := readStringBody_sound hbody
  exact ⟨text, body, hcs, htext, rfl⟩

/-- **A string that is written as it should be is read.** -/
theorem readString_complete {text body : List Char} (h : BodyText text body) (rest : List Char) :
    readString (text ++ '"' :: rest) = some (String.ofList body, rest) := by
  have hfuel : text.length ≤ (text ++ '"' :: rest).length := by simp
  rw [readString, readStringBody_complete h rest hfuel]
  rfl

/-! ### Numerals -/

/-- One digit or more. -/
def Digits (cs : List Char) : Prop := cs ≠ [] ∧ ∀ c ∈ cs, isDigit c = true

/-- How an exponent is written, if there is one. -/
inductive ExponentText : List Char → Option (Bool × List Char) → Prop where
  | absent : ExponentText [] none
  | plain {mark : Char} {ds : List Char} (hmark : mark = 'e' ∨ mark = 'E') (h : Digits ds) :
      ExponentText (mark :: ds) (some (false, ds))
  | plus {mark : Char} {ds : List Char} (hmark : mark = 'e' ∨ mark = 'E') (h : Digits ds) :
      ExponentText (mark :: '+' :: ds) (some (false, ds))
  | minus {mark : Char} {ds : List Char} (hmark : mark = 'e' ∨ mark = 'E') (h : Digits ds) :
      ExponentText (mark :: '-' :: ds) (some (true, ds))

/-- How a fraction is written, if there is one. -/
inductive FractionText : List Char → List Char → Prop where
  | absent : FractionText [] []
  | digits {ds : List Char} (h : Digits ds) : FractionText ('.' :: ds) ds

/-- How a numeral is written behind its sign: digits of which the first is a zero only if it is the
only one, a fraction and an exponent. -/
inductive MagnitudeText (negative : Bool) : List Char → Literal → Prop where
  | mk {whole fractionText fraction exponentText : List Char} {exponent : Option (Bool × List Char)}
      (hwhole : Digits whole) (hzero : whole.head? = some '0' → whole.length = 1)
      (hfraction : FractionText fractionText fraction)
      (hexponent : ExponentText exponentText exponent) :
      MagnitudeText negative (whole ++ (fractionText ++ exponentText))
        ⟨negative, whole, fraction, exponent⟩

/-- **How a numeral is written**, with a minus sign or without a sign. -/
inductive LiteralText : List Char → Literal → Prop where
  | plain {cs : List Char} {l : Literal} (h : MagnitudeText false cs l) : LiteralText cs l
  | minus {cs : List Char} {l : Literal} (h : MagnitudeText true cs l) : LiteralText ('-' :: cs) l

/-- A numeral and the number it stands for. -/
def NumberText (cs : List Char) (n : Number) : Prop := ∃ l, LiteralText cs l ∧ l.number? = some n

/-- What may follow a numeral. -/
def Ends (rest : List Char) : Prop :=
  ∀ c ∈ rest.head?, isDigit c = false ∧ c ≠ '.' ∧ c ≠ 'e' ∧ c ≠ 'E'

/-- No digit comes first. -/
def NoDigit (rest : List Char) : Prop := ∀ c ∈ rest.head?, isDigit c = false

theorem Ends.noDigit (h : Ends rest) : NoDigit rest := fun c hc => (h c hc).1

/-- What is scanned as digits, when no further digit follows. -/
theorem span_digits {ds : List Char} (h : ∀ c ∈ ds, isDigit c = true) (hr : NoDigit rest) :
    (ds ++ rest).takeWhile isDigit = ds ∧ (ds ++ rest).dropWhile isDigit = rest := by
  rw [List.takeWhile_append_of_pos h, List.dropWhile_append_of_pos h]
  cases rest with
  | nil => simp
  | cons c more => simp [hr c rfl]

theorem Digits.isEmpty {ds : List Char} (h : Digits ds) : ds.isEmpty = false := by
  simpa using h.1

/-- The digits at the start of a text. -/
theorem digits_takeWhile (h : (cs.takeWhile isDigit).isEmpty = false) :
    Digits (cs.takeWhile isDigit) :=
  ⟨by simpa using h, fun _ hc => List.mem_takeWhile_imp hc⟩

theorem scanFraction_sound {fraction : List Char} (h : scanFraction cs = some (fraction, rest)) :
    ∃ text, cs = text ++ rest ∧ FractionText text fraction := by
  unfold scanFraction at h
  split at h
  · next more =>
    dsimp only at h
    split at h
    case isTrue => cases h
    next hne =>
    cases h
    refine ⟨'.' :: more.takeWhile isDigit, ?_, .digits (digits_takeWhile ?_)⟩
    · rw [List.cons_append, List.takeWhile_append_dropWhile]
    · exact Bool.eq_false_iff.2 hne
  · cases h
    exact ⟨[], rfl, .absent⟩

theorem scanFraction_complete {text fraction : List Char} (h : FractionText text fraction)
    (hr : NoDigit rest) (hpoint : rest.head? ≠ some '.') :
    scanFraction (text ++ rest) = some (fraction, rest) := by
  cases h with
  | absent =>
    unfold scanFraction
    split
    · next heq =>
      rw [List.nil_append] at heq
      rw [heq] at hpoint
      exact absurd rfl hpoint
    · rfl
  | digits h =>
    obtain ⟨htake, hdrop⟩ := span_digits h.2 hr
    simp only [scanFraction, List.cons_append, htake, hdrop, h.isEmpty]
    rfl

theorem scanExponentDigits_sound {negative : Bool} {e : Option (Bool × List Char)}
    (h : scanExponentDigits negative cs = some (e, rest)) :
    ∃ ds, cs = ds ++ rest ∧ Digits ds ∧ e = some (negative, ds) := by
  unfold scanExponentDigits at h
  dsimp only at h
  split at h
  case isTrue => cases h
  next hne =>
  cases h
  exact ⟨cs.takeWhile isDigit, List.takeWhile_append_dropWhile.symm,
    digits_takeWhile (Bool.eq_false_iff.2 hne), rfl⟩

theorem scanExponentDigits_complete {ds : List Char} (h : Digits ds) (hr : NoDigit rest)
    (negative : Bool) :
    scanExponentDigits negative (ds ++ rest) = some (some (negative, ds), rest) := by
  obtain ⟨htake, hdrop⟩ := span_digits h.2 hr
  simp only [scanExponentDigits, htake, hdrop, h.isEmpty]
  rfl

theorem scanExponent_sound {e : Option (Bool × List Char)}
    (h : scanExponent cs = some (e, rest)) : ∃ text, cs = text ++ rest ∧ ExponentText text e := by
  unfold scanExponent at h
  split at h
  case h_2 => cases h; exact ⟨[], rfl, .absent⟩
  case h_1 mark more =>
    split at h
    case isFalse => cases h; exact ⟨[], rfl, .absent⟩
    case isTrue hmark =>
      split at h
      · obtain ⟨ds, rfl, hds, rfl⟩ := scanExponentDigits_sound h
        exact ⟨_, rfl, .plus hmark hds⟩
      · obtain ⟨ds, rfl, hds, rfl⟩ := scanExponentDigits_sound h
        exact ⟨_, rfl, .minus hmark hds⟩
      · obtain ⟨ds, rfl, hds, rfl⟩ := scanExponentDigits_sound h
        exact ⟨_, rfl, .plain hmark hds⟩

theorem scanExponent_complete {text : List Char} {e : Option (Bool × List Char)}
    (h : ExponentText text e) (hr : Ends rest) : scanExponent (text ++ rest) = some (e, rest) := by
  cases h with
  | absent =>
    cases rest with
    | nil => rfl
    | cons c more =>
      have hc : ¬(c = 'e' ∨ c = 'E') := not_or.2 (hr c rfl).2.2
      exact if_neg hc
  | @plain mark ds hmark h =>
    -- digits begin with no sign
    have hsign : ∀ sign more, isDigit sign = false → ds ++ rest ≠ sign :: more := by
      intro sign more hno heq
      obtain ⟨d, ds, rfl⟩ := List.exists_cons_of_ne_nil h.1
      rw [List.cons_append] at heq
      rw [← (List.cons.inj heq).1, h.2 d List.mem_cons_self] at hno
      cases hno
    rw [List.cons_append, scanExponent, if_pos hmark, scanExponentDigits_complete h hr.noDigit]
    · exact fun more => hsign _ more rfl
    · exact fun more => hsign _ more rfl
  | plus hmark h => exact (if_pos hmark).trans (scanExponentDigits_complete h hr.noDigit false)
  | minus hmark h => exact (if_pos hmark).trans (scanExponentDigits_complete h hr.noDigit true)

/-- The first character of an exponent is its mark. -/
theorem ExponentText.ends {text : List Char} {e : Option (Bool × List Char)}
    (h : ExponentText text e) (hr : Ends rest) :
    NoDigit (text ++ rest) ∧ (text ++ rest).head? ≠ some '.' := by
  have hmark : ∀ {mark : Char} {more : List Char}, mark = 'e' ∨ mark = 'E' →
      NoDigit (mark :: more) ∧ (mark :: more).head? ≠ some '.' := by
    rintro _ more (rfl | rfl)
    · exact ⟨fun c hc => by cases hc; rfl, by simp⟩
    · exact ⟨fun c hc => by cases hc; rfl, by simp⟩
  cases h with
  | absent => exact ⟨hr.noDigit, fun h => (hr '.' h).2.1 rfl⟩
  | plain h _ => exact hmark h
  | plus h _ => exact hmark h
  | minus h _ => exact hmark h

theorem FractionText.noDigit {text fraction : List Char} (h : FractionText text fraction)
    (hr : NoDigit rest) : NoDigit (text ++ rest) := by
  cases h with
  | absent => exact hr
  | digits _ => exact fun c hc => by cases hc; rfl

theorem scanMagnitude_sound {negative : Bool} {l : Literal}
    (h : scanMagnitude negative cs = some (l, rest)) :
    ∃ text, cs = text ++ rest ∧ MagnitudeText negative text l := by
  unfold scanMagnitude at h
  dsimp only at h
  split at h
  case isTrue => cases h
  next hok =>
  obtain ⟨⟨fraction, more⟩, hfraction, h⟩ := Option.bind_eq_some_iff.1 h
  obtain ⟨⟨exponent, more⟩, hexponent, h⟩ := Option.bind_eq_some_iff.1 h
  cases h
  simp only [Bool.or_eq_true, Bool.and_eq_true, not_or, not_and] at hok
  obtain ⟨text, htext, hfrac⟩ := scanFraction_sound hfraction
  obtain ⟨text', rfl, hexp⟩ := scanExponent_sound hexponent
  have hdigits := digits_takeWhile (Bool.eq_false_iff.2 hok.1)
  refine ⟨_, ?_, .mk hdigits (fun hzero => ?_) hfrac hexp⟩
  · rw [List.append_assoc, List.append_assoc, ← htext, List.takeWhile_append_dropWhile]
  · have hlen := hok.2 (beq_iff_eq.2 hzero)
    have hpos := List.length_pos_iff.2 hdigits.1
    simp only [gt_iff_lt, decide_eq_true_eq] at hlen
    omega

theorem scanMagnitude_complete {negative : Bool} {text : List Char} {l : Literal}
    (h : MagnitudeText negative text l) (hr : Ends rest) :
    scanMagnitude negative (text ++ rest) = some (l, rest) := by
  cases h with
  | @mk whole fractionText _ exponentText _ hwhole hzero hfraction hexponent =>
    obtain ⟨hno, hpoint⟩ := hexponent.ends hr
    obtain ⟨htake, hdrop⟩ := span_digits hwhole.2 (hfraction.noDigit hno)
    have hlead : (whole.isEmpty || (whole.head? == some '0' && decide (whole.length > 1))) = false := by
      rw [hwhole.isEmpty, Bool.false_or, Bool.and_eq_false_imp]
      intro h0
      rw [hzero (beq_iff_eq.1 h0)]
      rfl
    rw [List.append_assoc, List.append_assoc, scanMagnitude]
    simp only [htake, hdrop, hlead, scanFraction_complete hfraction hno hpoint]
    show (scanExponent (exponentText ++ rest) >>= _) = _
    rw [scanExponent_complete hexponent hr]
    rfl

theorem scanLiteral_sound {l : Literal} (h : scanLiteral cs = some (l, rest)) :
    ∃ text, cs = text ++ rest ∧ LiteralText text l := by
  unfold scanLiteral at h
  split at h
  · obtain ⟨text, rfl, htext⟩ := scanMagnitude_sound h
    exact ⟨_, rfl, .minus htext⟩
  · obtain ⟨text, rfl, htext⟩ := scanMagnitude_sound h
    exact ⟨_, rfl, .plain htext⟩

theorem MagnitudeText.exists_cons {negative : Bool} {l : Literal} (h : MagnitudeText negative cs l) :
    ∃ c more, cs = c :: more ∧ isDigit c = true := by
  cases h with
  | mk hwhole _ _ _ =>
    obtain ⟨c, more, rfl⟩ := List.exists_cons_of_ne_nil hwhole.1
    exact ⟨c, _, rfl, hwhole.2 c List.mem_cons_self⟩

theorem scanLiteral_complete {text : List Char} {l : Literal} (h : LiteralText text l)
    (hr : Ends rest) : scanLiteral (text ++ rest) = some (l, rest) := by
  cases h with
  | plain h =>
    have hread := scanMagnitude_complete h hr
    obtain ⟨c, more, rfl, hc⟩ := h.exists_cons
    unfold scanLiteral
    split
    · next heq =>
      rw [List.cons_append] at heq
      rw [(List.cons.inj heq).1] at hc
      cases hc
    · exact hread
  | minus h => exact scanMagnitude_complete h hr

/-- **A number that is read is written as it should be.** -/
theorem readNumber_sound {n : Number} (h : readNumber cs = some (n, rest)) :
    ∃ text, cs = text ++ rest ∧ NumberText text n := by
  obtain ⟨⟨l, more⟩, hl, h⟩ := Option.bind_eq_some_iff.1 h
  obtain ⟨n, hn, h⟩ := Option.bind_eq_some_iff.1 h
  cases h
  obtain ⟨text, htext, hl⟩ := scanLiteral_sound hl
  exact ⟨text, htext, l, hl, hn⟩

/-- **A number that is written as it should be is read**, if nothing continues it. -/
theorem readNumber_complete {text : List Char} {n : Number} (h : NumberText text n)
    (hr : Ends rest) : readNumber (text ++ rest) = some (n, rest) := by
  obtain ⟨l, hl, hn⟩ := h
  rw [readNumber, scanLiteral_complete hl hr]
  simp [hn]

/-- A numeral begins with a minus sign or a digit. -/
theorem NumberText.exists_cons {n : Number} (h : NumberText cs n) :
    ∃ c more, cs = c :: more ∧ (c = '-' ∨ isDigit c = true) := by
  obtain ⟨l, hl, -⟩ := h
  cases hl with
  | plain h =>
    obtain ⟨c, more, hcs, hc⟩ := h.exists_cons
    exact ⟨c, more, hcs, .inr hc⟩
  | minus h => exact ⟨_, _, rfl, .inl rfl⟩

end TelemetryRelay.Json
