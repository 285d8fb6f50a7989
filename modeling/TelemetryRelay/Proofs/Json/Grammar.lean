import TelemetryRelay.Proofs.Json.Lexical

/-!
# The grammar of documents

What a document may look like (`ValueText`, `Document`), and that the reader follows it. The index
of `ValueText` bounds the nesting of containers. A container holds slots, each a value with the
blanks around it, separated by commas.

* `readValue_sound`: what is read is written by the grammar; by induction on the reader's fuel.
* `readValue_complete`: what the grammar writes is read, with two steps for each character; by
  induction on the text's derivation.
* `readDocument_iff`, `parse?_iff`: **the reader accepts exactly the documents of the grammar.**
-/

namespace TelemetryRelay.Json

open Decimal (isDigit)

/-- A value inside a container, with the blanks around it. -/
structure Slot where
  before : List Char
  text : List Char
  after : List Char
  value : Json

/-- The characters of a slot. -/
def Slot.chars (s : Slot) : List Char := s.before ++ (s.text ++ s.after)

/-- Nothing but blanks stands around the value. -/
def Slot.Spaced (s : Slot) : Prop := Blank s.before ∧ Blank s.after

/-- A field of an object: its key, quoted and with blanks around it, and behind a colon its value. -/
structure Entry where
  before : List Char
  keyText : List Char
  body : List Char
  gap : List Char
  slot : Slot

/-- The characters of a field. -/
def Entry.chars (e : Entry) : List Char :=
  e.before ++ '"' :: (e.keyText ++ '"' :: (e.gap ++ ':' :: e.slot.chars))

/-- The field that is written. -/
def Entry.field (e : Entry) : String × Json := (String.ofList e.body, e.slot.value)

/-- The key is written as it should be, and nothing but blanks stands around it and the value. -/
structure Entry.Spaced (e : Entry) : Prop where
  before : Blank e.before
  key : BodyText e.keyText e.body
  gap : Blank e.gap
  slot : e.slot.Spaced

/-- Pieces with commas between them. -/
def separated (pieces : List (List Char)) : List Char := [','].intercalate pieces

/-- **How a value is written** whose containers are nested at most `depth` deep. -/
inductive ValueText : Nat → List Char → Json → Prop where
  | null {depth : Nat} : ValueText depth ['n', 'u', 'l', 'l'] .null
  | yes {depth : Nat} : ValueText depth ['t', 'r', 'u', 'e'] (.bool true)
  | no {depth : Nat} : ValueText depth ['f', 'a', 'l', 's', 'e'] (.bool false)
  | number {depth : Nat} {cs : List Char} {n : Number} (h : NumberText cs n) :
      ValueText depth cs (.number n)
  | string {depth : Nat} {cs body : List Char} (h : BodyText cs body) :
      ValueText depth ('"' :: (cs ++ ['"'])) (.string (String.ofList body))
  | array {depth : Nat} {blank : List Char} {slots : List Slot} (hblank : Blank blank)
      (hspaced : ∀ s ∈ slots, s.Spaced) (hvalue : ∀ s ∈ slots, ValueText depth s.text s.value) :
      ValueText (depth + 1) ('[' :: (blank ++ (separated (slots.map Slot.chars) ++ [']'])))
        (.array (slots.map Slot.value))
  | object {depth : Nat} {blank : List Char} {entries : List Entry} (hblank : Blank blank)
      (hspaced : ∀ e ∈ entries, e.Spaced)
      (hvalue : ∀ e ∈ entries, ValueText depth e.slot.text e.slot.value) :
      ValueText (depth + 1) ('{' :: (blank ++ (separated (entries.map Entry.chars) ++ ['}'])))
        (.object (entries.map Entry.field))

/-- **A text that is one document**, with blanks around it. -/
def Document (cs : List Char) (j : Json) : Prop :=
  ∃ before text after, Blank before ∧ Blank after ∧ cs = before ++ (text ++ after) ∧
    ValueText nestingLimit text j

/-! ### Blanks between the tokens -/

theorem skipSpace_skipSpace (cs : List Char) : skipSpace (skipSpace cs) = skipSpace cs := by
  obtain ⟨blank, hblank, hcs⟩ := exists_blank cs
  have h := skipSpace_append hblank (skipSpace cs)
  rw [← hcs] at h
  exact h.symm

/-- A value that is read may have blanks before it. -/
theorem readValue_skipSpace (fuel depth : Nat) (cs : List Char) :
    readValue fuel depth (skipSpace cs) = readValue fuel depth cs := by
  cases fuel with
  | zero => rfl
  | succ fuel => rw [readValue, readValue, skipSpace_skipSpace]

theorem readItems_skipSpace (fuel depth : Nat) (cs : List Char) :
    readItems fuel depth (skipSpace cs) = readItems fuel depth cs := by
  cases fuel with
  | zero => rfl
  | succ fuel => rw [readItems, readItems, readValue_skipSpace]

theorem readFields_skipSpace (fuel depth : Nat) (cs : List Char) :
    readFields fuel depth (skipSpace cs) = readFields fuel depth cs := by
  cases fuel with
  | zero => rfl
  | succ fuel => rw [readFields, readFields, skipSpace_skipSpace]

/-- What follows a value inside a container, or at the end of a document. -/
theorem ends_of_blank {blank rest : List Char} (h : Blank blank) (hr : Ends rest) :
    Ends (blank ++ rest) := by
  cases blank with
  | nil => exact hr
  | cons c more =>
    intro d hd
    cases hd
    have hc := h c List.mem_cons_self
    simp only [isSpace, Bool.or_eq_true, beq_iff_eq] at hc
    rcases hc with ((rfl | rfl) | rfl) | rfl <;> decide

theorem ends_cons {c : Char} (h : c = ',' ∨ c = ']' ∨ c = '}') (rest : List Char) :
    Ends (c :: rest) := by
  intro d hd
  cases hd
  rcases h with rfl | rfl | rfl <;> decide

theorem separated_singleton (p : List Char) : separated [p] = p := by
  simp [separated, List.intercalate]

/-- What stands behind the first piece does not depend on it. -/
theorem exists_separated (pieces : List (List Char)) :
    ∃ tail, ∀ p, separated (p :: pieces) = p ++ tail := by
  cases pieces with
  | nil => exact ⟨[], fun p => by rw [separated_singleton, List.append_nil]⟩
  | cons q rest =>
    refine ⟨[','] ++ separated (q :: rest), fun p => ?_⟩
    simp only [separated, List.intercalate_cons_cons, List.append_assoc]

theorem separated_cons {pieces : List (List Char)} (h : pieces ≠ []) (p : List Char) :
    separated (p :: pieces) = p ++ ',' :: separated pieces := by
  obtain ⟨q, rest, rfl⟩ := List.exists_cons_of_ne_nil h
  simp [separated, List.intercalate]

/-! ### What is read -/

variable {fuel depth : Nat} {cs rest : List Char}

theorem expect?_sound : ∀ {word cs : List Char}, expect? word cs = some rest → cs = word ++ rest := by
  intro word
  induction word with
  | nil => intro cs h; cases h; rfl
  | cons w ws ih =>
    intro cs h
    cases cs with
    | nil => cases h
    | cons c cs =>
      rw [expect?] at h
      split at h
      case isTrue hw => rw [ih h, hw]; rfl
      case isFalse => cases h

/-- What is read off the start of a text: blanks, and a text in some relation to the result. -/
def Takes {α : Type} (P : List Char → α → Prop) (cs : List Char) (a : α) (rest : List Char) : Prop :=
  ∃ before text, Blank before ∧ cs = before ++ (text ++ rest) ∧ P text a

/-- Items up to the closing bracket. -/
structure ItemsText (depth : Nat) (text : List Char) (slots : List Slot) : Prop where
  ne_nil : slots ≠ []
  chars : text = separated (slots.map Slot.chars) ++ [']']
  spaced : ∀ s ∈ slots, s.Spaced
  value : ∀ s ∈ slots, ValueText depth s.text s.value

/-- Fields up to the closing brace. -/
structure FieldsText (depth : Nat) (text : List Char) (entries : List Entry) : Prop where
  ne_nil : entries ≠ []
  chars : text = separated (entries.map Entry.chars) ++ ['}']
  spaced : ∀ e ∈ entries, e.Spaced
  value : ∀ e ∈ entries, ValueText depth e.slot.text e.slot.value

/-- The reader of values follows the grammar as far as its fuel goes. -/
def SoundFor (fuel : Nat) : Prop :=
  (∀ depth cs j rest, readValue fuel depth cs = some (j, rest) →
    Takes (ValueText depth) cs j rest) ∧
  (∀ depth cs items rest, readItems fuel depth cs = some (items, rest) →
    ∃ text slots, cs = text ++ rest ∧ items = slots.map Slot.value ∧ ItemsText depth text slots) ∧
  ∀ depth cs fields rest, readFields fuel depth cs = some (fields, rest) →
    ∃ text entries, cs = text ++ rest ∧ fields = entries.map Entry.field ∧
      FieldsText depth text entries

/-- A value and the blanks behind it are a slot. -/
theorem Takes.slot {j : Json} (h : Takes (ValueText depth) cs j rest) :
    ∃ s : Slot, cs = s.chars ++ skipSpace rest ∧ s.value = j ∧ s.Spaced ∧
      ValueText depth s.text s.value := by
  obtain ⟨before, text, hbefore, rfl, htext⟩ := h
  obtain ⟨after, hafter, hrest⟩ := exists_blank rest
  refine ⟨⟨before, text, after, j⟩, ?_, rfl, ⟨hbefore, hafter⟩, htext⟩
  rw [Slot.chars, List.append_assoc, List.append_assoc, ← hrest]

theorem readItems_sound (ih : SoundFor fuel) {items : List Json}
    (h : readItems (fuel + 1) depth cs = some (items, rest)) :
    ∃ text slots, cs = text ++ rest ∧ items = slots.map Slot.value ∧
      ItemsText depth text slots := by
  obtain ⟨⟨item, more⟩, hitem, h⟩ := Option.bind_eq_some_iff.1 h
  obtain ⟨s, hcs, rfl, hspaced, hvalue⟩ := (ih.1 _ _ _ _ hitem).slot
  dsimp only at h
  split at h
  case h_1 last hlast =>
    cases h
    refine ⟨s.chars ++ [']'], [s], ?_, rfl, List.cons_ne_nil _ _, ?_,
      List.forall_mem_singleton.2 hspaced, List.forall_mem_singleton.2 hvalue⟩
    · rw [hcs, hlast, List.append_assoc]
      rfl
    · rw [List.map_singleton, separated_singleton]
  case h_2 next hnext =>
    obtain ⟨⟨tail, more⟩, htail, h⟩ := Option.bind_eq_some_iff.1 h
    cases h
    obtain ⟨text, slots, hnextText, rfl, htext⟩ := ih.2.1 _ _ _ _ htail
    refine ⟨s.chars ++ ',' :: text, s :: slots, ?_, rfl, List.cons_ne_nil _ _, ?_,
      List.forall_mem_cons.2 ⟨hspaced, htext.spaced⟩, List.forall_mem_cons.2 ⟨hvalue, htext.value⟩⟩
    · rw [hcs, hnext, hnextText, List.append_assoc]
      rfl
    · rw [List.map_cons, separated_cons (by simpa using htext.ne_nil), htext.chars,
        List.append_assoc]
      rfl
  case h_3 => cases h

theorem readFields_sound (ih : SoundFor fuel) {fields : List (String × Json)}
    (h : readFields (fuel + 1) depth cs = some (fields, rest)) :
    ∃ text entries, cs = text ++ rest ∧ fields = entries.map Entry.field ∧
      FieldsText depth text entries := by
  rw [readFields] at h
  obtain ⟨before, hbefore, hcs⟩ := exists_blank cs
  split at h
  case h_2 => cases h
  case h_1 afterQuote hquote =>
  obtain ⟨⟨key, afterKey⟩, hkey, h⟩ := Option.bind_eq_some_iff.1 h
  obtain ⟨keyText, body, hkeyText, hbody, rfl⟩ := readString_sound hkey
  obtain ⟨gap, hgap, hafterKey⟩ := exists_blank afterKey
  dsimp only at h
  split at h
  case h_2 => cases h
  case h_1 afterColon hcolon =>
  obtain ⟨⟨value, more⟩, hvalue, h⟩ := Option.bind_eq_some_iff.1 h
  obtain ⟨s, hslot, rfl, hspaced, hs⟩ := (ih.1 _ _ _ _ hvalue).slot
  -- the field that was read, with the blanks behind it
  obtain ⟨e, hentry, hfield, hfine, he⟩ : ∃ e : Entry, cs = e.chars ++ skipSpace more ∧
      e.field = (String.ofList body, s.value) ∧ e.Spaced ∧
        ValueText depth e.slot.text e.slot.value := by
    refine ⟨⟨before, keyText, body, gap, s⟩, ?_, rfl, ⟨hbefore, hbody, hgap, hspaced⟩, hs⟩
    rw [hcs, hquote, hkeyText, hafterKey, hcolon, hslot]
    simp [Entry.chars]
  dsimp only at h
  rw [← hfield] at h
  split at h
  case h_1 last hlast =>
    cases h
    refine ⟨e.chars ++ ['}'], [e], ?_, rfl, List.cons_ne_nil _ _, ?_,
      List.forall_mem_singleton.2 hfine, List.forall_mem_singleton.2 he⟩
    · rw [hentry, hlast, List.append_assoc]
      rfl
    · rw [List.map_singleton, separated_singleton]
  case h_2 next hnext =>
    obtain ⟨⟨tail, more⟩, htail, h⟩ := Option.bind_eq_some_iff.1 h
    cases h
    obtain ⟨text, entries, hnextText, rfl, htext⟩ := ih.2.2 _ _ _ _ htail
    refine ⟨e.chars ++ ',' :: text, e :: entries, ?_, rfl, List.cons_ne_nil _ _, ?_,
      List.forall_mem_cons.2 ⟨hfine, htext.spaced⟩, List.forall_mem_cons.2 ⟨he, htext.value⟩⟩
    · rw [hentry, hnext, hnextText, List.append_assoc]
      rfl
    · rw [List.map_cons, separated_cons (by simpa using htext.ne_nil), htext.chars,
        List.append_assoc]
      rfl
  case h_3 => cases h

theorem readValue_sound (ih : SoundFor fuel) {j : Json}
    (h : readValue (fuel + 1) depth cs = some (j, rest)) : Takes (ValueText depth) cs j rest := by
  rw [readValue] at h
  obtain ⟨before, hbefore, hcs⟩ := exists_blank cs
  -- it is enough to find the text behind the blanks
  suffices ∃ text, skipSpace cs = text ++ rest ∧ ValueText depth text j by
    obtain ⟨text, htext, hj⟩ := this
    exact ⟨before, text, hbefore, by rw [← htext, ← hcs], hj⟩
  split at h
  case h_1 more hmore =>
    obtain ⟨r, hr, h⟩ := Option.map_eq_some_iff.1 h
    cases h
    exact ⟨_, by rw [hmore, expect?_sound hr]; rfl, .null⟩
  case h_2 more hmore =>
    obtain ⟨r, hr, h⟩ := Option.map_eq_some_iff.1 h
    cases h
    exact ⟨_, by rw [hmore, expect?_sound hr]; rfl, .yes⟩
  case h_3 more hmore =>
    obtain ⟨r, hr, h⟩ := Option.map_eq_some_iff.1 h
    cases h
    exact ⟨_, by rw [hmore, expect?_sound hr]; rfl, .no⟩
  case h_4 more hmore =>
    obtain ⟨⟨s, r⟩, hr, h⟩ := Option.map_eq_some_iff.1 h
    cases h
    obtain ⟨text, body, htext, hbody, rfl⟩ := readString_sound hr
    exact ⟨_, by rw [hmore, htext]; simp, .string hbody⟩
  case h_5 more hmore =>
    split at h
    case h_1 => cases h
    obtain ⟨blank, hblank, hinner⟩ := exists_blank more
    split at h
    case h_1 last hlast =>
      cases h
      have hnone : ∀ s ∈ ([] : List Slot), s.Spaced := nofun
      exact ⟨_, by rw [hmore, hinner, hlast]; simp [separated], .array hblank hnone nofun⟩
    case h_2 =>
      obtain ⟨⟨items, r⟩, hr, h⟩ := Option.map_eq_some_iff.1 h
      cases h
      obtain ⟨text, slots, htext, rfl, hslots⟩ := ih.2.1 _ _ _ _ hr
      exact ⟨_, by rw [hmore, hinner, htext, hslots.chars]; simp,
        .array hblank hslots.spaced hslots.value⟩
  case h_6 more hmore =>
    split at h
    case h_1 => cases h
    obtain ⟨blank, hblank, hinner⟩ := exists_blank more
    split at h
    case h_1 last hlast =>
      cases h
      have hnone : ∀ e ∈ ([] : List Entry), e.Spaced := nofun
      exact ⟨_, by rw [hmore, hinner, hlast]; simp [separated], .object hblank hnone nofun⟩
    case h_2 =>
      obtain ⟨⟨fields, r⟩, hr, h⟩ := Option.map_eq_some_iff.1 h
      cases h
      obtain ⟨text, entries, htext, rfl, hentries⟩ := ih.2.2 _ _ _ _ hr
      exact ⟨_, by rw [hmore, hinner, htext, hentries.chars]; simp,
        .object hblank hentries.spaced hentries.value⟩
  case h_7 =>
    obtain ⟨⟨n, r⟩, hr, h⟩ := Option.map_eq_some_iff.1 h
    cases h
    obtain ⟨text, htext, hn⟩ := readNumber_sound hr
    exact ⟨text, htext, .number hn⟩

/-- **The reader follows the grammar**, by induction on its fuel. -/
theorem sound (fuel : Nat) : SoundFor fuel := by
  induction fuel with
  | zero =>
    -- without fuel nothing is read
    refine ⟨?_, ?_, ?_⟩ <;> (intro _ _ _ _ h; cases h)
  | succ fuel ih =>
    exact ⟨fun _ _ _ _ => readValue_sound ih, fun _ _ _ _ => readItems_sound ih,
      fun _ _ _ _ => readFields_sound ih⟩

/-! ### What the grammar writes -/

variable {text : List Char} {j : Json}

/-- A numeral begins with no other character. -/
theorem ne_of_numeral {c d : Char} (hc : c = '-' ∨ isDigit c = true) (hd : isDigit d = false)
    (hminus : d ≠ '-') : c ≠ d := by
  rintro rfl
  exact hc.elim hminus fun h => Bool.false_ne_true (hd.symm.trans h)

theorem isSpace_of_numeral {c : Char} (hc : c = '-' ∨ isDigit c = true) : isSpace c = false := by
  refine Bool.eq_false_iff.2 fun hs => ?_
  simp only [isSpace, Bool.or_eq_true, beq_iff_eq] at hs
  rcases hs with ((hs | hs) | hs) | hs <;> exact ne_of_numeral hc rfl (by decide) hs

/-- A value begins neither with a blank nor with the end of a container. -/
theorem ValueText.exists_cons (h : ValueText depth text j) :
    ∃ c more, text = c :: more ∧ isSpace c = false ∧ c ≠ ']' ∧ c ≠ '}' := by
  cases h with
  | null => exact ⟨_, _, rfl, by decide⟩
  | yes => exact ⟨_, _, rfl, by decide⟩
  | no => exact ⟨_, _, rfl, by decide⟩
  | string _ => exact ⟨_, _, rfl, by decide⟩
  | array _ _ _ => exact ⟨_, _, rfl, by decide⟩
  | object _ _ _ => exact ⟨_, _, rfl, by decide⟩
  | number h =>
    obtain ⟨c, more, hcs, hc⟩ := h.exists_cons
    exact ⟨c, more, hcs, isSpace_of_numeral hc, ne_of_numeral hc rfl (by decide),
      ne_of_numeral hc rfl (by decide)⟩

/-- **A text is read as a value** wherever it stands, with two steps for each of its characters. -/
def Reads (depth : Nat) (text : List Char) (j : Json) : Prop :=
  ∀ {before rest : List Char} {fuel : Nat}, Blank before → Ends rest → 2 * text.length ≤ fuel →
    readValue fuel depth (before ++ (text ++ rest)) = some (j, rest)

/-- A value is read as it begins, once the blanks are skipped. -/
theorem reads_of_cons {c : Char} {more : List Char}
    (h : ∀ {rest : List Char} {fuel : Nat}, Ends rest → 2 * more.length + 1 ≤ fuel →
      readValue (fuel + 1) depth (c :: (more ++ rest)) = some (j, rest)) :
    Reads depth (c :: more) j := by
  intro before rest fuel hbefore hr hfuel
  rw [List.length_cons] at hfuel
  obtain ⟨fuel, rfl⟩ : ∃ n, fuel = n + 1 := ⟨fuel - 1, by omega⟩
  rw [← readValue_skipSpace, skipSpace_append hbefore, readValue_skipSpace, List.cons_append]
  exact h hr (by omega)

/-- A slot is read up to the blanks behind its value. -/
theorem Reads.slot {s : Slot} (h : Reads depth s.text s.value) (hs : s.Spaced) {c : Char}
    (hc : c = ',' ∨ c = ']' ∨ c = '}') (rest : List Char) (hfuel : 2 * s.chars.length ≤ fuel) :
    readValue fuel depth (s.chars ++ c :: rest) = some (s.value, s.after ++ c :: rest) ∧
      skipSpace (s.after ++ c :: rest) = c :: rest := by
  have hlen : s.text.length ≤ s.chars.length := by
    simp only [Slot.chars, List.length_append]
    omega
  rw [Slot.chars, List.append_assoc, List.append_assoc, skipSpace_append hs.2,
    h hs.1 (ends_of_blank hs.2 (ends_cons hc rest)) (by omega)]
  refine ⟨rfl, skipSpace_cons ?_ rest⟩
  rcases hc with rfl | rfl | rfl <;> rfl

theorem readItems_complete : ∀ {slots : List Slot} {fuel : Nat}, slots ≠ [] →
    (∀ s ∈ slots, s.Spaced) → (∀ s ∈ slots, Reads depth s.text s.value) →
    2 * (separated (slots.map Slot.chars)).length + 1 ≤ fuel →
    readItems fuel depth (separated (slots.map Slot.chars) ++ ']' :: rest) =
      some (slots.map Slot.value, rest) := by
  intro slots
  induction slots with
  | nil => intro _ h; exact absurd rfl h
  | cons s tail ih =>
    intro fuel _ hspaced hreads hfuel
    obtain ⟨fuel, rfl⟩ : ∃ n, fuel = n + 1 := ⟨fuel - 1, by omega⟩
    obtain ⟨hs, htail⟩ := List.forall_mem_cons.1 hspaced
    obtain ⟨hread, hreadTail⟩ := List.forall_mem_cons.1 hreads
    by_cases hnil : tail = []
    · subst hnil
      rw [List.map_singleton, separated_singleton] at hfuel ⊢
      obtain ⟨hvalue, hskip⟩ := hread.slot hs (.inr (.inl rfl)) rest (show _ ≤ fuel by omega)
      simp [readItems, hvalue, hskip]
    · rw [List.map_cons, separated_cons (by simpa using hnil)] at hfuel ⊢
      rw [List.length_append, List.length_cons] at hfuel
      rw [List.append_assoc, List.cons_append]
      obtain ⟨hvalue, hskip⟩ := hread.slot hs (.inl rfl)
        (separated (tail.map Slot.chars) ++ ']' :: rest) (show _ ≤ fuel by omega)
      have hrest := @ih fuel hnil htail hreadTail (by omega)
      simp [readItems, hvalue, hskip, hrest]

theorem readFields_complete : ∀ {entries : List Entry} {fuel : Nat}, entries ≠ [] →
    (∀ e ∈ entries, e.Spaced) → (∀ e ∈ entries, Reads depth e.slot.text e.slot.value) →
    2 * (separated (entries.map Entry.chars)).length + 1 ≤ fuel →
    readFields fuel depth (separated (entries.map Entry.chars) ++ '}' :: rest) =
      some (entries.map Entry.field, rest) := by
  intro entries
  induction entries with
  | nil => intro _ h; exact absurd rfl h
  | cons e tail ih =>
    intro fuel _ hspaced hreads hfuel
    obtain ⟨fuel, rfl⟩ : ∃ n, fuel = n + 1 := ⟨fuel - 1, by omega⟩
    obtain ⟨he, htail⟩ := List.forall_mem_cons.1 hspaced
    obtain ⟨hread, hreadTail⟩ := List.forall_mem_cons.1 hreads
    -- a field is read up to the blanks behind its value
    have hentry : ∀ {c : Char} (rest : List Char), c = ',' ∨ c = ']' ∨ c = '}' →
        2 * e.chars.length ≤ fuel →
        skipSpace (e.chars ++ c :: rest) =
            '"' :: (e.keyText ++ '"' :: (e.gap ++ ':' :: (e.slot.chars ++ c :: rest))) ∧
          readValue fuel depth (e.slot.chars ++ c :: rest) =
            some (e.slot.value, e.slot.after ++ c :: rest) ∧
          skipSpace (e.slot.after ++ c :: rest) = c :: rest := by
      intro c rest hc hlen
      refine ⟨?_, hread.slot he.slot hc rest ?_⟩
      · rw [Entry.chars, List.append_assoc, skipSpace_append he.before, List.cons_append,
          skipSpace_cons rfl]
        simp
      · simp only [Entry.chars, List.length_append, List.length_cons] at hlen
        omega
    have hgap : ∀ rest, skipSpace (e.gap ++ ':' :: rest) = ':' :: rest := fun rest => by
      rw [skipSpace_append he.gap, skipSpace_cons rfl]
    by_cases hnil : tail = []
    · subst hnil
      rw [List.map_singleton, separated_singleton] at hfuel ⊢
      obtain ⟨hquote, hvalue, hskip⟩ := hentry rest (.inr (.inr rfl)) (by omega)
      simp [readFields, hquote, readString_complete he.key, hgap, hvalue, hskip, Entry.field]
    · rw [List.map_cons, separated_cons (by simpa using hnil)] at hfuel ⊢
      rw [List.length_append, List.length_cons] at hfuel
      rw [List.append_assoc, List.cons_append]
      obtain ⟨hquote, hvalue, hskip⟩ := hentry
        (separated (tail.map Entry.chars) ++ '}' :: rest) (.inl rfl) (by omega)
      have hrest := @ih fuel hnil htail hreadTail (by omega)
      simp [readFields, hquote, readString_complete he.key, hgap, hvalue, hskip, hrest, Entry.field]

/-- Between its brackets, an array that is not empty is read as its items. -/
theorem readValue_items {cs : List Char} {items : List Json} (hend : (skipSpace cs).head? ≠ some ']')
    (h : readItems fuel depth cs = some (items, rest)) :
    readValue (fuel + 1) (depth + 1) ('[' :: cs) = some (.array items, rest) := by
  rw [← readItems_skipSpace] at h
  simp only [readValue, skipSpace_cons (show isSpace '[' = false from rfl)]
  split
  · next heq => rw [heq] at hend; exact absurd rfl hend
  · rw [h]
    rfl

/-- Between its braces, an object that is not empty is read as its fields. -/
theorem readValue_fields {cs : List Char} {fields : List (String × Json)}
    (hend : (skipSpace cs).head? ≠ some '}')
    (h : readFields fuel depth cs = some (fields, rest)) :
    readValue (fuel + 1) (depth + 1) ('{' :: cs) = some (.object fields, rest) := by
  rw [← readFields_skipSpace] at h
  simp only [readValue, skipSpace_cons (show isSpace '{' = false from rfl)]
  split
  · next heq => rw [heq] at hend; exact absurd rfl hend
  · rw [h]
    rfl

theorem readValue_number {c : Char} (hc : c = '-' ∨ isDigit c = true) (cs : List Char) :
    readValue (fuel + 1) depth (c :: cs) =
      (readNumber (c :: cs)).map fun (n, rest) => (.number n, rest) := by
  rw [readValue, skipSpace_cons (isSpace_of_numeral hc)]
  split
  all_goals first
    | next heq => exact absurd (List.cons.inj heq).1 (ne_of_numeral hc rfl (by decide))
    | rfl

theorem expect?_append (word rest : List Char) : expect? word (word ++ rest) = some rest := by
  induction word with
  | nil => rfl
  | cons w ws ih => rw [List.cons_append, expect?, if_pos rfl, ih]

/-- A list of slots does not begin with the closing bracket. -/
theorem head?_slots {s : Slot} {tail : List Slot} (hs : s.Spaced)
    (hv : ValueText depth s.text s.value) (rest : List Char) :
    (skipSpace (separated ((s :: tail).map Slot.chars) ++ rest)).head? ≠ some ']' := by
  obtain ⟨more, hmore⟩ := exists_separated (tail.map Slot.chars)
  obtain ⟨c, text, htext, hc, hne, -⟩ := hv.exists_cons
  rw [List.map_cons, hmore, Slot.chars, htext]
  simp only [List.append_assoc, List.cons_append, skipSpace_append hs.1, skipSpace_cons hc]
  exact fun h => hne (Option.some.inj h)

/-- A list of fields begins with a quote. -/
theorem head?_entries {e : Entry} {tail : List Entry} (he : e.Spaced) (rest : List Char) :
    (skipSpace (separated ((e :: tail).map Entry.chars) ++ rest)).head? = some '"' := by
  obtain ⟨more, hmore⟩ := exists_separated (tail.map Entry.chars)
  rw [List.map_cons, hmore, Entry.chars]
  simp only [List.append_assoc, List.cons_append, skipSpace_append he.before,
    skipSpace_cons (show isSpace '"' = false from rfl)]
  rfl

/-- **What the grammar writes is read**, by induction on how it is written. -/
theorem readValue_complete (h : ValueText depth text j) : Reads depth text j := by
  induction h with
  | null =>
    refine reads_of_cons fun {rest fuel} _ _ => ?_
    simp only [readValue, skipSpace_cons (show isSpace 'n' = false from rfl), expect?_append]
    rfl
  | yes =>
    refine reads_of_cons fun {rest fuel} _ _ => ?_
    simp only [readValue, skipSpace_cons (show isSpace 't' = false from rfl), expect?_append]
    rfl
  | no =>
    refine reads_of_cons fun {rest fuel} _ _ => ?_
    simp only [readValue, skipSpace_cons (show isSpace 'f' = false from rfl), expect?_append]
    rfl
  | number h =>
    obtain ⟨c, more, rfl, hc⟩ := h.exists_cons
    refine reads_of_cons fun {rest fuel} hr _ => ?_
    rw [readValue_number hc, ← List.cons_append, readNumber_complete h hr]
    rfl
  | string h =>
    refine reads_of_cons fun {rest fuel} _ _ => ?_
    rw [List.append_assoc, List.singleton_append]
    simp only [readValue, skipSpace_cons (show isSpace '"' = false from rfl),
      readString_complete h]
    rfl
  | @array depth blank slots hblank hspaced hvalue ih =>
    refine reads_of_cons fun {rest fuel} _ hfuel => ?_
    simp only [List.length_append, List.length_singleton] at hfuel
    rw [List.append_assoc, List.append_assoc, List.singleton_append]
    cases slots with
    | nil =>
      have hclose : skipSpace (blank ++ (separated [] ++ ']' :: rest)) = ']' :: rest :=
        skipSpace_append hblank _
      simp only [readValue, skipSpace_cons (show isSpace '[' = false from rfl), List.map_nil,
        hclose]
    | cons s tail =>
      refine readValue_items ?_ ?_
      · rw [skipSpace_append hblank]
        exact head?_slots (hspaced s List.mem_cons_self) (hvalue s List.mem_cons_self) _
      · rw [← readItems_skipSpace, skipSpace_append hblank, readItems_skipSpace]
        exact readItems_complete (List.cons_ne_nil _ _) hspaced ih (by omega)
  | @object depth blank entries hblank hspaced _ ih =>
    refine reads_of_cons fun {rest fuel} _ hfuel => ?_
    simp only [List.length_append, List.length_singleton] at hfuel
    rw [List.append_assoc, List.append_assoc, List.singleton_append]
    cases entries with
    | nil =>
      have hclose : skipSpace (blank ++ (separated [] ++ '}' :: rest)) = '}' :: rest :=
        skipSpace_append hblank _
      simp only [readValue, skipSpace_cons (show isSpace '{' = false from rfl), List.map_nil,
        hclose]
    | cons e tail =>
      refine readValue_fields ?_ ?_
      · rw [skipSpace_append hblank, head?_entries (hspaced e List.mem_cons_self)]
        decide
      · rw [← readFields_skipSpace, skipSpace_append hblank, readFields_skipSpace]
        exact readFields_complete (List.cons_ne_nil _ _) hspaced ih (by omega)

/-! ### Documents -/

/-- Blanks may follow a document. -/
theorem ends_of_all {rest : List Char} (h : Blank rest) : Ends rest := by
  rw [← List.append_nil rest]
  exact ends_of_blank h nofun

/-- **A text that is one document is read as it**, and what is read and followed by blanks alone is
one. -/
theorem readDocument_iff : Document cs j ↔ ∃ rest, readDocument cs = some (j, rest) ∧ Blank rest := by
  constructor
  · rintro ⟨before, text, after, hbefore, hafter, rfl, htext⟩
    refine ⟨after, readValue_complete htext hbefore (ends_of_all hafter) ?_, hafter⟩
    simp only [List.length_append]
    omega
  · rintro ⟨rest, hread, hrest⟩
    obtain ⟨before, text, hbefore, hcs, htext⟩ := (sound _).1 _ _ _ _ hread
    exact ⟨before, text, rest, hbefore, hrest, hcs, htext⟩

/-- A text is one document only. -/
theorem Document.unique {j' : Json} (h : Document cs j) (h' : Document cs j') : j = j' := by
  obtain ⟨_, hread, -⟩ := readDocument_iff.1 h
  obtain ⟨_, hread', -⟩ := readDocument_iff.1 h'
  rw [hread] at hread'
  exact (Prod.mk.inj (Option.some.inj hread')).1

/-- **The reader accepts exactly the documents of the grammar.** -/
theorem parse?_eq_some_iff {s : String} : parse? s = some j ↔ Document s.toList j := by
  rw [readDocument_iff, parse?]
  cases hread : readDocument s.toList with
  | none => simp
  | some p =>
    obtain ⟨document, rest⟩ := p
    have hblank : rest.all isSpace = true ↔ Blank rest := List.all_eq_true
    constructor
    · intro h
      dsimp only at h
      split at h
      case isTrue hall => cases h; exact ⟨rest, rfl, hblank.1 hall⟩
      case isFalse => cases h
    · rintro ⟨_, heq, hrest⟩
      cases heq
      exact if_pos (hblank.2 hrest)

end TelemetryRelay.Json
