import TelemetryRelay.Json.Printer
import TelemetryRelay.Proofs.Json.Grammar

/-!
# Documents that are written

* `bodyText_escape`: **the text of a string is one of the grammar**, for any characters.
* `valueText_fields`: an object whose values are written by the grammar is written by it, with its
  fields in their order.
* `valueText_items`: an array whose items are written by the grammar is written by it.
-/

namespace TelemetryRelay.Json

variable {depth : Nat}

/-! ### Strings -/

theorem hexDigit?_hexChar : ∀ d < 16, hexDigit? (hexChar d) = some d := by decide

/-- A control character is written as its unit. -/
theorem charText_unit {c : Char} (h : c.toNat < 0x20) : CharText
    ['\\', 'u', '0', '0', hexChar (c.toNat / 16), hexChar (c.toNat % 16)] c := by
  have hunit : UnitText ['0', '0', hexChar (c.toNat / 16), hexChar (c.toNat % 16)] c.toNat := by
    have hzero : hexDigit? '0' = some 0 := by decide
    have htext := UnitText.digits hzero hzero
      (hexDigit?_hexChar (c.toNat / 16) (by omega))
      (hexDigit?_hexChar (c.toNat % 16) (Nat.mod_lt _ (by decide)))
    rwa [show 0 * 0x1000 + 0 * 0x100 + c.toNat / 16 * 0x10 + c.toNat % 16 = c.toNat by omega]
      at htext
  have htext := CharText.unit hunit
    (by simp only [isLowSurrogate, Bool.and_eq_false_iff, decide_eq_false_iff_not]; omega)
    (by simp only [isHighSurrogate, Bool.and_eq_false_iff, decide_eq_false_iff_not]; omega)
  rwa [Char.ofNat_toNat] at htext

/-- Every character is written as the grammar has it. -/
theorem charText_escape (c : Char) : CharText (escapeChar c) c := by
  unfold escapeChar
  split
  case h_8 hquote hback _ _ _ _ _ =>
    split
    · next hcontrol => exact charText_unit hcontrol
    · next hplain => exact .plain hquote hback (not_lt.1 hplain)
  all_goals exact .short rfl

/-- **The text of a string is one of the grammar.** -/
theorem bodyText_escape (cs : List Char) : BodyText (cs.flatMap escapeChar) cs := by
  induction cs with
  | nil => exact .nil
  | cons c rest ih => exact .cons (charText_escape c) ih

/-! ### Objects -/

/-- A field as it is written, without blanks. -/
def entry (key : String) (text : List Char) (value : Json) : Entry :=
  ⟨[], key.toList.flatMap escapeChar, key.toList, [], ⟨[], text, [], value⟩⟩

theorem entry_spaced (key : String) (text : List Char) (value : Json) :
    (entry key text value).Spaced :=
  ⟨nofun, bodyText_escape _, nofun, nofun, nofun⟩

theorem entry_chars (key : String) (text : List Char) (value : Json) :
    (entry key text value).chars = quoted key ++ ':' :: text := by
  simp [entry, Entry.chars, Slot.chars, quoted]

theorem entry_field (key : String) (text : List Char) (value : Json) :
    (entry key text value).field = (key, value) := by
  simp [entry, Entry.field]

/-- The fields of an object are separated by commas. -/
theorem fieldChars_eq (fields : List (String × Json)) : fieldChars fields =
    separated (fields.map fun p => quoted p.1 ++ ':' :: chars p.2) ++ ['}'] := by
  induction fields with
  | nil => rfl
  | cons p rest ih =>
    obtain ⟨key, value⟩ := p
    by_cases hnil : rest = []
    · subst hnil
      rw [List.map_singleton, separated_singleton]
      simp [fieldChars]
    · rw [List.map_cons, separated_cons (by simpa using hnil), List.append_assoc, List.cons_append,
        ← ih]
      obtain ⟨q, more, rfl⟩ := List.exists_cons_of_ne_nil hnil
      simp [fieldChars]

/-- **An object is written by the grammar if its values are.** Each field comes with the value that
is written and the value that its text is read as. -/
theorem valueText_fields {fields : List (String × Json × Json)}
    (h : ∀ p ∈ fields, ValueText depth (chars p.2.1) p.2.2) :
    ValueText (depth + 1) (chars (.object (fields.map fun p => (p.1, p.2.1))))
      (.object (fields.map fun p => (p.1, p.2.2))) := by
  have htext := @ValueText.object depth [] (fields.map fun p => entry p.1 (chars p.2.1) p.2.2) nofun
    (List.forall_mem_map.2 fun p _ => entry_spaced _ _ _)
    (List.forall_mem_map.2 fun p hp => h p hp)
  rw [chars, fieldChars_eq]
  simpa only [List.map_map, Function.comp_def, entry_chars, entry_field, List.nil_append] using htext

/-! ### Arrays -/

/-- The items of an array are separated by commas. -/
theorem itemChars_eq (items : List Json) :
    itemChars items = separated (items.map chars) ++ [']'] := by
  induction items with
  | nil => rfl
  | cons item rest ih =>
    by_cases hnil : rest = []
    · subst hnil
      rw [List.map_singleton, separated_singleton]
      rfl
    · rw [List.map_cons, separated_cons (by simpa using hnil), List.append_assoc, List.cons_append,
        ← ih]
      obtain ⟨next, more, rfl⟩ := List.exists_cons_of_ne_nil hnil
      rfl

/-- **An array is written by the grammar if its items are.** Each item comes with the value that is
written and the value that its text is read as. -/
theorem valueText_items {items : List (Json × Json)}
    (h : ∀ p ∈ items, ValueText depth (chars p.1) p.2) :
    ValueText (depth + 1) (chars (.array (items.map Prod.fst))) (.array (items.map Prod.snd)) := by
  have htext := @ValueText.array depth [] (items.map fun p => ⟨[], chars p.1, [], p.2⟩) nofun
    (List.forall_mem_map.2 fun p _ => ⟨nofun, nofun⟩)
    (List.forall_mem_map.2 fun p hp => h p hp)
  rw [chars, itemChars_eq]
  simpa only [List.map_map, Function.comp_def, Slot.chars, List.nil_append,
    List.append_nil] using htext

end TelemetryRelay.Json
