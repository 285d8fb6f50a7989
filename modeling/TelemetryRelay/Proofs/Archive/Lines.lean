import TelemetryRelay.Configuration.Validate
import TelemetryRelay.Proofs.Archive.Escaping
import TelemetryRelay.Proofs.Decimal.Digits
import TelemetryRelay.Proofs.Dictionary.Registered
import TelemetryRelay.Proofs.Frame.Timestamp
import TelemetryRelay.Proofs.Text.Pieces

/-!
# Lines read back

A line carries the key of a dictionary and the name of a measurement. Escaping makes their commas,
spaces and equals signs literal; it does nothing for a newline, which ends the line, nor for a
backslash at the end, which would make literal the character that ends the part.

* `read?_line`: the line of a key and a name that are `Carriable` reads back as it was written.
* `carriable_of_read?`: no text at all reads as a key or a tag that is not.
* `read?_line_iff`: **a line reads back exactly if its key and its name are carriable.**
* `trailing_backslash_lost`: names are not checked for it when they are registered.
-/

namespace TelemetryRelay.LineProtocol

open Decimal (isNumberChar IsInt64 messageText)

variable {separates special : Char → Bool} {behind : Bool} {c : Char} {cs : List Char}
  {key name text : String} {time : Int} {value : Float}

/-- A text that a line can carry: no newline is in it, and no backslash at its end. -/
def Carriable (s : String) : Prop := '\n' ∉ s.toList ∧ s.toList.getLast? ≠ some '\\'

instance (s : String) : Decidable (Carriable s) := inferInstanceAs (Decidable (_ ∧ _))

theorem Carriable.endsBehind (h : Carriable key) : endsBehind false key.toList = false :=
  endsBehind_eq_false_iff.2 h.2

/-! ### The characters of a line -/

/-- Numbers are written with characters that end nothing. -/
theorem endsTag_of_isNumberChar (h : isNumberChar c = true) : endsTag c = false := by
  rw [Bool.eq_false_iff]
  intro hc
  simp only [endsTag, Bool.or_eq_true, beq_iff_eq] at hc
  rcases hc with (rfl | rfl) | rfl <;> exact absurd h (by decide)

theorem any_endsTag_of_isNumberChar (h : ∀ c ∈ cs, isNumberChar c = true) :
    cs.any endsTag = false := by
  refine List.any_eq_false.2 fun c hc hends => ?_
  rw [endsTag_of_isNumberChar (h c hc)] at hends
  cases hends

theorem endsBehind_of_isNumberChar (h : ∀ c ∈ cs, isNumberChar c = true) :
    endsBehind false cs = false := by
  rw [endsBehind_eq_false_iff]
  intro hlast
  exact absurd (h _ (List.mem_of_getLast? hlast)) (by decide)

/-- The tag of a line. -/
def tagChars (name : String) : List Char :=
  "measurement".toList ++ '=' :: escape endsTag name.toList

/-- The field of a line. -/
def fieldChars (value : Float) : List Char :=
  "value".toList ++ '=' :: Decimal.messageStyle.chars value

/-- The key and the tag of a line. -/
def seriesChars (key name : String) : List Char :=
  escape endsKey key.toList ++ ',' :: tagChars name

theorem chars_eq : chars key name time value =
    seriesChars key name ++ ' ' :: (fieldChars value ++ ' ' :: Decimal.ofInt time) := by
  have hsep : ",measurement=".toList = ',' :: ("measurement".toList ++ ['=']) := rfl
  have hfield : " value=".toList = ' ' :: ("value".toList ++ ['=']) := rfl
  unfold chars seriesChars tagChars fieldChars
  rw [hsep, hfield]
  simp only [List.append_assoc, List.cons_append, List.nil_append]

/-! ### Reading what was written -/

section Whole

variable (hs : ∀ c, separates c = true → endsTag c = true)
include hs

theorem whole_of_any (h : cs.any endsTag = false) : Whole separates behind cs := by
  refine whole_of_forall fun c hc => Bool.eq_false_iff.2 fun hsep => ?_
  exact List.any_eq_false.1 h c hc (hs c hsep)

/-- The tag is cut at its equals sign only. -/
theorem whole_tagChars (heq : separates '=' = false) : Whole separates behind (tagChars name) := by
  have hname : Whole separates behind "measurement".toList := whole_of_any hs rfl
  refine whole_append.2 ⟨hname, fun h => ?_, whole_escape hs rfl _⟩
  rw [heq] at h
  cases h

/-- So is the field. -/
theorem whole_fieldChars (heq : separates '=' = false) :
    Whole separates behind (fieldChars value) := by
  have hname : Whole separates behind "value".toList := whole_of_any hs rfl
  have hvalue : (Decimal.messageStyle.chars value).any endsTag = false :=
    any_endsTag_of_isNumberChar (Decimal.isNumberChar_of_mem_chars _ _)
  refine whole_append.2 ⟨hname, fun h => ?_, whole_of_any hs hvalue⟩
  rw [heq] at h
  cases h

end Whole

theorem readPair?_tagChars (name : String) :
    readPair? (tagChars name) = some ("measurement", name) := by
  have hname : Whole (· == '=') false "measurement".toList :=
    whole_of_any (special_of_beq rfl) rfl
  have hvalue : Whole (· == '=') false (escape endsTag name.toList) :=
    whole_escape (special_of_beq rfl) rfl _
  have hcut : cut (· == '=') (tagChars name) =
      ["measurement".toList, escape endsTag name.toList] :=
    cutFrom_eq_iff.2 (.next hname rfl rfl (.last hvalue))
  have hback : unescape endsTag (escape endsTag name.toList) = name.toList := unescape_escape rfl _
  unfold readPair?
  rw [hcut]
  simp only [hback, String.ofList_toList]
  rfl

theorem readPair?_fieldChars (value : Float) :
    readPair? (fieldChars value) = some ("value", messageText value) := by
  have hnumber := Decimal.isNumberChar_of_mem_chars Decimal.messageStyle value
  have hname : Whole (· == '=') false "value".toList :=
    whole_of_any (special_of_beq rfl) rfl
  have hvalue : Whole (· == '=') false (Decimal.messageStyle.chars value) :=
    whole_of_any (special_of_beq rfl) (any_endsTag_of_isNumberChar hnumber)
  have hcut : cut (· == '=') (fieldChars value) =
      ["value".toList, Decimal.messageStyle.chars value] :=
    cutFrom_eq_iff.2 (.next hname rfl rfl (.last hvalue))
  unfold readPair?
  rw [hcut]
  simp only [unescape_of_forall fun c hc => endsTag_of_isNumberChar (hnumber c hc)]
  rfl

theorem endsBehind_seriesChars (hn : Carriable name) :
    endsBehind behind (seriesChars key name) = false := by
  unfold seriesChars tagChars
  rw [endsBehind_append, endsBehind_cons, endsBehind_append, endsBehind_cons, endsBehind_escape]
  exact hn.endsBehind

theorem endsBehind_fieldChars : endsBehind behind (fieldChars value) = false := by
  unfold fieldChars
  rw [endsBehind_append, endsBehind_cons]
  exact endsBehind_of_isNumberChar (Decimal.isNumberChar_of_mem_chars _ _)

/-- The key ends at the comma before the tag, since no backslash stands at its end. -/
theorem readSeries?_seriesChars (hk : Carriable key) :
    readSeries? (seriesChars key name) = some (key, [("measurement", name)]) := by
  have hkey : Whole (· == ',') false (escape endsKey key.toList) :=
    whole_escape (special_of_beq rfl) rfl _
  have hfree : endsBehind false (escape endsKey key.toList) = false := by
    rw [endsBehind_escape, hk.endsBehind]
  have htag : Whole (· == ',') false (tagChars name) :=
    whole_tagChars (special_of_beq rfl) rfl
  have hcut : cut (· == ',') (seriesChars key name) =
      [escape endsKey key.toList, tagChars name] :=
    cutFrom_eq_iff.2 (.next hkey hfree rfl (.last htag))
  have hback : unescape endsKey (escape endsKey key.toList) = key.toList := unescape_escape rfl _
  unfold readSeries?
  rw [hcut]
  simp only [List.mapM_cons, List.mapM_nil, readPair?_tagChars, hback, String.ofList_toList]
  rfl

theorem readEntry?_chars (hk : Carriable key) (hn : Carriable name) (ht : IsInt64 time) :
    readEntry? (chars key name time value) =
      some ⟨key, [("measurement", name)], [("value", messageText value)], time⟩ := by
  have hseries : Whole (· == ' ') false (seriesChars key name) :=
    whole_append.2 ⟨whole_escape (special_of_beq rfl) rfl _, nofun,
      whole_tagChars (special_of_beq rfl) rfl⟩
  have hfield : Whole (· == ' ') false (fieldChars value) :=
    whole_fieldChars (special_of_beq rfl) rfl
  have htime : Whole (· == ' ') false (Decimal.ofInt time) :=
    whole_of_any (special_of_beq rfl)
      (any_endsTag_of_isNumberChar (Decimal.isNumberChar_of_mem_ofInt _))
  have hcut : cut (· == ' ') (chars key name time value) =
      [seriesChars key name, fieldChars value, Decimal.ofInt time] := by
    rw [chars_eq]
    exact cutFrom_eq_iff.2 (.next hseries (endsBehind_seriesChars hn) rfl
      (.next hfield endsBehind_fieldChars rfl (.last htime)))
  have hfields : cut (· == ',') (fieldChars value) = [fieldChars value] :=
    cutFrom_eq_iff.2 (.last (whole_fieldChars (special_of_beq rfl) rfl))
  have hparse : Decimal.parseInt64 (String.ofList (Decimal.ofInt time)) = .ok time :=
    Decimal.parseInteger_ofInt ht.1 ht.2
  unfold readEntry?
  rw [hcut]
  simp only [readSeries?_seriesChars hk, hfields, List.mapM_cons, List.mapM_nil,
    readPair?_fieldChars, hparse]
  rfl

theorem newline_not_mem_of_isNumberChar (h : ∀ c ∈ cs, isNumberChar c = true) : '\n' ∉ cs :=
  fun hc => absurd (h _ hc) (by decide)

/-- Escaping adds no newline. -/
theorem Carriable.newline_not_mem (h : Carriable name) (special : Char → Bool) :
    '\n' ∉ escape special name.toList := by
  intro hc
  rcases mem_escape hc with hc | hc
  · exact absurd hc (by decide)
  · exact h.1 hc

theorem newline_not_mem_tagChars (hn : Carriable name) : '\n' ∉ tagChars name := by
  have hname : '\n' ∉ "measurement".toList := by decide
  unfold tagChars
  simp only [List.mem_append, List.mem_cons, not_or]
  exact ⟨hname, by decide, hn.newline_not_mem endsTag⟩

theorem newline_not_mem_fieldChars : '\n' ∉ fieldChars value := by
  have hname : '\n' ∉ "value".toList := by decide
  unfold fieldChars
  simp only [List.mem_append, List.mem_cons, not_or]
  exact ⟨hname, by decide,
    newline_not_mem_of_isNumberChar (Decimal.isNumberChar_of_mem_chars _ _)⟩

/-- A line is one line, if its key and its name are. -/
theorem newline_not_mem_chars (hk : Carriable key) (hn : Carriable name) :
    '\n' ∉ chars key name time value := by
  rw [chars_eq]
  unfold seriesChars
  simp only [List.mem_append, List.mem_cons, not_or]
  exact ⟨⟨hk.newline_not_mem endsKey, by decide, newline_not_mem_tagChars hn⟩, by decide,
    newline_not_mem_fieldChars, by decide,
    newline_not_mem_of_isNumberChar (Decimal.isNumberChar_of_mem_ofInt _)⟩

/-- **The line of a carriable key and a carriable name reads back.** -/
theorem read?_line (hk : Carriable key) (hn : Carriable name) (ht : IsInt64 time) :
    read? (line key name time value) =
      some [⟨key, [("measurement", name)], [("value", messageText value)], time⟩] := by
  have hone : (chars key name time value).splitOn '\n' = [chars key name time value] :=
    List.splitOn_eq_singleton (newline_not_mem_chars hk hn)
  have hfull : (chars key name time value).isEmpty = false := by
    rw [chars_eq]
    simp
  unfold read? line
  rw [String.toList_ofList, hone]
  simp only [List.filter_cons, hfull, Bool.not_false, if_true, List.filter_nil, List.mapM_cons,
    List.mapM_nil, readEntry?_chars hk hn ht]
  rfl

/-! ### What can be read at all -/

/-- What a part without newlines says, if it does not end in a backslash. -/
theorem carriable_unescape (special : Char → Bool) (hline : '\n' ∉ cs)
    (he : endsBehind false cs = false) : Carriable (String.ofList (unescape special cs)) := by
  unfold Carriable
  rw [String.toList_ofList, ← endsBehind_eq_false_iff, endsBehind_unescape]
  exact ⟨fun hc => hline (mem_unescape hc), he⟩

theorem carriable_of_readPair? {p : String × String} (hline : '\n' ∉ cs)
    (he : endsBehind false cs = false) (h : readPair? cs = some p) :
    Carriable p.1 ∧ Carriable p.2 := by
  unfold readPair? at h
  split at h
  case h_2 => cases h
  case h_1 a b hcut =>
    cases h
    have hparts := cutFrom_eq_iff.1 hcut
    have hends := hparts.endsBehind rfl he
    have hlines : ∀ part ∈ [a, b], '\n' ∉ part := fun part hp hc => hline (hparts.mem part hp _ hc)
    exact ⟨carriable_unescape _ (hlines a (by simp)) (hends a (by simp)),
      carriable_unescape _ (hlines b (by simp)) (hends b (by simp))⟩

theorem carriable_of_readSeries? {series : String × List (String × String)} (hline : '\n' ∉ cs)
    (he : endsBehind false cs = false) (h : readSeries? cs = some series) :
    Carriable series.1 ∧ ∀ p ∈ series.2, Carriable p.1 ∧ Carriable p.2 := by
  unfold readSeries? at h
  split at h
  case h_2 => cases h
  case h_1 key tags hcut =>
    obtain ⟨pairs, hpairs, rfl⟩ := Option.map_eq_some_iff.1 h
    have hparts := cutFrom_eq_iff.1 hcut
    have hends := hparts.endsBehind rfl he
    have hlines : ∀ part ∈ key :: tags, '\n' ∉ part :=
      fun part hp hc => hline (hparts.mem part hp _ hc)
    refine ⟨carriable_unescape _ (hlines key List.mem_cons_self) (hends key List.mem_cons_self),
      fun p hp => ?_⟩
    obtain ⟨tag, htag, hread⟩ := exists_of_mapM hpairs p hp
    have htag := List.mem_cons_of_mem key htag
    exact carriable_of_readPair? (hlines tag htag) (hends tag htag) hread

/-- The key and the tags of an entry are carriable: they are followed by a space that separates. -/
theorem carriable_of_readEntry? {e : Entry} (hline : '\n' ∉ cs) (h : readEntry? cs = some e) :
    Carriable e.key ∧ ∀ p ∈ e.tags, Carriable p.1 ∧ Carriable p.2 := by
  unfold readEntry? at h
  split at h
  case h_2 => cases h
  case h_1 series fields time hcut =>
    obtain ⟨⟨key, tags⟩, hseries, h⟩ := Option.bind_eq_some_iff.1 h
    obtain ⟨fields, -, h⟩ := Option.bind_eq_some_iff.1 h
    obtain ⟨time, -, h⟩ := Option.bind_eq_some_iff.1 h
    cases h
    have hparts := cutFrom_eq_iff.1 hcut
    have hlines : '\n' ∉ series := fun hc => hline (hparts.mem series List.mem_cons_self _ hc)
    exact carriable_of_readSeries? hlines hparts.free hseries

/-- **Whatever a text says, its keys and its tags are carriable.** -/
theorem carriable_of_read? {es : List Entry} (h : read? text = some es) :
    ∀ e ∈ es, Carriable e.key ∧ ∀ p ∈ e.tags, Carriable p.1 ∧ Carriable p.2 := by
  intro e he
  obtain ⟨cs, hcs, hread⟩ := exists_of_mapM h e he
  exact carriable_of_readEntry? (not_mem_of_mem_splitOn (List.mem_filter.1 hcs).1) hread

/-- **What comes back.** A line reads back as the key, the name, the value as it is printed and the
time exactly if its key and its name are carriable; where they are not, no text at all says them. -/
theorem read?_line_iff (ht : IsInt64 time) (key name : String) (value : Float) :
    (read? (line key name time value) =
        some [⟨key, [("measurement", name)], [("value", messageText value)], time⟩] ↔
      Carriable key ∧ Carriable name) ∧
    ∀ text es, read? text = some es → ∀ e ∈ es, ∀ tag, e.key = key → (tag, name) ∈ e.tags →
      Carriable key ∧ Carriable name := by
  refine ⟨⟨fun h => ?_, fun ⟨hk, hn⟩ => read?_line hk hn ht⟩, ?_⟩
  · -- the line is a text like any other
    obtain ⟨hk, htags⟩ := carriable_of_read? h _ List.mem_cons_self
    exact ⟨hk, (htags _ List.mem_cons_self).2⟩
  · rintro text es h e he tag rfl htag
    obtain ⟨hk, htags⟩ := carriable_of_read? h e he
    exact ⟨hk, (htags _ htag).2⟩

/-- A line whose parts hold every character that is escaped. -/
theorem read?_line_escaped :
    read? (line "void, av" "gps fix,raw\\=1" (-5) 12000) =
      some [⟨"void, av", [("measurement", "gps fix,raw\\=1")],
        [("value", messageText 12000)], -5⟩] :=
  (read?_line_iff ⟨by decide, by decide⟩ _ _ _).1.2 (by decide)

end TelemetryRelay.LineProtocol

namespace TelemetryRelay

open Decimal (IsInt64 messageText isFinite)

/-- The level of what is in the bay. -/
def Measurement.level : Measurement := ⟨"level\\", "bay/level", [⟨"m", .integer, some 0, some 9⟩]⟩

/-- A dictionary with a measurement whose name ends in a backslash. -/
def Dictionary.bay : Dictionary := (empty "Bay" "bay").push .level rfl rfl

theorem Dictionary.bay_registered : bay.Registered :=
  .add (m := .level) (.empty "Bay" "bay") (by
    rintro s (_ | ⟨_, hs⟩)
    · rfl
    · cases hs) rfl

/-- **A name that ends in a backslash is lost**, though it is registered in a dictionary of an
accepted configuration: the line is not one of that name. -/
theorem LineProtocol.trailing_backslash_lost : ¬ ∀ (config : ServerConfig) (d : Dictionary)
    (m : Measurement) (time : Int) (value : Float), config.validate = .ok () →
      d ∈ config.dictionaries → d.Registered → m ∈ d.measurements → IsInt64 time →
      isFinite value = true → LineProtocol.read? (line d.key m.name time value) =
        some [⟨d.key, [("measurement", m.name)], [("value", messageText value)], time⟩] := by
  intro h
  have hread := h { dictionaries := [.bay] } .bay .level 5 0 rfl List.mem_cons_self
    Dictionary.bay_registered List.mem_cons_self ⟨by decide, by decide⟩ rfl
  obtain ⟨-, htags⟩ := carriable_of_read? hread _ List.mem_cons_self
  exact absurd (htags _ List.mem_cons_self).2 (by decide)

end TelemetryRelay
