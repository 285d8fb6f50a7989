import TelemetryRelay.Json.Reader
import TelemetryRelay.Proofs.Json.Grammar

/-!
# Skipping

What no one asks for is skipped. It is enough to compare with the reader of whole values: where that
one takes a value off the start of a text, the other skips as much.

* `skipString_of_readString`: strings.
* `skipsFor`: values, items and fields, by induction on the steps.
* `skipValue_complete`: **what the grammar writes is skipped.**
-/

namespace TelemetryRelay.Json

variable {fuel depth : Nat} {cs rest : List Char}

theorem skipString_append {c : Char} (h : CharText cs c) (rest : List Char) :
    skipString (cs ++ rest) = skipString rest := by
  have hunit : ∀ {a b c d : Char} {n : Nat} (more : List Char), UnitText [a, b, c, d] n →
      skipString ('\\' :: 'u' :: a :: b :: c :: d :: more) = skipString more := by
    intro a b c d n more hn
    have hread := readUnit_complete hn []
    rw [List.append_nil] at hread
    rw [skipString, hread]
    rfl
  cases h with
  | plain hquote hback hcontrol =>
    have hplain : ¬(c = '\\' ∨ c.toNat < 0x20) := not_or.2 ⟨hback, by omega⟩
    rw [List.singleton_append, skipString, if_neg hplain]
    · exact hquote
    · intro a b c d more heq
      exact absurd heq hback
    · intro c more heq
      exact absurd heq hback
  | @short c' _ h =>
    have hu : c' ≠ 'u' := by
      rintro rfl
      cases h
    rw [List.cons_append, List.singleton_append, skipString, h]
    · rfl
    · intro a b c d more heq
      exact absurd heq hu
  | unit h _ _ =>
    cases h with
    | digits ha hb hc hd => exact hunit rest (.digits ha hb hc hd)
  | pair h h' _ _ =>
    cases h with
    | digits ha hb hc hd =>
      cases h' with
      | digits ha' hb' hc' hd' =>
        exact (hunit _ (.digits ha hb hc hd)).trans (hunit rest (.digits ha' hb' hc' hd'))

/-- A string that is read is skipped. -/
theorem skipString_of_readString {s : String} (h : readString cs = some (s, rest)) :
    skipString cs = some rest := by
  obtain ⟨text, body, rfl, hbody, -⟩ := readString_sound h
  clear h
  induction hbody with
  | nil => rfl
  | cons hchar _ ih => rw [List.append_assoc, skipString_append hchar, ih]

/-- What is read is skipped with as many steps. -/
def SkipsFor (fuel : Nat) : Prop :=
  (∀ depth cs j rest, readValue fuel depth cs = some (j, rest) → skipValue fuel cs = some rest) ∧
  (∀ depth cs items rest, readItems fuel depth cs = some (items, rest) →
    skipItems fuel cs = some rest) ∧
  ∀ depth cs fields rest, readFields fuel depth cs = some (fields, rest) →
    skipFields fuel cs = some rest

/-- A value that is skipped may have blanks before it. -/
theorem skipValue_skipSpace (fuel : Nat) (cs : List Char) :
    skipValue fuel (skipSpace cs) = skipValue fuel cs := by
  cases fuel with
  | zero => rfl
  | succ fuel => rw [skipValue, skipValue, skipSpace_skipSpace]

/-- Between its brackets, an array is skipped item by item. -/
theorem skipValue_array (h : skipSpace cs = ']' :: rest ∨
    (∀ more, skipSpace cs ≠ ']' :: more) ∧ skipItems fuel (skipSpace cs) = some rest) :
    skipValue (fuel + 1) ('[' :: cs) = some rest := by
  generalize hcs : skipSpace cs = inner at h
  simp only [skipValue, skipSpace_cons (show isSpace '[' = false from rfl), hcs]
  rcases h with rfl | ⟨hopen, hitems⟩
  · rfl
  · split
    · next more => exact absurd rfl (hopen more)
    · exact hitems

/-- Between its braces, an object is skipped field by field. -/
theorem skipValue_object (h : skipSpace cs = '}' :: rest ∨
    (∀ more, skipSpace cs ≠ '}' :: more) ∧ skipFields fuel (skipSpace cs) = some rest) :
    skipValue (fuel + 1) ('{' :: cs) = some rest := by
  generalize hcs : skipSpace cs = inner at h
  simp only [skipValue, skipSpace_cons (show isSpace '{' = false from rfl), hcs]
  rcases h with rfl | ⟨hopen, hfields⟩
  · rfl
  · split
    · next more => exact absurd rfl (hopen more)
    · exact hfields

theorem skipValue_of_readValue (ih : SkipsFor fuel) {j : Json}
    (h : readValue (fuel + 1) depth cs = some (j, rest)) :
    skipValue (fuel + 1) cs = some rest := by
  rw [readValue] at h
  rw [← skipValue_skipSpace]
  split at h
  case h_1 more hmore =>
    obtain ⟨_, hr, heq⟩ := Option.map_eq_some_iff.1 h
    cases heq
    rw [hmore]
    exact hr
  case h_2 more hmore =>
    obtain ⟨_, hr, heq⟩ := Option.map_eq_some_iff.1 h
    cases heq
    rw [hmore]
    exact hr
  case h_3 more hmore =>
    obtain ⟨_, hr, heq⟩ := Option.map_eq_some_iff.1 h
    cases heq
    rw [hmore]
    exact hr
  case h_4 more hmore =>
    obtain ⟨⟨s, _⟩, hr, heq⟩ := Option.map_eq_some_iff.1 h
    cases heq
    rw [hmore]
    exact skipString_of_readString hr
  case h_5 more hmore =>
    rw [hmore]
    split at h
    case h_1 => cases h
    split at h
    case h_1 last hlast =>
      cases h
      exact skipValue_array (.inl hlast)
    case h_2 hopen =>
      obtain ⟨⟨items, _⟩, hr, heq⟩ := Option.map_eq_some_iff.1 h
      cases heq
      exact skipValue_array (.inr ⟨hopen, ih.2.1 _ _ _ _ hr⟩)
  case h_6 more hmore =>
    rw [hmore]
    split at h
    case h_1 => cases h
    split at h
    case h_1 last hlast =>
      cases h
      exact skipValue_object (.inl hlast)
    case h_2 hopen =>
      obtain ⟨⟨fields, _⟩, hr, heq⟩ := Option.map_eq_some_iff.1 h
      cases heq
      exact skipValue_object (.inr ⟨hopen, ih.2.2 _ _ _ _ hr⟩)
  case h_7 hn ht hf hquote hbracket hbrace =>
    -- no word, string or container begins here for the one that skips, either
    obtain ⟨⟨n, _⟩, hr, heq⟩ := Option.map_eq_some_iff.1 h
    cases heq
    obtain ⟨⟨l, _⟩, hl, hr⟩ := Option.bind_eq_some_iff.1 hr
    obtain ⟨_, -, hr⟩ := Option.bind_eq_some_iff.1 hr
    cases hr
    rw [skipValue, skipSpace_skipSpace]
    split
    case h_1 heq => exact absurd heq (hn _)
    case h_2 heq => exact absurd heq (ht _)
    case h_3 heq => exact absurd heq (hf _)
    case h_4 heq => exact absurd heq (hquote _)
    case h_5 heq => exact absurd heq (hbracket _)
    case h_6 heq => exact absurd heq (hbrace _)
    case h_7 => exact Option.map_eq_some_iff.2 ⟨_, hl, rfl⟩

theorem skipItems_of_readItems (ih : SkipsFor fuel) {items : List Json}
    (h : readItems (fuel + 1) depth cs = some (items, rest)) :
    skipItems (fuel + 1) cs = some rest := by
  obtain ⟨⟨item, more⟩, hitem, h⟩ := Option.bind_eq_some_iff.1 h
  rw [skipItems, ih.1 _ _ _ _ hitem]
  dsimp only at h
  split at h
  case h_1 last hlast =>
    cases h
    simp [hlast]
  case h_2 next hnext =>
    obtain ⟨⟨tail, _⟩, htail, h⟩ := Option.bind_eq_some_iff.1 h
    cases h
    simpa [hnext] using ih.2.1 _ _ _ _ htail
  case h_3 => cases h

theorem skipFields_of_readFields (ih : SkipsFor fuel) {fields : List (String × Json)}
    (h : readFields (fuel + 1) depth cs = some (fields, rest)) :
    skipFields (fuel + 1) cs = some rest := by
  rw [readFields] at h
  split at h
  case h_2 => cases h
  case h_1 afterQuote hquote =>
  obtain ⟨⟨key, afterKey⟩, hkey, h⟩ := Option.bind_eq_some_iff.1 h
  dsimp only at h
  split at h
  case h_2 => cases h
  case h_1 afterColon hcolon =>
  obtain ⟨⟨value, more⟩, hvalue, h⟩ := Option.bind_eq_some_iff.1 h
  have hskipKey := skipString_of_readString hkey
  have hskipValue := ih.1 _ _ _ _ hvalue
  dsimp only at h
  split at h
  case h_1 last hlast =>
    cases h
    simp [skipFields, hquote, hskipKey, hcolon, hskipValue, hlast]
  case h_2 next hnext =>
    obtain ⟨⟨tail, _⟩, htail, h⟩ := Option.bind_eq_some_iff.1 h
    cases h
    simpa [skipFields, hquote, hskipKey, hcolon, hskipValue, hnext] using ih.2.2 _ _ _ _ htail
  case h_3 => cases h

theorem skipsFor (fuel : Nat) : SkipsFor fuel := by
  induction fuel with
  | zero => refine ⟨?_, ?_, ?_⟩ <;> (intro _ _ _ _ h; cases h)
  | succ fuel ih =>
    exact ⟨fun _ _ _ _ => skipValue_of_readValue ih, fun _ _ _ _ => skipItems_of_readItems ih,
      fun _ _ _ _ => skipFields_of_readFields ih⟩

/-- **What the grammar writes is skipped.** -/
theorem skipValue_complete {text before : List Char} {j : Json} (h : ValueText depth text j)
    (hbefore : Blank before) (hr : Ends rest) (hfuel : 2 * text.length ≤ fuel) :
    skipValue fuel (before ++ (text ++ rest)) = some rest :=
  (skipsFor fuel).1 _ _ _ _ (readValue_complete h hbefore hr hfuel)

end TelemetryRelay.Json
