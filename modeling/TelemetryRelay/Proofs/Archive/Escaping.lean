import TelemetryRelay.Archive.LineProtocol

/-!
# Escaping and cutting

A text that has been escaped holds no character that separates parts without a backslash before it,
so a text that is put together of such parts comes apart at the places where they meet. Only the end
of a part is in danger: a backslash there makes the next character literal.

* `Cut`, `cutFrom_eq_iff`: what `cutFrom` does, as a relation.
* `whole_escape`, `unescape_escape`: an escaped text is not cut and gives the text back.
* `Cut.endsBehind`, `endsBehind_unescape`: no part that is read ends in a backslash, unless the
  whole does.
-/

namespace TelemetryRelay.LineProtocol

variable {separates special : Char → Bool} {behind : Bool} {c : Char} {cs ds : List Char}
  {parts : List (List Char)}

/-! ### Ends -/

/-- Whether a backslash stands right before what follows a text; `behind` says whether one stands
right before the text. -/
def endsBehind (behind : Bool) (cs : List Char) : Bool := cs.foldl (fun _ c => c == '\\') behind

theorem endsBehind_cons (c : Char) (cs : List Char) :
    endsBehind behind (c :: cs) = endsBehind (c == '\\') cs := rfl

theorem endsBehind_append (cs ds : List Char) :
    endsBehind behind (cs ++ ds) = endsBehind (endsBehind behind cs) ds := List.foldl_append

/-- What stands before a text matters only if the text is empty. -/
theorem endsBehind_false (h : endsBehind behind cs = false) : endsBehind false cs = false := by
  cases cs with
  | nil => rfl
  | cons c rest => exact h

theorem endsBehind_eq_false_iff : endsBehind false cs = false ↔ cs.getLast? ≠ some '\\' := by
  rcases List.eq_nil_or_concat cs with rfl | ⟨front, c, rfl⟩
  · exact ⟨fun _ => nofun, fun _ => rfl⟩
  · rw [List.concat_eq_append, endsBehind_append, List.getLast?_concat, ne_eq, Option.some_inj]
    exact beq_eq_false_iff_ne

/-! ### Cutting -/

/-- Every separating character of a text has a backslash right before it. -/
def Whole (separates : Char → Bool) : Bool → List Char → Prop
  | _, [] => True
  | behind, c :: rest => (separates c = true → behind = true) ∧ Whole separates (c == '\\') rest

theorem whole_append : Whole separates behind (cs ++ ds) ↔
    Whole separates behind cs ∧ Whole separates (endsBehind behind cs) ds := by
  induction cs generalizing behind with
  | nil => exact (and_iff_right trivial).symm
  | cons c rest ih => rw [List.cons_append, Whole, Whole, ih, and_assoc, endsBehind_cons]

/-- A text without separating characters. -/
theorem whole_of_forall (h : ∀ c ∈ cs, separates c = false) : Whole separates behind cs := by
  induction cs generalizing behind with
  | nil => trivial
  | cons c rest ih =>
    obtain ⟨hc, hrest⟩ := List.forall_mem_cons.1 h
    exact ⟨fun hs => absurd hs (by rw [hc]; exact Bool.false_ne_true), ih hrest⟩

/-- **The parts of a text**: the first ends at the first separating character that has no backslash
before it, and the others are the parts of what follows. -/
inductive Cut (separates : Char → Bool) : Bool → List Char → List (List Char) → Prop
  | last {behind : Bool} {cs : List Char} (whole : Whole separates behind cs) :
    Cut separates behind cs [cs]
  | next {behind : Bool} {part rest : List Char} {c : Char} {parts : List (List Char)}
    (whole : Whole separates behind part) (free : endsBehind behind part = false)
    (separating : separates c = true) (others : Cut separates false rest parts) :
    Cut separates behind (part ++ c :: rest) (part :: parts)

theorem cut_cutFrom (separates : Char → Bool) (behind : Bool) (cs : List Char) :
    Cut separates behind cs (cutFrom separates behind cs) := by
  induction cs generalizing behind with
  | nil => exact .last trivial
  | cons c rest ih =>
    rw [cutFrom]
    split
    case isTrue h =>
      obtain ⟨hc, hb⟩ := Bool.and_eq_true_iff.1 h
      obtain rfl : behind = false := by simpa using hb
      have hcut : Cut separates false ([] ++ c :: rest) ([] :: _) := .next trivial rfl hc (ih false)
      exact hcut
    case isFalse h =>
      have hc : separates c = true → behind = true := by simpa using h
      -- the character goes in front of the first part of the rest
      have hrest := ih (c == '\\')
      generalize cutFrom separates (c == '\\') rest = parts at hrest
      cases hrest with
      | last whole => exact .last ⟨hc, whole⟩
      | @next _ part more d parts whole free separating others =>
        have hpart : Whole separates behind (c :: part) := ⟨hc, whole⟩
        exact .next hpart free separating others

theorem Whole.cutFrom_eq (h : Whole separates behind cs) : cutFrom separates behind cs = [cs] := by
  induction cs generalizing behind with
  | nil => rfl
  | cons c rest ih =>
    have hno : ¬ (separates c && !behind) = true := by simpa using h.1
    rw [cutFrom, if_neg hno, ih h.2]
    rfl

theorem Whole.cutFrom_append (h : Whole separates behind cs) (hb : endsBehind behind cs = false)
    (hc : separates c = true) :
    cutFrom separates behind (cs ++ c :: ds) = cs :: cutFrom separates false ds := by
  induction cs generalizing behind with
  | nil =>
    obtain rfl : behind = false := hb
    rw [List.nil_append, cutFrom, hc]
    rfl
  | cons d rest ih =>
    have hno : ¬ (separates d && !behind) = true := by simpa using h.1
    rw [List.cons_append, cutFrom, if_neg hno, ih h.2 hb]
    rfl

/-- **Cutting gives the parts of a text**, and nothing else is the parts of it. -/
theorem cutFrom_eq_iff : cutFrom separates behind cs = parts ↔ Cut separates behind cs parts := by
  constructor
  · rintro rfl
    exact cut_cutFrom separates behind cs
  · intro h
    induction h with
    | last whole => exact whole.cutFrom_eq
    | next whole free separating others ih => rw [whole.cutFrom_append free separating, ih]

/-- Every part is made of characters of the text. -/
theorem Cut.mem (h : Cut separates behind cs parts) : ∀ part ∈ parts, ∀ c ∈ part, c ∈ cs := by
  induction h with
  | last => exact fun part hp c hc => List.mem_singleton.1 hp ▸ hc
  | next whole free separating others ih =>
    refine List.forall_mem_cons.2 ⟨fun c hc => List.mem_append_left _ hc, fun part hp c hc => ?_⟩
    exact List.mem_append_right _ (List.mem_cons_of_mem _ (ih part hp c hc))

/-- **No part ends in a backslash**, if the text does not. -/
theorem Cut.endsBehind (hs : separates '\\' = false) (h : Cut separates behind cs parts)
    (he : LineProtocol.endsBehind behind cs = false) :
    ∀ part ∈ parts, LineProtocol.endsBehind false part = false := by
  induction h with
  | last => exact fun part hp => List.mem_singleton.1 hp ▸ endsBehind_false he
  | @next behind part rest c parts whole free separating others ih =>
    -- what follows a separating character begins with no backslash before it
    have hc : (c == '\\') = false := beq_eq_false_iff_ne.2 fun hc => by
      rw [hc, hs] at separating
      cases separating
    rw [endsBehind_append, endsBehind_cons, hc] at he
    exact List.forall_mem_cons.2 ⟨endsBehind_false free, ih he⟩

/-- A part with another one after it does not end in a backslash. -/
theorem Cut.free {part next : List Char} (h : Cut separates behind cs (part :: next :: parts)) :
    LineProtocol.endsBehind false part = false := by
  cases h with
  | next whole free separating others => exact endsBehind_false free

/-! ### Escaping -/

theorem escape_cons (special : Char → Bool) (c : Char) (cs : List Char) : escape special (c :: cs) =
    if special c then '\\' :: c :: escape special cs else c :: escape special cs := by
  unfold escape
  rw [List.flatMap_cons]
  split <;> rfl

/-- One character that is special. -/
theorem special_of_beq {d : Char} (hd : special d = true) :
    ∀ c, (c == d) = true → special c = true := by
  intro c hc
  rw [beq_iff_eq.1 hc, hd]

/-- What may separate is escaped, so an escaped text is not cut. -/
theorem whole_escape (hs : ∀ c, separates c = true → special c = true) (hb : special '\\' = false)
    (cs : List Char) : Whole separates behind (escape special cs) := by
  have hsep : separates '\\' = true → False := fun h => by
    have := hs _ h
    rw [hb] at this
    cases this
  induction cs generalizing behind with
  | nil => trivial
  | cons c rest ih =>
    rw [escape_cons]
    split
    case isTrue => exact ⟨fun h => (hsep h).elim, fun _ => rfl, ih⟩
    case isFalse hc => exact ⟨fun h => absurd (hs c h) hc, ih⟩

/-- Escaping keeps the last character. -/
theorem endsBehind_escape (special : Char → Bool) (cs : List Char) :
    endsBehind behind (escape special cs) = endsBehind behind cs := by
  induction cs generalizing behind with
  | nil => rfl
  | cons c rest ih =>
    rw [escape_cons]
    split <;> simp only [endsBehind_cons, ih]

theorem mem_escape (h : c ∈ escape special cs) : c = '\\' ∨ c ∈ cs := by
  obtain ⟨d, hd, hc⟩ := List.mem_flatMap.1 h
  split at hc
  · rcases List.mem_cons.1 hc with rfl | hc
    · exact .inl rfl
    · exact .inr (List.mem_singleton.1 hc ▸ hd)
  · exact .inr (List.mem_singleton.1 hc ▸ hd)

/-- What is not special is read as it is. -/
theorem unescape_cons (h : ∀ d ∈ cs.head?, special d = false) :
    unescape special (c :: cs) = c :: unescape special cs := by
  by_cases hc : c = '\\'
  · subst hc
    cases cs with
    | nil => rfl
    | cons d rest =>
      have hd : special d = false := h d rfl
      rw [unescape, hd, if_neg Bool.false_ne_true]
  · rw [unescape]
    rintro d rest hcd
    exact absurd hcd hc

theorem special_head?_escape (hb : special '\\' = false) :
    ∀ d ∈ (escape special cs).head?, special d = false := by
  cases cs with
  | nil => exact nofun
  | cons c rest =>
    rw [escape_cons]
    split
    case isTrue => rintro d ⟨⟩; exact hb
    case isFalse hc => rintro d ⟨⟩; exact Bool.eq_false_iff.2 hc

/-- **An escaped text gives the text back.** -/
theorem unescape_escape (hb : special '\\' = false) (cs : List Char) :
    unescape special (escape special cs) = cs := by
  induction cs with
  | nil => rfl
  | cons c rest ih =>
    rw [escape_cons]
    split
    case isTrue hc => rw [unescape, if_pos hc, ih]
    case isFalse => rw [unescape_cons (special_head?_escape hb), ih]

/-- A text without special characters is read as it is. -/
theorem unescape_of_forall (h : ∀ c ∈ cs, special c = false) : unescape special cs = cs := by
  induction cs with
  | nil => rfl
  | cons c rest ih =>
    obtain ⟨-, hrest⟩ := List.forall_mem_cons.1 h
    rw [unescape_cons fun d hd => hrest d (List.mem_of_mem_head? hd), ih hrest]

theorem mem_unescape (h : c ∈ unescape special cs) : c ∈ cs := by
  induction cs using unescape.induct special with
  | case1 => exact h
  | case2 d rest hd ih =>
    rw [unescape, if_pos hd] at h
    rcases List.mem_cons.1 h with rfl | h
    · exact List.mem_cons_of_mem _ List.mem_cons_self
    · exact List.mem_cons_of_mem _ (List.mem_cons_of_mem _ (ih h))
  | case3 d rest hd ih =>
    rw [unescape, if_neg hd] at h
    rcases List.mem_cons.1 h with rfl | h
    · exact List.mem_cons_self
    · exact List.mem_cons_of_mem _ (ih h)
  | case4 d rest hd ih =>
    rw [unescape] at h
    · rcases List.mem_cons.1 h with rfl | h
      · exact List.mem_cons_self
      · exact List.mem_cons_of_mem _ (ih h)
    · exact hd

/-- Taking backslashes away keeps the last character. -/
theorem endsBehind_unescape (special : Char → Bool) (cs : List Char) :
    endsBehind behind (unescape special cs) = endsBehind behind cs := by
  induction cs using unescape.induct special generalizing behind with
  | case1 => rfl
  | case2 d rest hd ih =>
    rw [unescape, if_pos hd]
    simp only [endsBehind_cons, ih]
  | case3 d rest hd ih =>
    rw [unescape, if_neg hd]
    simp only [endsBehind_cons, ih]
  | case4 d rest hd ih =>
    rw [unescape]
    · simp only [endsBehind_cons, ih]
    · exact hd

end TelemetryRelay.LineProtocol
