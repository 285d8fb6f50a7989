import Mathlib.Data.List.TakeWhile
import Mathlib.Order.Lattice
import TelemetryRelay.Archive.QueryText
import TelemetryRelay.Proofs.Decimal.Digits

/-!
# Queries taken apart

A query is cut at its literals (`parts?`): a quote opens one, a backslash inside takes the next
character as it is, and the first quote of the same kind without one closes it. Keys and names are
any text; escaping keeps each of them inside its own literal.

* `escape_eq_doubled`: escaping is the same as doubling the backslashes and then marking the quotes.
* `readLiteral_escape`: an escaped text is read up to its closing quote, and gives the text.
* `history_parts`: **a query has one structure, whatever its key and name are**, and different
  requests have different queries.
-/

namespace TelemetryRelay.QueryText

open Decimal (intText isNumberChar)

variable {quote : Char} {before body cs rest : List Char} {key name key' name' : String}
  {window window' : Window}

/-- The characters that open no literal. -/
def isPlain (c : Char) : Bool := c != '"' && c != '\''

/-- A part of a query. -/
inductive Part where
  /-- What stands between literals. -/
  | plain (text : String)
  /-- What a literal stands for, and its quotes. -/
  | quoted (quote : Char) (text : String)
deriving DecidableEq, Repr

/-! ### Literals -/

/-- Puts a backslash before every character of one kind. -/
def marked (kind : Char) (cs : List Char) : List Char :=
  cs.flatMap fun c => if c = kind then ['\\', c] else [c]

/-- **Backslashes first, then quotes.** The backslashes that are put before quotes are not doubled,
and doubling makes no quote. -/
theorem escape_eq_doubled (h : quote ≠ '\\') (cs : List Char) :
    escape quote cs = marked quote (marked '\\' cs) := by
  have hback : ¬ '\\' = quote := fun hq => h hq.symm
  induction cs with
  | nil => rfl
  | cons c cs ih =>
    have hcons : escape quote (c :: cs) =
        (if c = quote ∨ c = '\\' then ['\\', c] else [c]) ++ escape quote cs := rfl
    have hmarked : marked quote (marked '\\' (c :: cs)) =
        marked quote (if c = '\\' then ['\\', c] else [c]) ++ marked quote (marked '\\' cs) := by
      simp only [marked, List.flatMap_cons, List.flatMap_append]
    rw [hcons, hmarked, ← ih]
    congr 1
    by_cases hc : c = '\\'
    · subst hc
      simp [marked, hback]
    · rw [if_neg hc]
      simp [marked, hc]

/-- A character that is neither the quote nor a backslash is read as itself. -/
theorem readLiteral_cons {c : Char} (hq : c ≠ quote) (hb : c ≠ '\\') (cs : List Char) :
    readLiteral quote (c :: cs) =
      (readLiteral quote cs).map fun (body, rest) => (c :: body, rest) := by
  rw [readLiteral.eq_3]
  · exact if_neg hq
  · intro d more hc
    exact absurd hc hb

/-- **An escaped text is read up to its closing quote.** -/
theorem readLiteral_escape (h : quote ≠ '\\') (cs rest : List Char) :
    readLiteral quote (escape quote cs ++ quote :: rest) = some (cs, rest) := by
  induction cs with
  | nil =>
    have hend : readLiteral quote (quote :: rest) = some ([], rest) := by
      rw [readLiteral.eq_3]
      · exact if_pos rfl
      · intro d more hc
        exact absurd hc h
    exact hend
  | cons c cs ih =>
    by_cases hc : c = quote ∨ c = '\\'
    · have htext : escape quote (c :: cs) ++ quote :: rest =
          '\\' :: c :: (escape quote cs ++ quote :: rest) := by
        simp [escape, hc]
      rw [htext, readLiteral, ih]
      rfl
    · have htext : escape quote (c :: cs) ++ quote :: rest =
          c :: (escape quote cs ++ quote :: rest) := by
        simp [escape, hc]
      rw [not_or] at hc
      rw [htext, readLiteral_cons hc.1 hc.2, ih]
      rfl

/-- What follows a literal is shorter than the text that begins with it. -/
theorem length_of_readLiteral (h : readLiteral quote cs = some (body, rest)) :
    rest.length < cs.length := by
  fun_induction readLiteral quote cs generalizing body with
  | case1 => cases h
  | case2 c more ih =>
    obtain ⟨found, hfound, hpair⟩ := Option.map_eq_some_iff.1 h
    have hmore := @ih found.1 (by rw [hfound, ← (Prod.mk.inj hpair).2])
    simp only [List.length_cons]
    omega
  | case3 =>
    cases h
    simp
  | case4 c more hno hquote ih =>
    obtain ⟨found, hfound, hpair⟩ := Option.map_eq_some_iff.1 h
    have hmore := @ih found.1 (by rw [hfound, ← (Prod.mk.inj hpair).2])
    simp only [List.length_cons]
    omega

/-! ### Queries -/

/-- **Cuts a text at its literals**; none if one is not closed. -/
def parts? (cs : List Char) : Option (List Part) :=
  let between := Part.plain (String.ofList (cs.takeWhile isPlain))
  match _hrest : cs.dropWhile isPlain with
  | [] => some [between]
  | quote :: more =>
    match _hread : readLiteral quote more with
    | none => none
    | some (body, rest) =>
      (parts? rest).map fun ps => between :: .quoted quote (String.ofList body) :: ps
termination_by cs.length
decreasing_by
  have hshort := length_of_readLiteral _hread
  have hdrop : (cs.dropWhile isPlain).length ≤ cs.length :=
    (List.dropWhile_sublist isPlain).length_le
  rw [_hrest, List.length_cons] at hdrop
  omega

theorem parts?_plain (h : ∀ c ∈ before, isPlain c = true) :
    parts? before = some [.plain (String.ofList before)] := by
  have hdrop : before.dropWhile isPlain = [] := List.dropWhile_eq_nil_iff.2 h
  have htake : before.takeWhile isPlain = before := List.takeWhile_eq_self_iff.2 h
  rw [parts?]
  split
  · rw [htake]
  · next hrest =>
    rw [hdrop] at hrest
    cases hrest

/-- The first literal of a text, and what stands before it. -/
theorem parts?_literal (h : ∀ c ∈ before, isPlain c = true) (hq : isPlain quote = false)
    (body rest : List Char) : parts? (before ++ (literal quote body ++ rest)) =
      (parts? rest).map fun ps =>
        .plain (String.ofList before) :: .quoted quote (String.ofList body) :: ps := by
  have hback : quote ≠ '\\' := by
    rintro rfl
    exact absurd hq (by decide)
  have hliteral : literal quote body ++ rest = quote :: (escape quote body ++ quote :: rest) := by
    simp [literal]
  have hstop : ¬ isPlain quote = true := by
    rw [hq]
    decide
  have hdrop : (before ++ (literal quote body ++ rest)).dropWhile isPlain =
      quote :: (escape quote body ++ quote :: rest) := by
    rw [List.dropWhile_append_of_pos h, hliteral, List.dropWhile_cons_of_neg hstop]
  have htake : (before ++ (literal quote body ++ rest)).takeWhile isPlain = before := by
    rw [List.takeWhile_append_of_pos h, hliteral, List.takeWhile_cons_of_neg hstop,
      List.append_nil]
  have hread := readLiteral_escape hback body rest
  rw [parts?, htake]
  split
  · next hrest =>
    rw [hdrop] at hrest
    cases hrest
  · next found more hrest =>
    rw [hdrop] at hrest
    obtain ⟨rfl, rfl⟩ := List.cons.inj hrest
    split
    · next hnone =>
      rw [hread] at hnone
      cases hnone
    · next hsome =>
      rw [hread] at hsome
      cases hsome
      rfl

/-- A literal with the text before it: the text, the quotes, and what the literal stands for. -/
structure Segment where
  before : String
  quote : Char
  body : String

/-- The characters of a segment. -/
def Segment.chars (s : Segment) : List Char := s.before.toList ++ literal s.quote s.body.toList

/-- The parts of a segment. -/
def Segment.parts (s : Segment) : List Part := [.plain s.before, .quoted s.quote s.body]

/-- **What is made of literals and plain text is cut into them.** -/
theorem parts?_segments {last : String} (hlast : ∀ c ∈ last.toList, isPlain c = true) :
    ∀ segments : List Segment, (∀ s ∈ segments, (∀ c ∈ s.before.toList, isPlain c = true) ∧
      isPlain s.quote = false) →
    parts? (segments.flatMap Segment.chars ++ last.toList) =
      some (segments.flatMap Segment.parts ++ [.plain last]) := by
  intro segments
  induction segments with
  | nil =>
    intro _
    have hplain := parts?_plain hlast
    rw [String.ofList_toList] at hplain
    exact hplain
  | cons s segments ih =>
    intro h
    obtain ⟨hbefore, hquote⟩ := h s List.mem_cons_self
    have hrest := ih fun t ht => h t (List.mem_cons_of_mem _ ht)
    rw [List.flatMap_cons, Segment.chars, List.append_assoc, List.append_assoc,
      parts?_literal hbefore hquote, hrest, Option.map_some, String.ofList_toList,
      String.ofList_toList]
    rfl

/-- The part of a query that names its window. -/
def windowText (window : Window) : String :=
  " AND time >= " ++ intText window.start ++ "ms AND time <= " ++ intText window.finish ++
    "ms ORDER BY time ASC"

/-- The literals of a query. -/
def segmentsOf (key name : String) : List Segment :=
  [⟨"SELECT value FROM ", '"', key⟩, ⟨" WHERE ", '"', "measurement"⟩, ⟨" = ", '\'', name⟩]

theorem windowClause_eq (window : Window) : windowClause window = (windowText window).toList := by
  have hint : ∀ i : Int, (intText i).toList = Decimal.ofInt i := fun i => String.toList_ofList
  unfold windowClause windowText
  rw [String.toList_append, String.toList_append, String.toList_append, String.toList_append,
    hint, hint]

/-- The characters of a query. -/
theorem chars_eq (key name : String) (window : Window) : chars key name window =
    (segmentsOf key name).flatMap Segment.chars ++ (windowText window).toList := by
  have hbetween : beforeMeasurement =
      " WHERE ".toList ++ (literal '"' "measurement".toList ++ " = ".toList) := by decide
  unfold chars segmentsOf beforeKey
  rw [windowClause_eq, hbetween]
  simp only [List.flatMap_cons, List.flatMap_nil, Segment.chars, List.append_assoc,
    List.nil_append]

/-- Numbers hold no quotes. -/
theorem isPlain_of_mem_intText (i : Int) : ∀ c ∈ (intText i).toList, isPlain c = true := by
  intro c hc
  have hnumber := Decimal.isNumberChar_of_mem_ofInt i c (by simpa [intText] using hc)
  by_contra hplain
  have hquote : c = '"' ∨ c = '\'' := by
    by_contra hno
    rw [not_or] at hno
    exact hplain (by simp [isPlain, hno.1, hno.2])
  rcases hquote with rfl | rfl
  · exact absurd hnumber (by decide)
  · exact absurd hnumber (by decide)

theorem isPlain_of_mem_windowText (window : Window) :
    ∀ c ∈ (windowText window).toList, isPlain c = true := by
  have hstart := isPlain_of_mem_intText window.start
  have hfinish := isPlain_of_mem_intText window.finish
  unfold windowText
  simp only [String.toList_append, List.forall_mem_append]
  have hliterals : (∀ c ∈ " AND time >= ".toList, isPlain c = true) ∧
      (∀ c ∈ "ms AND time <= ".toList, isPlain c = true) ∧
      ∀ c ∈ "ms ORDER BY time ASC".toList, isPlain c = true := by
    simp only [← List.all_eq_true]
    decide
  exact ⟨⟨⟨⟨hliterals.1, hstart⟩, hliterals.2.1⟩, hfinish⟩, hliterals.2.2⟩

/-- **A query has the parts that it was made of.** -/
theorem parts?_history (key name : String) (window : Window) :
    parts? (history key name window).toList =
      some ((segmentsOf key name).flatMap Segment.parts ++ [.plain (windowText window)]) := by
  rw [history, String.toList_ofList, chars_eq]
  apply parts?_segments (isPlain_of_mem_windowText window)
  unfold segmentsOf
  simp only [List.forall_mem_cons]
  simp only [← List.all_eq_true]
  exact ⟨⟨by decide, by decide⟩, ⟨by decide, by decide⟩, ⟨by decide, by decide⟩, nofun⟩

/-- Numbers of different values have different texts. -/
theorem intText_inj {i j : Int} (h : intText i = intText j) : i = j := by
  have hi := Decimal.parseInteger_ofInt (min_le_left i j) (le_max_left i j)
  have hj := Decimal.parseInteger_ofInt (min_le_right i j) (le_max_right i j)
  rw [h, hj] at hi
  exact (Except.ok.inj hi).symm

/-- A number is cut off where a character stands that no number is written with. -/
theorem intText_append_inj {i j : Int} {cs ds : List Char} {c : Char} (hc : isNumberChar c = false)
    (hcs : cs.head? = some c) (hds : ds.head? = some c)
    (h : (intText i).toList ++ cs = (intText j).toList ++ ds) : i = j ∧ cs = ds := by
  have hcut : ∀ (k : Int) (rest : List Char), rest.head? = some c →
      ((intText k).toList ++ rest).takeWhile isNumberChar = (intText k).toList := by
    intro k rest hrest
    have hnumber : ∀ d ∈ (intText k).toList, isNumberChar d = true := by
      intro d hd
      exact Decimal.isNumberChar_of_mem_ofInt k d (by simpa [intText] using hd)
    have hstop : ¬ isNumberChar c = true := by
      rw [hc]
      decide
    obtain ⟨more, rfl⟩ := List.head?_eq_some_iff.1 hrest
    rw [List.takeWhile_append_of_pos hnumber, List.takeWhile_cons_of_neg hstop, List.append_nil]
  have htext : (intText i).toList = (intText j).toList := by
    rw [← hcut i cs hcs, h, hcut j ds hds]
  have hij := intText_inj (String.toList_inj.1 htext)
  rw [htext] at h
  exact ⟨hij, List.append_cancel_left h⟩

/-- Different windows are named differently. -/
theorem windowText_inj (h : windowText window = windowText window') : window = window' := by
  have hm : isNumberChar 'm' = false := by decide
  have hchars := congrArg String.toList h
  unfold windowText at hchars
  simp only [String.toList_append, List.append_assoc] at hchars
  obtain ⟨hstart, hrest⟩ := intText_append_inj hm rfl rfl (List.append_cancel_left hchars)
  obtain ⟨hfinish, -⟩ := intText_append_inj hm rfl rfl (List.append_cancel_left hrest)
  cases window
  cases window'
  exact congrArg₂ Window.mk hstart hfinish

/-- **A query has one structure, whatever its key and its name are**: the key in double quotes, the
name in single quotes, and fixed text with the two times around them. Different keys, names or
windows give different queries. -/
theorem history_parts :
    (∀ key name window, parts? (history key name window).toList = some
      [.plain "SELECT value FROM ", .quoted '"' key, .plain " WHERE ", .quoted '"' "measurement",
        .plain " = ", .quoted '\'' name,
        .plain (" AND time >= " ++ intText window.start ++ "ms AND time <= " ++
          intText window.finish ++ "ms ORDER BY time ASC")]) ∧
    ∀ key name window key' name' window', history key name window = history key' name' window' ↔
      key = key' ∧ name = name' ∧ window = window' := by
  constructor
  · exact parts?_history
  · intro key name window key' name' window'
    constructor
    · intro h
      have hparts := parts?_history key name window
      rw [h, parts?_history, Option.some.injEq] at hparts
      simp only [segmentsOf, List.flatMap_cons, List.flatMap_nil, Segment.parts, List.cons_append,
        List.nil_append, List.cons.injEq, Part.quoted.injEq, Part.plain.injEq, true_and,
        and_true] at hparts
      obtain ⟨hkey, hname, hwindow⟩ := hparts
      exact ⟨hkey.symm, hname.symm, (windowText_inj hwindow).symm⟩
    · rintro ⟨rfl, rfl, rfl⟩
      rfl

end TelemetryRelay.QueryText
