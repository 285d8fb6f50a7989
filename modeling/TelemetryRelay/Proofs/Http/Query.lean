import TelemetryRelay.Proofs.Decimal.Digits
import TelemetryRelay.Proofs.Frame.Timestamp
import TelemetryRelay.Proofs.Http.Reachable
import TelemetryRelay.Proofs.Text.Pieces
import TelemetryRelay.Proofs.Text.Utf8

/-!
# Query strings

A query is a list of fields, and it is read as the fields that are written in it. A name or a value
can be written as it is if its characters stand for themselves, and percent-encoded in any case.
Each field of a history request sets one parameter to a number in range. So queries give all
parameters that are in range, in every combination of those that are there, and no others.

* `writes_component`: every text can be written.
* `formFields_queryChars`: **a query is read as the fields that are written in it.**
* `HistoryParameters.Fit.visit`, `fit_of_ofQuery`: one field leaves the parameters in range, and so
  does a query.
* `HistoryParameters.fit_iff`: **which parameters there are.**
-/

namespace TelemetryRelay.Http

open Decimal (IsInt64 int64Min int64Max uint64Max)

/-! ### Names and values -/

/-- Characters that are written for a text in the name or the value of a field. -/
structure Writes (cs : List Char) (s : String) : Prop where
  reads : decodeFormText cs = s
  plain : ∀ x ∈ ['&', '=', '#'], x ∉ cs

/-- Characters without a plus are read through their octets. -/
theorem decodeFormText_eq {cs : List Char} {s : String} (hplus : '+' ∉ cs)
    (hdecode : Percent.decode (Utf8.octets (String.ofList cs)) = Utf8.octets s) :
    decodeFormText cs = s := by
  have hblank : cs.map (fun c => if c = '+' then ' ' else c) = cs := by
    refine (List.map_congr_left fun c hc => if_neg ?_).trans (List.map_id _)
    rintro rfl
    exact hplus hc
  unfold decodeFormText
  dsimp only
  rw [hblank, hdecode, Utf8.decodeLossy_octets, String.ofList_toList]

/-- Characters that stand for themselves in the name or the value of a field. -/
def Verbatim (cs : List Char) : Prop :=
  ∀ c ∈ cs, c.toNat < 128 ∧ c ∉ ['&', '=', '+', '%', '#']

instance (cs : List Char) : Decidable (Verbatim cs) := List.decidableBAll _ cs

theorem Verbatim.not_mem {cs : List Char} (h : Verbatim cs) {x : Char}
    (hx : x ∈ ['&', '=', '+', '%', '#']) : x ∉ cs :=
  fun hmem => (h x hmem).2 hx

/-- A text whose characters stand for themselves is written as it is. -/
theorem Verbatim.writes {s : String} (h : Verbatim s.toList) : Writes s.toList s := by
  have hplain : ∀ c ∈ s.toList, c.toNat < 128 ∧ c ≠ '%' := by
    intro c hc
    refine ⟨(h c hc).1, ?_⟩
    rintro rfl
    exact h.not_mem (by decide) hc
  constructor
  · apply decodeFormText_eq (h.not_mem (by decide))
    rw [Percent.decode_plain hplain, String.ofList_toList]
  · intro x hx
    have hsub : ∀ x ∈ ['&', '=', '#'], x ∈ ['&', '=', '+', '%', '#'] :=
      forall_mem_of_all (by decide)
    exact h.not_mem (hsub x hx)

/-- What a percent-encoded text holds has no meaning in a form, but for the percent sign. -/
theorem not_mem_component {x : Char} (hx : x ∈ ['&', '=', '+', '#']) (s : String) :
    x ∉ (Percent.component s).toList := by
  have hreserved : ∀ x ∈ ['&', '=', '+', '#'], Percent.isUnreserved x = false :=
    forall_mem_of_all (by decide)
  have hdigits : ∀ n < 16, Percent.hexDigit n ∉ ['&', '=', '+', '#'] := by decide
  rw [Percent.component, Percent.encode, String.toList_ofList]
  intro hmem
  rcases Percent.mem_encodeChars hmem with ⟨-, hunreserved, -⟩ | rfl | ⟨n, hn, rfl⟩
  · exact Bool.false_ne_true ((hreserved x hx).symm.trans hunreserved)
  · exact absurd hx (by decide)
  · exact hdigits n hn hx

/-- **Every text is written percent-encoded.** -/
theorem writes_component (s : String) : Writes (Percent.component s).toList s := by
  constructor
  · apply decodeFormText_eq (not_mem_component (by decide) s)
    rw [Percent.component, Percent.encode, String.toList_ofList]
    exact Percent.decode_encodeChars (by decide) s
  · intro x hx
    have hsub : ∀ x ∈ ['&', '=', '#'], x ∈ ['&', '=', '+', '#'] := forall_mem_of_all (by decide)
    exact not_mem_component (hsub x hx) s

/-! ### Queries -/

section Written

variable {write : String → List Char} {fields : List (String × String)}

/-- A field as it is written. -/
def fieldPiece (write : String → List Char) (field : String × String) : List Char :=
  write field.1 ++ '=' :: write field.2

/-- A query with the given fields. -/
def queryChars (write : String → List Char) : List (String × String) → List Char
  | [] => []
  | field :: rest => fieldPiece write field ++ (rest.map (fieldPiece write)).flatMap ('&' :: ·)

/-- Fields whose names and values can be written. -/
def WritesFields (write : String → List Char) (fields : List (String × String)) : Prop :=
  ∀ field ∈ fields, Writes (write field.1) field.1 ∧ Writes (write field.2) field.2

theorem fieldPiece_ne_nil (field : String × String) : fieldPiece write field ≠ [] :=
  List.append_ne_nil_of_right_ne_nil _ (List.cons_ne_nil _ _)

theorem mem_fieldPiece {field : String × String} {c : Char} (h : c ∈ fieldPiece write field) :
    c = '=' ∨ ∃ s, (s = field.1 ∨ s = field.2) ∧ c ∈ write s := by
  rcases List.mem_append.1 h with h | h
  · exact .inr ⟨field.1, .inl rfl, h⟩
  · rcases List.mem_cons.1 h with h | h
    · exact .inl h
    · exact .inr ⟨field.2, .inr rfl, h⟩

/-- What a query holds. -/
theorem mem_queryChars {c : Char} (h : c ∈ queryChars write fields) :
    c = '&' ∨ ∃ field ∈ fields, c ∈ fieldPiece write field := by
  cases fields with
  | nil => cases h
  | cons field rest =>
    rcases List.mem_append.1 h with h | h
    · exact .inr ⟨field, List.mem_cons_self, h⟩
    · obtain ⟨piece, hpiece, h⟩ := List.mem_flatMap.1 h
      obtain ⟨other, hother, rfl⟩ := List.mem_map.1 hpiece
      rcases List.mem_cons.1 h with h | h
      · exact .inl h
      · exact .inr ⟨other, List.mem_cons_of_mem _ hother, h⟩

theorem WritesFields.not_mem (h : WritesFields write fields) {x : Char} (hx : x ∈ ['&', '#']) :
    ∀ field ∈ fields, x ∉ fieldPiece write field := by
  intro field hfield hmem
  have hsub : ∀ x ∈ ['&', '#'], x ∈ ['&', '=', '#'] ∧ x ≠ '=' := forall_mem_of_all (by decide)
  obtain ⟨hx, hne⟩ := hsub x hx
  rcases mem_fieldPiece hmem with hmem | ⟨s, rfl | rfl, hmem⟩
  · exact hne hmem
  · exact (h field hfield).1.plain x hx hmem
  · exact (h field hfield).2.plain x hx hmem

/-- A piece is cut at its first equals sign. -/
theorem read_fieldPiece {field : String × String} (hn : Writes (write field.1) field.1)
    (hv : Writes (write field.2) field.2) :
    (decodeFormText ((fieldPiece write field).takeWhile (· ≠ '=')),
      decodeFormText (((fieldPiece write field).dropWhile (· ≠ '=')).drop 1)) = field := by
  have hname : ∀ c ∈ write field.1, decide (c ≠ '=') = true := by
    intro c hc
    refine decide_eq_true ?_
    rintro rfl
    exact hn.plain _ (by decide) hc
  have htake : (fieldPiece write field).takeWhile (· ≠ '=') = write field.1 := by
    rw [fieldPiece, List.takeWhile_append_of_pos hname]
    simp
  have hdrop : ((fieldPiece write field).dropWhile (· ≠ '=')).drop 1 = write field.2 := by
    rw [fieldPiece, List.dropWhile_append_of_pos hname]
    simp
  rw [htake, hdrop, hn.reads, hv.reads]

/-- **A query is read as the fields that are written in it.** -/
theorem formFields_queryChars (h : WritesFields write fields) :
    formFields (queryChars write fields) = fields := by
  have hpieces : ((queryChars write fields).splitOn '&').filter (!·.isEmpty) =
      fields.map (fieldPiece write) := by
    cases fields with
    | nil => rfl
    | cons field rest =>
      have hamp := List.forall_mem_cons.1 (h.not_mem (x := '&') (by decide))
      have hrest : ∀ piece ∈ rest.map (fieldPiece write), '&' ∉ piece := by
        rw [List.forall_mem_map]
        exact hamp.2
      rw [queryChars, splitOn_pieces hamp.1 hrest, ← List.map_cons, List.filter_eq_self,
        List.forall_mem_map]
      intro f _
      simpa using fieldPiece_ne_nil f
  rw [formFields, hpieces, List.map_map]
  refine (List.map_congr_left fun field hfield => ?_).trans (List.map_id _)
  exact read_fieldPiece (h field hfield).1 (h field hfield).2

theorem queryChars_fragment (h : WritesFields write fields) : '#' ∉ queryChars write fields := by
  intro hmem
  rcases mem_queryChars hmem with hmem | ⟨field, hfield, hmem⟩
  · exact absurd hmem (by decide)
  · exact h.not_mem (by decide) field hfield hmem

end Written

namespace HistoryParameters

variable {p : HistoryParameters}

/-- Parameters that are in range. -/
structure Fit (p : HistoryParameters) : Prop where
  start : ∀ s ∈ p.start, IsInt64 s
  finish : ∀ t ∈ p.finish, IsInt64 t
  maxPoints : ∀ m ∈ p.maxPoints, m ≤ uint64Max

/-- What is read once is read from the value. -/
theorem once_eq_ok {β : Type} {field value : String} {previous result : Option β}
    {read : String → Except Decimal.IntegerFault β}
    (h : once field previous read value = .ok result) :
    previous = none ∧ ∃ b, result = some b ∧ read value = .ok b := by
  unfold once at h
  split at h
  · cases h
  · next hnone =>
    split at h
    · next b hread =>
      cases h
      exact ⟨by simpa using hnone, b, rfl, hread⟩
    · cases h

theorem int64_of_parse {s : String} {i : Int} (h : Decimal.parseInt64 s = .ok i) : IsInt64 i :=
  Decimal.parseInteger_bounds (by decide) (by decide) h

theorem uint64_of_parse {s : String} {n : Nat} (h : Decimal.parseUInt64 s = .ok n) :
    n ≤ uint64Max := by
  unfold Decimal.parseUInt64 at h
  cases hread : Decimal.parseInteger 0 uint64Max s with
  | error e =>
    rw [hread] at h
    cases h
  | ok i =>
    rw [hread] at h
    cases h
    have := Decimal.parseInteger_bounds (by decide) (by decide) hread
    show i.toNat ≤ uint64Max
    omega

/-- One field more leaves the parameters in range. -/
theorem Fit.visit (h : p.Fit) {field : String × String} {q : HistoryParameters}
    (hq : p.visit field = .ok q) : q.Fit := by
  unfold HistoryParameters.visit at hq
  split at hq
  · obtain ⟨b, hb, hq⟩ := bind_eq_ok_iff.1 hq
    obtain ⟨-, s, rfl, hs⟩ := once_eq_ok hb
    cases hq
    exact ⟨fun t ht => Option.some.inj ht ▸ int64_of_parse hs, h.finish, h.maxPoints⟩
  · obtain ⟨b, hb, hq⟩ := bind_eq_ok_iff.1 hq
    obtain ⟨-, s, rfl, hs⟩ := once_eq_ok hb
    cases hq
    exact ⟨h.start, fun t ht => Option.some.inj ht ▸ int64_of_parse hs, h.maxPoints⟩
  · obtain ⟨b, hb, hq⟩ := bind_eq_ok_iff.1 hq
    obtain ⟨-, s, rfl, hs⟩ := once_eq_ok hb
    cases hq
    exact ⟨h.start, h.finish, fun t ht => Option.some.inj ht ▸ uint64_of_parse hs⟩
  · cases hq
    exact h

theorem fit_of_ofQuery {query : List Char} (hp : ofQuery query = .ok p) : p.Fit := by
  have hfold : ∀ (fields : List (String × String)) (p₀ : HistoryParameters), p₀.Fit →
      fields.foldlM HistoryParameters.visit p₀ = .ok p → p.Fit := by
    intro fields
    induction fields with
    | nil =>
      intro p₀ h₀ h
      cases h
      exact h₀
    | cons field rest ih =>
      intro p₀ h₀ h
      rw [List.foldlM_cons] at h
      obtain ⟨p₁, hvisit, h⟩ := bind_eq_ok_iff.1 h
      exact ih p₁ (h₀.visit hvisit) h
  exact hfold _ {} ⟨nofun, nofun, nofun⟩ hp

/-- The fields of a query that gives the parameters. -/
def fields (p : HistoryParameters) : List (String × String) :=
  (p.start.map fun s => ("start", Decimal.intText s)).toList ++
    (p.finish.map fun t => ("end", Decimal.intText t)).toList ++
      (p.maxPoints.map fun m => ("max_points", Decimal.natText m)).toList

theorem verbatim_of_isDigit {cs : List Char} (h : ∀ c ∈ cs, Decimal.isDigit c = true) :
    Verbatim cs := by
  intro c hc
  have hdigit := h c hc
  have hrange := Decimal.isDigit_iff.1 hdigit
  have hnone : ∀ x ∈ ['&', '=', '+', '%', '#'], Decimal.isDigit x = false := by
    simp only [List.forall_mem_cons]
    exact ⟨rfl, rfl, rfl, rfl, rfl, nofun⟩
  refine ⟨by omega, fun hmem => ?_⟩
  exact Bool.false_ne_true ((hnone c hmem).symm.trans hdigit)

theorem verbatim_digits (n : Nat) : Verbatim (Decimal.digits n) :=
  verbatim_of_isDigit (Decimal.isDigit_of_mem_digits n)

theorem verbatim_ofInt (i : Int) : Verbatim (Decimal.ofInt i) := by
  unfold Decimal.ofInt
  split
  · exact List.forall_mem_cons.2 ⟨by decide, verbatim_digits _⟩
  · exact verbatim_digits _

/-- The names of the parameters. -/
theorem verbatim_names : Verbatim "start".toList ∧ Verbatim "end".toList ∧
    Verbatim "max_points".toList := by decide +kernel

theorem writes_fields (p : HistoryParameters) : WritesFields String.toList p.fields := by
  intro field hfield
  unfold fields at hfield
  simp only [List.mem_append, Option.mem_toList, Option.map_eq_some_iff] at hfield
  rcases hfield with (⟨s, -, rfl⟩ | ⟨t, -, rfl⟩) | ⟨m, -, rfl⟩
  · refine ⟨verbatim_names.1.writes, Verbatim.writes ?_⟩
    rw [Decimal.intText, String.toList_ofList]
    exact verbatim_ofInt s
  · refine ⟨verbatim_names.2.1.writes, Verbatim.writes ?_⟩
    rw [Decimal.intText, String.toList_ofList]
    exact verbatim_ofInt t
  · refine ⟨verbatim_names.2.2.writes, Verbatim.writes ?_⟩
    rw [Decimal.natText, String.toList_ofList]
    exact verbatim_digits m

theorem parseInt64_intText {i : Int} (h : IsInt64 i) :
    Decimal.parseInt64 (Decimal.intText i) = .ok i :=
  Decimal.parseInteger_ofInt h.1 h.2

theorem parseUInt64_natText {n : Nat} (h : n ≤ uint64Max) :
    Decimal.parseUInt64 (Decimal.natText n) = .ok n := by
  have htext : Decimal.natText n = Decimal.intText n := by
    rw [Decimal.natText, Decimal.intText, Decimal.ofInt, if_neg (by omega), Int.natAbs_natCast]
  rw [Decimal.parseUInt64, htext, Decimal.parseInteger_ofInt (by omega) (by omega)]
  rfl

theorem visit_start {s : Int} (hs : IsInt64 s) (hp : p.start = none) :
    p.visit ("start", Decimal.intText s) = .ok { p with start := some s } := by
  simp only [visit, once, hp, parseInt64_intText hs]
  rfl

theorem visit_finish {t : Int} (ht : IsInt64 t) (hp : p.finish = none) :
    p.visit ("end", Decimal.intText t) = .ok { p with finish := some t } := by
  simp only [visit, once, hp, parseInt64_intText ht]
  rfl

theorem visit_maxPoints {m : Nat} (hm : m ≤ uint64Max) (hp : p.maxPoints = none) :
    p.visit ("max_points", Decimal.natText m) = .ok { p with maxPoints := some m } := by
  simp only [visit, once, hp, parseUInt64_natText hm]
  rfl

/-- Those fields give the parameters back. -/
theorem ofQuery_fields (h : p.Fit) : ofQuery (queryChars String.toList p.fields) = .ok p := by
  obtain ⟨start, finish, maxPoints⟩ := p
  have hstart : (start.map fun s => ("start", Decimal.intText s)).toList.foldlM visit {} =
      .ok ⟨start, none, none⟩ := by
    cases start with
    | none => rfl
    | some s => exact bind_eq_ok_iff.2 ⟨_, visit_start (h.start s rfl) rfl, rfl⟩
  have hfinish : (finish.map fun t => ("end", Decimal.intText t)).toList.foldlM visit
      ⟨start, none, none⟩ = .ok ⟨start, finish, none⟩ := by
    cases finish with
    | none => rfl
    | some t => exact bind_eq_ok_iff.2 ⟨_, visit_finish (h.finish t rfl) rfl, rfl⟩
  have hmax : (maxPoints.map fun m => ("max_points", Decimal.natText m)).toList.foldlM visit
      ⟨start, finish, none⟩ = .ok ⟨start, finish, maxPoints⟩ := by
    cases maxPoints with
    | none => rfl
    | some m => exact bind_eq_ok_iff.2 ⟨_, visit_maxPoints (h.maxPoints m rfl) rfl, rfl⟩
  rw [ofQuery, formFields_queryChars (writes_fields _), fields, List.foldlM_append,
    List.foldlM_append]
  exact bind_eq_ok_iff.2 ⟨_, bind_eq_ok_iff.2 ⟨_, hstart, hfinish⟩, hmax⟩

/-- **Which parameters there are**: queries give those in range, and no others. -/
theorem fit_iff : p.Fit ↔ ∃ query, '#' ∉ query ∧ ofQuery query = .ok p := by
  constructor
  · intro h
    exact ⟨queryChars String.toList p.fields, queryChars_fragment p.writes_fields, ofQuery_fields h⟩
  · rintro ⟨query, -, hp⟩
    exact fit_of_ofQuery hp

end HistoryParameters

end TelemetryRelay.Http
