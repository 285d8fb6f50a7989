import Mathlib.Data.List.TakeWhile
import TelemetryRelay.Proofs.Text.Percent
import TelemetryRelay.Proofs.Text.Pieces
import TelemetryRelay.Url.Parser

/-!
# Paths are read back

What is escaped once is not escaped again, as escapes are written in characters that may stand. A
path that has been read is in order: its segments are escaped, hold no slash, and do not stand for a
level. Such a path is read back from its text.

* `escaped_encodeChars`: what is escaped may stand.
* `inOrder_readPath`: **a path that has been read is in order.**
* `readPath_slashed`: **a path in order is read back.**
-/

namespace TelemetryRelay.Url

variable {kind : SchemeKind} {stands : Char → Bool} {cs : List Char} {c : Char} {s : String}
  {segments levels : List String}

/-! ### Escapes -/

/-- A text whose characters may all stand. -/
def Escaped (stands : Char → Bool) (cs : List Char) : Prop :=
  ∀ c ∈ cs, c.toNat < 128 ∧ stands c = true

/-- The characters of escapes may stand. -/
def KeepsEscapes (stands : Char → Bool) : Prop :=
  stands '%' = true ∧ ∀ n < 16, stands (Percent.hexDigit n) = true

theorem keepsEscapes_path : KeepsEscapes standsInPath := ⟨by decide, by decide⟩

theorem keepsEscapes_credentials : KeepsEscapes standsInCredentials := ⟨by decide, by decide⟩

theorem keepsEscapes_fragment : KeepsEscapes standsInFragment := ⟨by decide, by decide⟩

theorem keepsEscapes_query (kind : SchemeKind) : KeepsEscapes kind.standsInQuery := by
  cases kind <;> exact ⟨by decide, by decide⟩

/-- **What is escaped may stand.** -/
theorem escaped_encodeChars (h : KeepsEscapes stands) (s : String) :
    Escaped stands (Percent.encodeChars stands s) := by
  intro c hc
  rcases Percent.mem_encodeChars hc with ⟨hascii, hstands, -⟩ | rfl | ⟨n, hn, rfl⟩
  · exact ⟨hascii, hstands⟩
  · exact ⟨by decide, h.1⟩
  · exact ⟨Percent.hexDigit_toNat_lt n hn, h.2 n hn⟩

/-- **What may stand is not escaped again.** -/
theorem Escaped.encode_eq (h : Escaped stands s.toList) :
    Percent.encode stands (String.ofList s.toList) = s := by
  rw [Percent.encode, Percent.encodeChars_of_stands h, String.ofList_toList]

/-- A visible character of ASCII. -/
def IsVisible (c : Char) : Prop := 0x20 < c.toNat ∧ c.toNat < 0x7F

instance (c : Char) : Decidable (IsVisible c) := instDecidableAnd

theorem ne_of_contains {cs : List Char} (h : cs.contains c = false) {x : Char} (hx : x ∈ cs) :
    c ≠ x := by
  rintro rfl
  simp [hx] at h

theorem isVisible_of_printable (h : isPrintable c = true) (hspace : c ≠ ' ') : IsVisible c := by
  unfold isPrintable at h
  rw [Bool.and_eq_true, decide_eq_true_eq, decide_eq_true_eq] at h
  refine ⟨?_, h.2⟩
  have hne : c.toNat ≠ 0x20 := by
    intro hc
    have hsame : c.toNat = ' '.toNat := hc
    exact hspace (Char.toNat_inj.1 hsame)
  omega

theorem visible_of_fragment (h : standsInFragment c = true) : IsVisible c := by
  unfold standsInFragment at h
  rw [Bool.and_eq_true, Bool.not_eq_true'] at h
  exact isVisible_of_printable h.1 (ne_of_contains h.2 (by decide))

theorem visible_of_path (h : standsInPath c = true) : IsVisible c ∧ c ≠ '?' ∧ c ≠ '#' := by
  unfold standsInPath at h
  rw [Bool.and_eq_true, Bool.not_eq_true'] at h
  exact ⟨visible_of_fragment h.1, ne_of_contains h.2 (by decide), ne_of_contains h.2 (by decide)⟩

theorem visible_of_query (h : kind.standsInQuery c = true) : IsVisible c ∧ c ≠ '#' := by
  unfold SchemeKind.standsInQuery at h
  rw [Bool.and_eq_true, Bool.and_eq_true, Bool.not_eq_true'] at h
  obtain ⟨⟨hprintable, hlist⟩, -⟩ := h
  exact ⟨isVisible_of_printable hprintable (ne_of_contains hlist (by decide)),
    ne_of_contains hlist (by decide)⟩

/-! ### Levels -/

/-- A segment in order: it is escaped, holds no slash, and does not stand for a level. -/
structure IsSegment (kind : SchemeKind) (s : String) : Prop where
  escaped : Escaped standsInPath s.toList
  slashless : ∀ c ∈ s.toList, kind.isSlash c = false
  single : isSingleDot s = false
  double : isDoubleDot s = false

theorem isSegment_empty (kind : SchemeKind) : IsSegment kind "" :=
  ⟨nofun, nofun, by decide, by decide⟩

/-- Segments that do not stand for levels are kept. -/
theorem resolve_append (h : ∀ s ∈ segments, IsSegment kind s) :
    ∀ levels, resolve levels segments = levels ++ segments := by
  induction segments with
  | nil =>
    intro levels
    rw [resolve, List.append_nil]
  | cons s rest ih =>
    intro levels
    obtain ⟨hs, hrest⟩ := List.forall_mem_cons.1 h
    cases rest with
    | nil =>
      rw [resolve, hs.double, hs.single, if_neg Bool.false_ne_true, if_neg Bool.false_ne_true]
    | cons t rest =>
      rw [resolve, hs.double, hs.single, if_neg Bool.false_ne_true, if_neg Bool.false_ne_true,
        ih hrest, List.append_assoc, List.singleton_append]
      exact List.cons_ne_nil _ _

/-- **What is left of segments**: those that do not stand for a level, and perhaps an empty one. -/
theorem mem_resolve (h : s ∈ resolve levels segments) :
    s ∈ levels ∨ s = "" ∨ (s ∈ segments ∧ isSingleDot s = false ∧ isDoubleDot s = false) := by
  fun_induction resolve levels segments with
  | case1 levels => exact .inl h
  | case2 levels last hdouble =>
    rcases List.mem_append.1 h with h | h
    · exact .inl ((List.dropLast_sublist _).subset h)
    · exact .inr (.inl (List.mem_singleton.1 h))
  | case3 levels last hdouble hsingle =>
    rcases List.mem_append.1 h with h | h
    · exact .inl h
    · exact .inr (.inl (List.mem_singleton.1 h))
  | case4 levels last hdouble hsingle =>
    rcases List.mem_append.1 h with h | h
    · exact .inl h
    · obtain rfl := List.mem_singleton.1 h
      exact .inr (.inr ⟨List.mem_cons_self, Bool.eq_false_iff.2 hsingle,
        Bool.eq_false_iff.2 hdouble⟩)
  | case5 levels segment rest hne hdouble ih =>
    rcases ih h with h | h | ⟨h, hdots⟩
    · exact .inl ((List.dropLast_sublist _).subset h)
    · exact .inr (.inl h)
    · exact .inr (.inr ⟨List.mem_cons_of_mem _ h, hdots⟩)
  | case6 levels segment rest hne hdouble hsingle ih =>
    rcases ih h with h | h | ⟨h, hdots⟩
    · exact .inl h
    · exact .inr (.inl h)
    · exact .inr (.inr ⟨List.mem_cons_of_mem _ h, hdots⟩)
  | case7 levels segment rest hne hdouble hsingle ih =>
    rcases ih h with h | h | ⟨h, hdots⟩
    · rcases List.mem_append.1 h with h | h
      · exact .inl h
      · obtain rfl := List.mem_singleton.1 h
        exact .inr (.inr ⟨List.mem_cons_self, Bool.eq_false_iff.2 hsingle,
          Bool.eq_false_iff.2 hdouble⟩)
    · exact .inr (.inl h)
    · exact .inr (.inr ⟨List.mem_cons_of_mem _ h, hdots⟩)

theorem resolve_ne_nil (hne : segments ≠ []) : resolve levels segments ≠ [] := by
  fun_induction resolve levels segments with
  | case1 levels => exact absurd rfl hne
  | case2 => exact List.append_ne_nil_of_right_ne_nil _ (List.cons_ne_nil _ _)
  | case3 => exact List.append_ne_nil_of_right_ne_nil _ (List.cons_ne_nil _ _)
  | case4 => exact List.append_ne_nil_of_right_ne_nil _ (List.cons_ne_nil _ _)
  | case5 levels segment rest hrest hdouble ih => exact ih hrest
  | case6 levels segment rest hrest hdouble hsingle ih => exact ih hrest
  | case7 levels segment rest hrest hdouble hsingle ih => exact ih hrest

/-! ### Paths -/

/-- Segments, each behind a slash. -/
def slashed (segments : List String) : List Char := segments.flatMap fun s => '/' :: s.toList

theorem slashed_append (xs ys : List String) : slashed (xs ++ ys) = slashed xs ++ slashed ys :=
  List.flatMap_append

theorem slashed_singleton (s : String) : slashed [s] = '/' :: s.toList := List.flatMap_singleton _ _

theorem toList_pathText (segments : List String) :
    (UrlPath.segments segments).text.toList = slashed segments := by
  have hsegment : ∀ s : String, ("/" ++ s).toList = '/' :: s.toList := by
    intro s
    rw [String.toList_append]
    rfl
  rw [UrlPath.text, String.toList_join, List.flatMap_map, slashed]
  simp only [hsegment]

/-- **Segments in order**: only a scheme with opaque hosts may have none. -/
structure InOrder (kind : SchemeKind) (segments : List String) : Prop where
  segment : ∀ s ∈ segments, IsSegment kind s
  ne_nil : kind ≠ .other → segments ≠ []

theorem isSlash_slash (kind : SchemeKind) : kind.isSlash '/' = true := by cases kind <;> rfl

/-- A text is cut at its slashes, and its segments are escaped. -/
theorem rawSegments_slashed (h : ∀ t ∈ s :: segments, IsSegment kind t) :
    rawSegments kind (s.toList ++ slashed segments) = s :: segments := by
  have hsplit : (s.toList ++ slashed segments).splitOnP kind.isSlash =
      s.toList :: segments.map String.toList := by
    induction segments generalizing s with
    | nil =>
      rw [slashed, List.flatMap_nil, List.append_nil]
      exact List.splitOnP_eq_singleton (h s List.mem_cons_self).slashless
    | cons t rest ih =>
      have hfirst := (h s List.mem_cons_self).slashless
      have hrest := ih (List.forall_mem_cons.1 h).2
      rw [slashed, List.flatMap_cons, List.cons_append, ← slashed,
        List.splitOnP_append_cons_of_forall_mem hfirst '/' (isSlash_slash kind), hrest]
      rfl
  rw [rawSegments, hsplit, ← List.map_cons, List.map_map]
  refine (List.map_congr_left fun t ht => ?_).trans (List.map_id _)
  exact (h t ht).escaped.encode_eq

/-- **A path in order is read back.** -/
theorem readPath_slashed (h : InOrder kind segments) :
    readPath kind (slashed segments) = segments := by
  cases segments with
  | nil =>
    have hkind : kind = .other := by
      by_contra hkind
      exact h.ne_nil hkind rfl
    exact if_pos hkind
  | cons s rest =>
    have hread : readPath kind (slashed (s :: rest)) =
        resolve [] (rawSegments kind (if kind.isSlash '/' then s.toList ++ slashed rest
          else '/' :: (s.toList ++ slashed rest))) := rfl
    rw [hread, if_pos (isSlash_slash kind), rawSegments_slashed h.segment,
      resolve_append h.segment, List.nil_append]

/-- **A path that has been read is in order.** -/
theorem inOrder_readPath (kind : SchemeKind) (cs : List Char) :
    InOrder kind (readPath kind cs) := by
  have hraw : ∀ {cs : List Char}, ∀ s ∈ rawSegments kind cs,
      Escaped standsInPath s.toList ∧ ∀ c ∈ s.toList, kind.isSlash c = false := by
    intro cs s hs
    obtain ⟨piece, hpiece, rfl⟩ := List.mem_map.1 hs
    rw [Percent.encode, String.toList_ofList]
    refine ⟨escaped_encodeChars keepsEscapes_path _, fun c hc => ?_⟩
    rcases Percent.mem_encodeChars hc with ⟨-, -, hmem⟩ | rfl | ⟨n, hn, rfl⟩
    · rw [String.toList_ofList] at hmem
      exact not_separates_of_mem_splitOnP hpiece c hmem
    · cases kind <;> decide
    · have hdigits : ∀ n < 16, kind.isSlash (Percent.hexDigit n) = false := by
        cases kind <;> decide
      exact hdigits n hn
  unfold readPath
  split
  · split
    · next hkind => exact ⟨nofun, fun hother => absurd hkind hother⟩
    · exact ⟨List.forall_mem_singleton.2 (isSegment_empty kind), fun _ => List.cons_ne_nil _ _⟩
  · next c rest =>
    constructor
    · intro s hs
      rcases mem_resolve hs with hs | rfl | ⟨hs, hsingle, hdouble⟩
      · cases hs
      · exact isSegment_empty kind
      · obtain ⟨hescaped, hslash⟩ := hraw s hs
        exact ⟨hescaped, hslash, hsingle, hdouble⟩
    · intro _
      apply resolve_ne_nil
      unfold rawSegments
      rw [ne_eq, List.map_eq_nil_iff]
      exact List.splitOnP_ne_nil _ _

end TelemetryRelay.Url
