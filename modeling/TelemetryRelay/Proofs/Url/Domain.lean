import TelemetryRelay.Proofs.Decimal.Digits
import TelemetryRelay.Proofs.Text.Pieces
import TelemetryRelay.Proofs.Url.Punycode
import TelemetryRelay.Url.Domain

/-!
# Domains are settled

The ASCII form of a name is a name again, and its own ASCII form. It holds only characters that
count, so nothing in it is replaced or composed; its labels are those of the name, as a label is
read back from the way it is written.

* `readLabel?_writeLabel`: a label is read back.
* `toAscii?_labels`: the ASCII form of labels.
* `toAscii?_self`: **an ASCII form is its own ASCII form.**
-/

namespace TelemetryRelay.Domain

variable {cs label written out : List Char} {labels : List (List Char)} {c : Char}

/-! ### Characters -/

/-- What an ASCII form is made of: ASCII characters that count. -/
def IsPlain (c : Char) : Prop := c.toNat < 128 ∧ isSettled c = true

instance (c : Char) : Decidable (IsPlain c) := instDecidableAnd

theorem isSettled_iff : isSettled c = true ↔ foldChar? c = some [c] := beq_iff_eq

/-- No character that counts is forbidden. -/
theorem IsPlain.not_isForbidden (h : IsPlain c) : isForbidden c = false := by
  obtain ⟨hascii, hsettled⟩ := h
  rw [isSettled_iff] at hsettled
  unfold foldChar? at hsettled
  dsimp only at hsettled
  rw [if_pos hascii] at hsettled
  by_contra hforbidden
  rw [if_pos (Bool.not_eq_false _ ▸ hforbidden)] at hsettled
  cases hsettled

theorem isPlain_digitChar : ∀ d < 36, IsPlain (Punycode.digitChar d) := by decide

theorem digitChar_ne_dot : ∀ d < 36, Punycode.digitChar d ≠ '.' := by decide

/-- Characters that count stand for themselves. -/
theorem fold?_plain (h : ∀ c ∈ cs, IsPlain c) : fold? cs = some cs := by
  unfold fold?
  have hfold : cs.mapM foldChar? = some (cs.map fun c => [c]) := by
    induction cs with
    | nil => rfl
    | cons c rest ih =>
      obtain ⟨hc, hrest⟩ := List.forall_mem_cons.1 h
      rw [List.mapM_cons, isSettled_iff.1 hc.2, ih hrest]
      rfl
  rw [hfold, Option.map_some, ← List.flatMap_def, List.flatMap_singleton']

/-! ### Labels -/

theorem isLabel_iff : isLabel label = true ↔ (∀ c ∈ label, isSettled c = true) ∧
    compose label = label ∧ (label.head?.any Text.isMark) = false ∧ joinersFit [] label = true ∧
      punycoded? label = none := by
  unfold isLabel
  simp only [Bool.and_eq_true, List.all_eq_true, beq_iff_eq, Bool.not_eq_true',
    Option.isNone_iff_eq_none, and_assoc]

/-- The characters of a punycode. -/
theorem mem_encode (h : c ∈ Punycode.encode label) :
    (c ∈ label ∧ c.toNat < 128) ∨ c = '-' ∨ ∃ d < 36, c = Punycode.digitChar d := by
  obtain ⟨out, hencode, hdigits, -⟩ := Punycode.encode_spec label
  rw [hencode] at h
  rcases List.mem_append.1 h with h | h
  · unfold Punycode.startOf at h
    dsimp only at h
    split at h
    · cases h
    · rcases List.mem_append.1 h with h | h
      · obtain ⟨hmem, hascii⟩ := List.mem_filter.1 h
        exact .inl ⟨hmem, of_decide_eq_true hascii⟩
      · exact .inr (.inl (List.mem_singleton.1 h))
  · exact .inr (.inr (hdigits c h))

/-- The ASCII characters of a label stay in its punycode. -/
theorem mem_encode_of_mem (h : c ∈ label) (hascii : c.toNat < 128) : c ∈ Punycode.encode label := by
  obtain ⟨out, hencode, -, -⟩ := Punycode.encode_spec label
  have hbasic : c ∈ label.filter (·.toNat < 128) := List.mem_filter.2 ⟨h, decide_eq_true hascii⟩
  rw [hencode]
  apply List.mem_append_left
  unfold Punycode.startOf
  dsimp only
  rw [if_neg (by rw [List.isEmpty_iff]; exact List.ne_nil_of_mem hbasic)]
  exact List.mem_append_left _ hbasic

/-- What is written for a label. -/
theorem isPlain_writeLabel (h : isLabel label = true) : ∀ c ∈ writeLabel label, IsPlain c := by
  obtain ⟨hsettled, -⟩ := isLabel_iff.1 h
  intro c hc
  unfold writeLabel at hc
  split at hc
  · next hall => exact ⟨of_decide_eq_true (List.all_eq_true.1 hall c hc), hsettled c hc⟩
  · rcases List.mem_append.1 hc with hc | hc
    · have hopening : ∀ c ∈ ['x', 'n', '-', '-'], IsPlain c := forall_mem_of_all (by decide)
      exact hopening c hc
    · rcases mem_encode hc with ⟨hmem, hascii⟩ | rfl | ⟨d, hd, rfl⟩
      · exact ⟨hascii, hsettled c hmem⟩
      · decide
      · exact isPlain_digitChar d hd

theorem dot_not_mem_writeLabel (h : '.' ∉ label) : '.' ∉ writeLabel label := by
  intro hmem
  unfold writeLabel at hmem
  split at hmem
  · exact h hmem
  · rcases List.mem_append.1 hmem with hmem | hmem
    · exact absurd hmem (by decide)
    · rcases mem_encode hmem with ⟨hmem, -⟩ | hmem | ⟨d, hd, hmem⟩
      · exact h hmem
      · exact absurd hmem (by decide)
      · exact digitChar_ne_dot d hd hmem.symm

/-- **A label is read back from the way it is written.** -/
theorem readLabel?_writeLabel (h : isLabel label = true) :
    readLabel? (writeLabel label) = some label := by
  unfold writeLabel
  split
  · obtain ⟨-, -, -, -, hnone⟩ := isLabel_iff.1 h
    rw [readLabel?, hnone]
    exact if_pos h
  · next hsome =>
    have hbeyond : label.any (128 ≤ ·.toNat) = true := by
      rw [List.all_eq_true] at hsome
      push Not at hsome
      obtain ⟨c, hc, hge⟩ := hsome
      refine List.any_eq_true.2 ⟨c, hc, ?_⟩
      simpa using hge
    have hcode : punycoded? (['x', 'n', '-', '-'] ++ Punycode.encode label) =
        some (Punycode.encode label) := rfl
    rw [readLabel?, hcode]
    dsimp only
    rw [Punycode.decode?_encode]
    exact if_pos (by rw [hbeyond, h, beq_self_eq_true]; rfl)

/-- What is read of a piece between dots is a label without dots. -/
theorem isLabel_of_readLabel? (h : readLabel? written = some label) (hdot : '.' ∉ written) :
    isLabel label = true ∧ '.' ∉ label := by
  unfold readLabel? at h
  split at h
  · split at h
    · next hlabel =>
      cases h
      exact ⟨hlabel, hdot⟩
    · cases h
  · next code hcode =>
    have hwritten : written = ['x', 'n', '-', '-'] ++ code := by
      unfold punycoded? at hcode
      split at hcode
      · cases hcode
        rfl
      · cases hcode
    split at h
    · cases h
    · split at h
      · next hall =>
        cases h
        simp only [Bool.and_eq_true, beq_iff_eq] at hall
        obtain ⟨⟨-, hlabel⟩, hencode⟩ := hall
        refine ⟨hlabel, fun hmem => hdot ?_⟩
        -- a dot would stay in the punycode
        rw [hwritten, ← hencode]
        exact List.mem_append_right _ (mem_encode_of_mem hmem (by decide))
      · cases h

/-! ### Names -/

/-- The text of labels with dots between. -/
def dotted (labels : List (List Char)) : List Char := ['.'].intercalate labels

theorem mem_dotted (h : c ∈ dotted labels) : c = '.' ∨ ∃ label ∈ labels, c ∈ label := by
  induction labels with
  | nil => cases h
  | cons label rest ih =>
    cases rest with
    | nil =>
      rw [dotted, List.intercalate_singleton] at h
      exact .inr ⟨label, List.mem_cons_self, h⟩
    | cons next more =>
      rw [dotted, List.intercalate_cons_cons, List.append_assoc, List.mem_append,
        List.mem_append] at h
      rcases h with h | h | h
      · exact .inr ⟨label, List.mem_cons_self, h⟩
      · exact .inl (List.mem_singleton.1 h)
      · rcases ih h with hdot | ⟨found, hfound, hc⟩
        · exact .inl hdot
        · exact .inr ⟨found, List.mem_cons_of_mem _ hfound, hc⟩

/-- **The ASCII form of labels** is itself a name, and its own ASCII form. -/
theorem toAscii?_labels (hne : labels ≠ [])
    (h : ∀ label ∈ labels, isLabel label = true ∧ '.' ∉ label)
    (hfit : directionsFit labels = true) :
    toAscii? (dotted (labels.map writeLabel)) = some (dotted (labels.map writeLabel)) := by
  have hplain : ∀ c ∈ dotted (labels.map writeLabel), IsPlain c := by
    intro c hc
    rcases mem_dotted hc with rfl | ⟨written, hmem, hc⟩
    · decide
    · obtain ⟨label, hlabel, rfl⟩ := List.mem_map.1 hmem
      exact isPlain_writeLabel (h label hlabel).1 c hc
  have hsplit : (dotted (labels.map writeLabel)).splitOn '.' = labels.map writeLabel := by
    refine List.splitOn_intercalate _ ?_ (by simpa using hne)
    rw [List.forall_mem_map]
    exact fun label hlabel => dot_not_mem_writeLabel (h label hlabel).2
  have hread : (labels.map writeLabel).mapM readLabel? = some labels :=
    mapM_map_eq_some fun label hlabel => readLabel?_writeLabel (h label hlabel).1
  have hlabels : labels? (dotted (labels.map writeLabel)) = some labels := by
    rw [labels?, fold?_plain hplain, Option.bind_eq_bind, Option.bind_some,
      compose_ascii fun c hc => (hplain c hc).1, hsplit, hread, Option.bind_eq_bind,
      Option.bind_some, if_pos hfit]
  rw [toAscii?, hlabels]
  rfl

/-- **An ASCII form is its own ASCII form**, and made of characters that count. -/
theorem toAscii?_self (h : toAscii? cs = some out) :
    toAscii? out = some out ∧ ∀ c ∈ out, IsPlain c := by
  unfold toAscii? at h
  obtain ⟨labels, hlabels, rfl⟩ := Option.map_eq_some_iff.1 h
  unfold labels? at hlabels
  obtain ⟨folded, -, hlabels⟩ := Option.bind_eq_some_iff.1 hlabels
  obtain ⟨labels', hread, hlabels⟩ := Option.bind_eq_some_iff.1 hlabels
  split at hlabels
  · next hfit =>
    cases hlabels
    have hall : ∀ label ∈ labels, isLabel label = true ∧ '.' ∉ label := by
      intro label hlabel
      obtain ⟨written, hwritten, hread⟩ := exists_of_mapM hread label hlabel
      exact isLabel_of_readLabel? hread (not_mem_of_mem_splitOn hwritten)
    have hne : labels ≠ [] := by
      have hlength := length_of_mapM hread
      have hsome := List.length_pos_iff.2 (List.splitOn_ne_nil '.' (compose folded))
      exact List.length_pos_iff.1 (by omega)
    refine ⟨toAscii?_labels hne hall hfit, ?_⟩
    intro c hc
    rcases mem_dotted hc with rfl | ⟨written, hmem, hc⟩
    · decide
    · obtain ⟨label, hlabel, rfl⟩ := List.mem_map.1 hmem
      exact isPlain_writeLabel (hall label hlabel).1 c hc
  · cases hlabels

/-! ### Numbers -/

theorem isPlain_of_isDigit (h : Decimal.isDigit c = true) : IsPlain c := by
  obtain ⟨d, hd, rfl⟩ := Decimal.exists_digitChar h
  have hall : ∀ d < 10, IsPlain (Decimal.digitChar d) := by decide
  exact hall d hd

/-- A text of ASCII holds no joiners. -/
theorem joinersFit_ascii (h : ∀ c ∈ cs, c.toNat < 128) : ∀ before, joinersFit before cs = true := by
  induction cs with
  | nil =>
    intro before
    rfl
  | cons c rest ih =>
    intro before
    obtain ⟨hc, hrest⟩ := List.forall_mem_cons.1 h
    have hjoiner : isJoiner c = false := by
      unfold isJoiner
      rw [Bool.or_eq_false_iff, beq_eq_false_iff_ne, beq_eq_false_iff_ne]
      refine ⟨?_, by omega⟩
      rintro rfl
      exact absurd hc (by decide)
    rw [joinersFit, hjoiner, ih hrest]
    rfl

/-- The directions of ASCII do not matter. -/
theorem directionsFit_ascii (h : ∀ label ∈ labels, ∀ c ∈ label, c.toNat < 128) :
    directionsFit labels = true := by
  have hnone : (labels.map (·.map Direction.of)).any (·.any Direction.matters) = false := by
    rw [List.any_eq_false]
    rintro directions hmem hmatters
    obtain ⟨label, hlabel, rfl⟩ := List.mem_map.1 hmem
    obtain ⟨direction, hmem, hmatters⟩ := List.any_eq_true.1 hmatters
    obtain ⟨c, hc, rfl⟩ := List.mem_map.1 hmem
    have hascii := h label hlabel c hc
    unfold Direction.of at hmatters
    dsimp only at hmatters
    rw [if_pos hascii] at hmatters
    split at hmatters
    · cases hmatters
    · split at hmatters <;> cases hmatters
  unfold directionsFit
  dsimp only
  rw [hnone]
  rfl

/-- Digits are a label. -/
theorem isLabel_digits (h : ∀ c ∈ label, Decimal.isDigit c = true) : isLabel label = true := by
  have hplain : ∀ c ∈ label, IsPlain c := fun c hc => isPlain_of_isDigit (h c hc)
  have hascii : ∀ c ∈ label, c.toNat < 128 := fun c hc => (hplain c hc).1
  rw [isLabel_iff]
  refine ⟨fun c hc => (hplain c hc).2, compose_ascii hascii, ?_, joinersFit_ascii hascii _, ?_⟩
  · rw [Option.any_eq_false]
    intro c hc
    have := hascii c (List.mem_of_mem_head? hc)
    simp [Text.isMark]
    omega
  · unfold punycoded?
    split
    · exact absurd (h 'x' List.mem_cons_self) (by decide)
    · rfl

/-- **Numbers with dots between are their own ASCII form.** -/
theorem toAscii?_dotted (hne : labels ≠ [])
    (h : ∀ label ∈ labels, ∀ c ∈ label, Decimal.isDigit c = true) :
    toAscii? (dotted labels) = some (dotted labels) := by
  have hascii : ∀ label ∈ labels, ∀ c ∈ label, c.toNat < 128 := by
    intro label hlabel c hc
    exact (isPlain_of_isDigit (h label hlabel c hc)).1
  have hwritten : labels.map writeLabel = labels := by
    refine (List.map_congr_left fun label hlabel => ?_).trans (List.map_id _)
    refine if_pos (List.all_eq_true.2 fun c hc => ?_)
    exact decide_eq_true (hascii label hlabel c hc)
  have hself := toAscii?_labels hne ?_ (directionsFit_ascii hascii)
  · rwa [hwritten] at hself
  · intro label hlabel
    refine ⟨isLabel_digits (h label hlabel), fun hdot => ?_⟩
    exact absurd (h label hlabel '.' hdot) (by decide)

end TelemetryRelay.Domain
