import Mathlib.Data.List.TakeWhile
import TelemetryRelay.Proofs.Dictionary.Acceptance
import TelemetryRelay.Proofs.Json.Readers

/-!
# Which loosely typed schemas are accepted

A loosely typed schema becomes a schema in two layers: the boundary looks at what is there and of
which kind it is, and `Schema.make` looks at the declaration. Taken together they accept a schema
exactly if it converts (`RawSchema.Converts`), and report the first of its faults otherwise
(`RawSchema.FirstFault`).

* `Format.parse?_eq_some_iff`: the tags that name an encoding.
* `RawSchema.numericBound_eq`: what becomes of a bound.
* `RawSchema.exists_outcome`: every schema converts or has a first fault.
* `checkVariants_exact`: **a schema converts, or its first fault is reported with the measurement**.
-/

namespace TelemetryRelay

/-! ### Tags -/

namespace Text

variable {before word after cs : List Char} {c : Char}

/-- Putting a letter into lower case makes no blank, and loses none. -/
theorem isBlank_lower (c : Char) :
    isBlank (if 'A' ≤ c ∧ c ≤ 'Z' then Char.ofNat (c.toNat + 32) else c) = isBlank c := by
  split
  · next h =>
    obtain ⟨hlow, hhigh⟩ := h
    have hlow : 65 ≤ c.toNat := hlow
    have hhigh : c.toNat ≤ 90 := hhigh
    have hvalid : (c.toNat + 32).isValidChar := .inl (by omega)
    have hnat : (Char.ofNat (c.toNat + 32)).toNat = c.toNat + 32 := by
      rw [Char.toNat_ofNat, if_pos hvalid]
    have hupper : isBlank c = false := by
      simp [isBlank]
      omega
    have hlower : isBlank (Char.ofNat (c.toNat + 32)) = false := by
      simp [isBlank, hnat]
      omega
    rw [hupper, hlower]
  · rfl

/-- **Trimming takes the blanks around a text away**, and nothing else. -/
theorem trim_eq {s : String} (hs : s.toList = before ++ word ++ after)
    (hbefore : ∀ c ∈ before, isBlank c = true) (hword : ∀ c ∈ word, isBlank c = false)
    (hafter : ∀ c ∈ after, isBlank c = true) : trim s = String.ofList word := by
  have hstop : ∀ {cs : List Char}, (∀ c ∈ cs, isBlank c = false) → cs.dropWhile isBlank = cs := by
    intro cs h
    cases cs with
    | nil => rfl
    | cons c cs =>
      rw [List.dropWhile_cons_of_neg]
      simp [h c List.mem_cons_self]
  have hrev : ∀ c ∈ after.reverse, isBlank c = true := by
    intro c hc
    exact hafter c (List.mem_reverse.1 hc)
  have hwordrev : ∀ c ∈ word.reverse, isBlank c = false := by
    intro c hc
    exact hword c (List.mem_reverse.1 hc)
  unfold trim
  rw [hs, List.append_assoc, List.dropWhile_append_of_pos hbefore]
  congr 1
  cases word with
  | nil =>
    have hnone : after.dropWhile isBlank = [] := List.dropWhile_eq_nil_iff.2 hafter
    simp [hnone]
  | cons c word =>
    have hc : ¬ isBlank c = true := by simp [hword c List.mem_cons_self]
    rw [List.cons_append, List.dropWhile_cons_of_neg hc, ← List.cons_append, List.reverse_append,
      List.dropWhile_append_of_pos hrev, hstop hwordrev, List.reverse_reverse]

/-- A text is its trimmed text with blanks around. -/
theorem exists_blanks (s : String) : ∃ before after, s.toList = before ++ (trim s).toList ++ after ∧
    (∀ c ∈ before, isBlank c = true) ∧ ∀ c ∈ after, isBlank c = true := by
  let tail := s.toList.dropWhile isBlank
  have hfront : s.toList = s.toList.takeWhile isBlank ++ tail :=
    List.takeWhile_append_dropWhile.symm
  have hback : tail = (trim s).toList ++ (tail.reverse.takeWhile isBlank).reverse := by
    rw [trim, String.toList_ofList, ← List.reverse_append, List.takeWhile_append_dropWhile,
      List.reverse_reverse]
  refine ⟨s.toList.takeWhile isBlank, (tail.reverse.takeWhile isBlank).reverse, ?_, ?_, ?_⟩
  · rw [List.append_assoc, ← hback, ← hfront]
  · intro c hc
    exact List.mem_takeWhile_imp hc
  · intro c hc
    exact List.mem_takeWhile_imp (List.mem_reverse.1 hc)

end Text

namespace Format

variable {tag : String} {f : Format}

/-- The words that name an encoding. -/
def words : Format → List String
  | .float => ["float"]
  | .integer => ["integer", "int"]
  | .string => ["string"]
  | .enumeration => ["enum"]
  | .utc => ["utc"]

/-- **A tag that names an encoding**: one of its words, in small or capital ASCII letters, with
blanks around it. -/
def NamedBy (f : Format) (tag : String) : Prop :=
  ∃ before word after, tag.toList = before ++ word ++ after ∧
    (∀ c ∈ before, Text.isBlank c = true) ∧ (∀ c ∈ after, Text.isBlank c = true) ∧
    Text.lowerAscii (String.ofList word) ∈ f.words

theorem parse?_of_words {tag : String} : ∀ {f : Format},
    Text.lowerAscii (Text.trim tag) ∈ f.words → parse? tag = some f := by
  intro f h
  cases f with
  | integer =>
    rcases List.mem_cons.1 h with h | h
    · simp only [parse?, h]
    · simp only [parse?, List.mem_singleton.1 h]
  | _ => simp only [parse?, List.mem_singleton.1 h]

theorem words_of_parse? (h : parse? tag = some f) :
    Text.lowerAscii (Text.trim tag) ∈ f.words := by
  unfold parse? at h
  split at h <;> cases h <;> simp_all [words]

/-- Words hold no blanks. -/
theorem not_isBlank_of_mem_words {w : String} (h : w ∈ f.words) :
    ∀ c ∈ w.toList, Text.isBlank c = false := by
  have hall : ∀ f : Format, ∀ w ∈ f.words, ∀ c ∈ w.toList, Text.isBlank c = false := by
    intro f
    cases f <;> simp [words, Text.isBlank]
  exact hall f w h

/-- **The tags that name an encoding.** -/
theorem parse?_eq_some_iff : parse? tag = some f ↔ f.NamedBy tag := by
  constructor
  · intro h
    obtain ⟨before, after, htag, hbefore, hafter⟩ := Text.exists_blanks tag
    refine ⟨before, (Text.trim tag).toList, after, htag, hbefore, hafter, ?_⟩
    rw [String.ofList_toList]
    exact words_of_parse? h
  · rintro ⟨before, word, after, htag, hbefore, hafter, hword⟩
    have hsolid : ∀ c ∈ word, Text.isBlank c = false := by
      intro c hc
      rw [← Text.isBlank_lower]
      apply not_isBlank_of_mem_words hword
      rw [Text.lowerAscii, String.toList_ofList, String.toList_ofList]
      exact List.mem_map_of_mem hc
    apply parse?_of_words
    rw [Text.trim_eq htag hbefore hsolid hafter]
    exact hword

/-- A tag names one encoding at most. -/
theorem NamedBy.unique {g : Format} (hf : f.NamedBy tag) (hg : g.NamedBy tag) : f = g := by
  rw [← parse?_eq_some_iff] at hf hg
  exact Option.some.inj (hf.symm.trans hg)

theorem isNumeric_iff : f.isNumeric = true ↔ f = .float ∨ f = .integer := by
  cases f <;> decide

end Format

/-! ### Bounds -/

namespace Json

/-- The double of a value that may be missing; there is none if it is no number. -/
def doubleOf : Option Json → Option Float
  | some (.number n) => some n.toFloat
  | _ => none

/-- Neither null nor a number. -/
def IsOther : Json → Prop
  | .null => False
  | .number _ => False
  | _ => True

end Json

namespace RawSchema

variable {raw : RawSchema} {s : Schema} {units : String} {format : Format} {fault : SchemaFault}
  {bound : Bound} {j : Option Json}

/-- The numbers of a schema are numbers of a document. -/
def Representable (raw : RawSchema) : Prop :=
  ∀ n, raw.min = some (.number n) ∨ raw.max = some (.number n) → n.Representable

/-- **What becomes of a bound.** It is refused in one case: it is neither null nor a number, and the
format is numeric. -/
theorem numericBound_eq (hj : format.isNumeric = true → ∀ v, j = some v → ¬ v.IsOther) :
    numericBound bound format j = .ok (Json.doubleOf j) := by
  unfold numericBound
  split
  · rfl
  · rfl
  · rfl
  · next other hnull hnumber =>
    have hother : other.IsOther := by
      cases other with
      | null => exact absurd rfl hnull
      | number n => exact absurd rfl (hnumber n)
      | _ => trivial
    have hdouble : Json.doubleOf (some other) = none := by
      cases other with
      | number n => exact absurd rfl (hnumber n)
      | _ => rfl
    have hnum : ¬ format.isNumeric = true := fun hnum => hj hnum other rfl hother
    rw [if_neg hnum, hdouble]

theorem numericBound_error {v : Json} (hnum : format.isNumeric = true) (hv : v.IsOther) :
    numericBound bound format (some v) = .error (.boundNotNumeric bound v) := by
  cases v with
  | null => cases hv
  | number n => cases hv
  | _ => exact if_pos hnum

end RawSchema

namespace Schema

variable {units : String} {format : Format} {min max : Option Float}

/-- **What `make` refuses among finite bounds.** -/
theorem make_eq (hmin : boundDefect? .min min = none) (hmax : boundDefect? .max max = none) :
    make units format min max =
      if Text.isBlankText units then .error .emptyUnits
      else if format.isNumeric && (min.isNone || max.isNone) then .error (.missingBounds format)
      else .ok ⟨units, format, min, max⟩ := by
  unfold make
  rw [hmin, hmax]

end Schema

/-! ### Schemas -/

namespace RawSchema

variable {raw : RawSchema} {s : Schema} {units : String} {format : Format} {fault : SchemaFault}
  {bound : Bound} {j : Option Json}

/-- The units of a schema and its format. -/
structure Declares (raw : RawSchema) (units : String) (format : Format) : Prop where
  units : raw.units = some units
  format : ∃ tag, raw.format = some tag ∧ format.NamedBy tag

/-- A bound that is a number. -/
def IsNumber (j : Option Json) : Prop := ∃ n, j = some (.number n)

/-- **A schema that is accepted**: its units are not blank, its format is known, and both bounds are
numbers if the format is numeric. -/
structure Acceptable (raw : RawSchema) (units : String) (format : Format) : Prop where
  declares : raw.Declares units format
  nonBlank : Text.NonBlank units
  bounds : format = .float ∨ format = .integer → IsNumber raw.min ∧ IsNumber raw.max

/-- **The schema that a loosely typed one becomes**: the units as they are, the format that the tag
names, and the doubles of the bounds that are numbers. -/
structure Converts (raw : RawSchema) (s : Schema) : Prop where
  acceptable : raw.Acceptable s.units s.format
  min : s.min = Json.doubleOf raw.min
  max : s.max = Json.doubleOf raw.max

/-- A bound that a numeric format refuses. -/
def Refuses (format : Format) (j : Option Json) : Prop :=
  (format = .float ∨ format = .integer) ∧ ∃ v, j = some v ∧ v.IsOther

/-- **What can be wrong with a schema.** Each fault is looked for after those above it. -/
inductive FirstFault (raw : RawSchema) : SchemaFault → Prop where
  | missingUnits (hu : raw.units = none) : FirstFault raw .missingUnits
  | missingFormat {units : String} (hu : raw.units = some units) (hf : raw.format = none) :
    FirstFault raw .missingFormat
  | unknownFormat {units tag : String} (hu : raw.units = some units) (hf : raw.format = some tag)
    (hn : ∀ f : Format, ¬ f.NamedBy tag) : FirstFault raw (.unknownFormat tag)
  | min {units : String} {format : Format} {v : Json} (hd : raw.Declares units format)
    (hn : format = .float ∨ format = .integer) (hv : raw.min = some v) (ho : v.IsOther) :
    FirstFault raw (.boundNotNumeric .min v)
  | max {units : String} {format : Format} {v : Json} (hd : raw.Declares units format)
    (hn : format = .float ∨ format = .integer) (hmin : ¬ Refuses format raw.min)
    (hv : raw.max = some v) (ho : v.IsOther) : FirstFault raw (.boundNotNumeric .max v)
  | blankUnits {units : String} {format : Format} (hd : raw.Declares units format)
    (hmin : ¬ Refuses format raw.min) (hmax : ¬ Refuses format raw.max)
    (hb : ¬ Text.NonBlank units) : FirstFault raw (.defect .emptyUnits)
  | missingBounds {units : String} {format : Format} (hd : raw.Declares units format)
    (hmin : ¬ Refuses format raw.min) (hmax : ¬ Refuses format raw.max)
    (hb : Text.NonBlank units) (hn : format = .float ∨ format = .integer)
    (hnone : ¬ (IsNumber raw.min ∧ IsNumber raw.max)) :
    FirstFault raw (.defect (.missingBounds format))

theorem isNumber_iff : IsNumber j ↔ (Json.doubleOf j).isSome := by
  constructor
  · rintro ⟨n, rfl⟩
    rfl
  · intro h
    unfold Json.doubleOf at h
    split at h
    · next n => exact ⟨n, rfl⟩
    · cases h

/-- A number is not refused. -/
theorem not_refuses_of_isNumber (h : IsNumber j) : ¬ Refuses format j := by
  obtain ⟨n, rfl⟩ := h
  rintro ⟨-, v, hv, ho⟩
  cases hv
  exact ho

/-- The doubles of bounds are finite. -/
theorem Representable.boundDefect? (h : raw.Representable)
    (hj : j = raw.min ∨ j = raw.max) : Schema.boundDefect? bound (Json.doubleOf j) = none := by
  unfold Json.doubleOf
  split
  · next n =>
    have hn : n.Representable := by
      apply h n
      exact hj.imp Eq.symm Eq.symm
    simp [Schema.boundDefect?, hn.finite]
  · rfl

/-- The units and the format of a schema are read first. -/
theorem toSchema_eq_of_declares (hd : raw.Declares units format) : raw.toSchema =
    match numericBound .min format raw.min with
    | .error fault => .error fault
    | .ok min =>
      match numericBound .max format raw.max with
      | .error fault => .error fault
      | .ok max =>
        match Schema.make units format min max with
        | .error d => .error (.defect d)
        | .ok schema => .ok schema := by
  obtain ⟨hu, tag, hf, hn⟩ := hd
  rw [← Format.parse?_eq_some_iff] at hn
  unfold toSchema
  rw [hu, hf]
  dsimp only
  rewrite [hn]
  rfl

/-- Bounds that are not refused are read, and then the declaration is checked. -/
theorem toSchema_eq_of_bounds (hr : raw.Representable) (hd : raw.Declares units format)
    (hmin : ¬ Refuses format raw.min) (hmax : ¬ Refuses format raw.max) : raw.toSchema =
      if Text.isBlankText units then .error (.defect .emptyUnits)
      else if format.isNumeric &&
        ((Json.doubleOf raw.min).isNone || (Json.doubleOf raw.max).isNone) then
        .error (.defect (.missingBounds format))
      else .ok ⟨units, format, Json.doubleOf raw.min, Json.doubleOf raw.max⟩ := by
  have hread : ∀ {j : Option Json} {bound : Bound}, ¬ Refuses format j →
      numericBound bound format j = .ok (Json.doubleOf j) := by
    intro j bound hj
    apply numericBound_eq
    intro hnum v hv ho
    exact hj ⟨Format.isNumeric_iff.1 hnum, v, hv, ho⟩
  rw [toSchema_eq_of_declares hd, hread hmin, hread hmax]
  dsimp only
  rw [Schema.make_eq (hr.boundDefect? (.inl rfl)) (hr.boundDefect? (.inr rfl))]
  by_cases hblank : Text.isBlankText units = true
  · rw [if_pos hblank, if_pos hblank]
  · rw [if_neg hblank, if_neg hblank]
    by_cases hmissing : (format.isNumeric &&
        ((Json.doubleOf raw.min).isNone || (Json.doubleOf raw.max).isNone)) = true
    · rw [if_pos hmissing, if_pos hmissing]
    · rw [if_neg hmissing, if_neg hmissing]

/-- A schema that converts is accepted. -/
theorem Converts.toSchema (hr : raw.Representable) (h : raw.Converts s) :
    raw.toSchema = .ok s := by
  obtain ⟨⟨hd, hblank, hbounds⟩, hmin, hmax⟩ := h
  have hnot : ∀ {j : Option Json}, (s.format = .float ∨ s.format = .integer → IsNumber j) →
      ¬ Refuses s.format j := by
    intro j hj hrefuses
    exact not_refuses_of_isNumber (hj hrefuses.1) hrefuses
  have hsome : ¬ (s.format.isNumeric &&
      ((Json.doubleOf raw.min).isNone || (Json.doubleOf raw.max).isNone)) = true := by
    intro hnone
    rw [Bool.and_eq_true] at hnone
    obtain ⟨hnmin, hnmax⟩ := hbounds (Format.isNumeric_iff.1 hnone.1)
    rw [isNumber_iff] at hnmin hnmax
    simp [Option.isNone_iff_eq_none, Option.isSome_iff_ne_none.1 hnmin,
      Option.isSome_iff_ne_none.1 hnmax] at hnone
  rw [toSchema_eq_of_bounds hr hd (hnot fun hn => (hbounds hn).1) (hnot fun hn => (hbounds hn).2),
    Text.nonBlank_iff.1 hblank, if_neg Bool.false_ne_true, if_neg hsome, ← hmin, ← hmax]

/-- A first fault is reported. -/
theorem FirstFault.toSchema (hr : raw.Representable) (h : raw.FirstFault fault) :
    raw.toSchema = .error fault := by
  cases h with
  | missingUnits hu => simp only [RawSchema.toSchema, hu]
  | missingFormat hu hf => simp only [RawSchema.toSchema, hu, hf]
  | unknownFormat hu hf hn =>
    rename_i units tag
    have hnone : Format.parse? tag = none := by
      rw [Option.eq_none_iff_forall_ne_some]
      intro f hf
      exact hn f (Format.parse?_eq_some_iff.1 hf)
    simp only [RawSchema.toSchema, hu, hf, hnone]
  | min hd hn hv ho =>
    rw [toSchema_eq_of_declares hd, hv, numericBound_error (Format.isNumeric_iff.2 hn) ho]
  | max hd hn hmin hv ho =>
    rename_i units format v
    -- the minimum is read first, and is not refused
    have hread : numericBound .min format raw.min = .ok (Json.doubleOf raw.min) := by
      apply numericBound_eq
      intro _ v hv ho
      exact hmin ⟨hn, v, hv, ho⟩
    rw [toSchema_eq_of_declares hd, hread, hv, numericBound_error (Format.isNumeric_iff.2 hn) ho]
  | blankUnits hd hmin hmax hb =>
    rw [Text.nonBlank_iff, Bool.not_eq_false] at hb
    rw [toSchema_eq_of_bounds hr hd hmin hmax, if_pos hb]
  | missingBounds hd hmin hmax hb hn hnone =>
    rename_i units format
    have hmissing : (format.isNumeric &&
        ((Json.doubleOf raw.min).isNone || (Json.doubleOf raw.max).isNone)) = true := by
      rw [isNumber_iff, isNumber_iff, not_and_or, Option.not_isSome_iff_eq_none,
        Option.not_isSome_iff_eq_none] at hnone
      rw [Bool.and_eq_true, Bool.or_eq_true, Option.isNone_iff_eq_none, Option.isNone_iff_eq_none]
      exact ⟨Format.isNumeric_iff.2 hn, hnone⟩
    rw [toSchema_eq_of_bounds hr hd hmin hmax, Text.nonBlank_iff.1 hb, if_neg Bool.false_ne_true,
      if_pos hmissing]

/-- **Every schema converts or has a first fault.** -/
theorem exists_outcome (raw : RawSchema) :
    (∃ s, raw.Converts s) ∨ ∃ fault, raw.FirstFault fault := by
  -- one thing after the other that can be wrong, in the order in which they are looked for
  cases hu : raw.units with
  | none => exact .inr ⟨_, .missingUnits hu⟩
  | some units =>
  cases hf : raw.format with
  | none => exact .inr ⟨_, .missingFormat hu hf⟩
  | some tag =>
  by_cases hnamed : ∃ f : Format, f.NamedBy tag
  swap
  · exact .inr ⟨_, .unknownFormat hu hf (not_exists.1 hnamed)⟩
  obtain ⟨format, hnamed⟩ := hnamed
  have hd : raw.Declares units format := ⟨hu, tag, hf, hnamed⟩
  by_cases hmin : Refuses format raw.min
  · obtain ⟨hn, v, hv, ho⟩ := hmin
    exact .inr ⟨_, .min hd hn hv ho⟩
  by_cases hmax : Refuses format raw.max
  · obtain ⟨hn, v, hv, ho⟩ := hmax
    exact .inr ⟨_, .max hd hn hmin hv ho⟩
  by_cases hb : Text.NonBlank units
  swap
  · exact .inr ⟨_, .blankUnits hd hmin hmax hb⟩
  by_cases hbounds : format = .float ∨ format = .integer → IsNumber raw.min ∧ IsNumber raw.max
  · exact .inl ⟨⟨units, format, _, _⟩, ⟨hd, hb, hbounds⟩, rfl, rfl⟩
  · rw [Classical.not_imp] at hbounds
    exact .inr ⟨_, .missingBounds hd hmin hmax hb hbounds.1 hbounds.2⟩

end RawSchema

namespace Dictionary

variable {name : String} {raw : RawSchema}

theorem checkVariants_singleton_of_ok {s : Schema} (h : raw.toSchema = .ok s) :
    checkVariants name [raw] = .ok [s] := by
  simp only [checkVariants, h]
  rfl

theorem checkVariants_singleton_of_error {fault : SchemaFault} (h : raw.toSchema = .error fault) :
    checkVariants name [raw] = .error (.invalidSchema name fault) := by
  simp only [checkVariants, h]

/-- **A loosely typed schema is accepted exactly if it is valid.** It becomes the schema with its
units, its format and the doubles of its bounds, which passes its own check; and otherwise its first
fault is reported with the name of the measurement. No bound is reported for not being finite. -/
theorem checkVariants_exact (name : String) {raw : RawSchema} (hr : raw.Representable) :
    (∀ s, checkVariants name [raw] = .ok [s] ↔ raw.Converts s) ∧
    (∀ e, checkVariants name [raw] = .error e ↔
      ∃ fault, raw.FirstFault fault ∧ e = .invalidSchema name fault) ∧
    ((∃ schemas, checkVariants name [raw] = .ok schemas) ↔
      ∃ units format, raw.Acceptable units format) ∧
    (∀ s, raw.Converts s → Schema.make s.units s.format s.min s.max = .ok s) ∧
    ∀ bound value, checkVariants name [raw] ≠
      .error (.invalidSchema name (.defect (.nonFiniteBound bound value))) := by
  have hok : ∀ {s}, raw.Converts s → checkVariants name [raw] = .ok [s] := by
    intro s hs
    exact checkVariants_singleton_of_ok (hs.toSchema hr)
  have herror : ∀ {fault}, raw.FirstFault fault →
      checkVariants name [raw] = .error (.invalidSchema name fault) := by
    intro fault hf
    exact checkVariants_singleton_of_error (hf.toSchema hr)
  -- there always is an outcome that is known, and so no other result
  have hreport : ∀ e, checkVariants name [raw] = .error e ↔
      ∃ fault, raw.FirstFault fault ∧ e = .invalidSchema name fault := by
    intro e
    constructor
    · intro he
      rcases raw.exists_outcome with ⟨s, hs⟩ | ⟨fault, hf⟩
      · rw [hok hs] at he
        cases he
      · rw [herror hf] at he
        cases he
        exact ⟨fault, hf, rfl⟩
    · rintro ⟨fault, hf, rfl⟩
      exact herror hf
  have haccept : ∀ schemas, checkVariants name [raw] = .ok schemas →
      ∃ s, raw.Converts s ∧ schemas = [s] := by
    intro schemas hs
    rcases raw.exists_outcome with ⟨s, hconverts⟩ | ⟨fault, hf⟩
    · rw [hok hconverts] at hs
      cases hs
      exact ⟨s, hconverts, rfl⟩
    · rw [herror hf] at hs
      cases hs
  refine ⟨?_, hreport, ?_, ?_, ?_⟩
  · intro s
    constructor
    · intro hs
      obtain ⟨t, ht, heq⟩ := haccept _ hs
      cases heq
      exact ht
    · exact hok
  · constructor
    · rintro ⟨schemas, hs⟩
      obtain ⟨s, hconverts, -⟩ := haccept schemas hs
      exact ⟨_, _, hconverts.acceptable⟩
    · rintro ⟨units, format, h⟩
      exact ⟨_, hok (s := ⟨units, format, _, _⟩) ⟨h, rfl, rfl⟩⟩
  · intro s hs
    exact RawSchema.checked_of_toSchema (hs.toSchema hr)
  · intro bound value hbad
    obtain ⟨fault, hf, heq⟩ := (hreport _).1 hbad
    cases heq
    cases hf

/-- A schema with units between blanks and a format in other letters. -/
theorem checkVariants_exact_altitude :
    (⟨some " m ", some " Float\t", some (.number (.integer 0)), some (.number (.integer 10))⟩ :
      RawSchema).Representable ∧
    checkVariants "altitude" [⟨some " m ", some " Float\t", some (.number (.integer 0)),
      some (.number (.integer 10))⟩] =
      .ok [⟨" m ", .float, some (Float.ofInt 0), some (Float.ofInt 10)⟩] := by
  have hr : (⟨some " m ", some " Float\t", some (.number (.integer 0)),
      some (.number (.integer 10))⟩ : RawSchema).Representable := by
    rintro n (hn | hn)
    · cases hn
      exact ⟨by decide, by decide⟩
    · cases hn
      exact ⟨by decide, by decide⟩
  refine ⟨hr, ((checkVariants_exact "altitude" hr).1 _).2 ⟨⟨⟨rfl, _, rfl, ?_⟩, ?_, ?_⟩, rfl, rfl⟩⟩
  · exact ⟨[' '], ['F', 'l', 'o', 'a', 't'], ['\t'], by decide, by simp [Text.isBlank],
      by simp [Text.isBlank], by decide⟩
  · exact ⟨'m', by decide, by decide⟩
  · exact fun _ => ⟨⟨_, rfl⟩, ⟨_, rfl⟩⟩

end Dictionary

end TelemetryRelay
