import TelemetryRelay.Configuration.DictionaryFile
import TelemetryRelay.Proofs.Configuration.Settings

/-!
# What files declare

A path names a file and the format of it (`DictionaryFile.Names`), and the settings in that file
list dictionaries (`DictionaryFile.Lists`). Both are said here without the readers, and the readers
are shown to find out exactly that.

* `RawSchema.ofSetting?_eq_some_iff`, `MeasurementDefinition.ofSetting?_eq_some_iff`,
  `DictionaryDefinition.ofSetting?_eq_some_iff`: what single settings declare.
* `listOf?_eq_some_iff`: which dictionaries the settings of a file list.
* `find?_eq_some_iff`: which file a path names.
* `definitions?_eq_some_iff`: **the definitions in the file that a path names**.
-/

namespace TelemetryRelay

namespace Setting

/-- Any setting is a document; null is none. -/
def IsDocument (s : Setting) (j : Option Json) : Prop := s.toJson.canonical.asOptional = j

/-- The fields of a schema, in their order. -/
def schemaFields : List String := ["units", "format", "min", "max"]

/-- **A setting that declares a variant.** Each of its fields may be left out. -/
structure IsSchema (s : Setting) (raw : RawSchema) : Prop where
  record : s.IsRecord
  units : s.MaySay schemaFields "units" IsOptionalText none raw.units
  format : s.MaySay schemaFields "format" IsOptionalText none raw.format
  min : s.MaySay schemaFields "min" IsDocument none raw.min
  max : s.MaySay schemaFields "max" IsDocument none raw.max

/-- The fields of a measurement, in their order. -/
def measurementFields : List String := ["name", "channel", "values"]

/-- **A setting that declares a measurement.** It need not list any variants. -/
structure IsMeasurement (s : Setting) (m : MeasurementDefinition) : Prop where
  record : s.IsRecord
  name : s.Says measurementFields "name" IsText m.name
  channel : s.Says measurementFields "channel" IsText m.channel
  values : s.MaySay measurementFields "values" (IsList IsSchema) [] m.values

/-- The fields of a dictionary, in their order. -/
def dictionaryFields : List String := ["name", "key", "measurements"]

/-- **A setting that declares a dictionary.** It need not list any measurements. -/
structure IsDictionary (s : Setting) (d : DictionaryDefinition) : Prop where
  record : s.IsRecord
  title : s.Says dictionaryFields "name" IsText d.title
  key : s.Says dictionaryFields "key" IsText d.key
  measurements : s.MaySay dictionaryFields "measurements" (IsList IsMeasurement) [] d.measurements

end Setting

/-! ### Reading declarations -/

open Setting

variable {s : Setting}

namespace RawSchema

/-- **The variant that a setting declares.** -/
theorem ofSetting?_eq_some_iff {raw : RawSchema} : ofSetting? s = some raw ↔ s.IsSchema raw := by
  have hn : schemaFields.Nodup := by decide
  have htext : ∀ (v : Setting) (o : Option String), v.optionalText? = some o ↔ v.IsOptionalText o :=
    fun _ _ => optionalText?_eq_some_iff
  have hdocument : ∀ (v : Setting) (j : Option Json),
      some v.toJson.canonical.asOptional = some j ↔ v.IsDocument j :=
    fun _ _ => Option.some_inj
  have hfields : ∀ draft : RawSchema, takeAll take? schemaFields s schemaFields {} = some draft ↔
      ∃ units, s.MaySay schemaFields "units" IsOptionalText none units ∧
      ∃ format, s.MaySay schemaFields "format" IsOptionalText none format ∧
      ∃ min, s.MaySay schemaFields "min" IsDocument none min ∧
      ∃ max, s.MaySay schemaFields "max" IsDocument none max ∧
        some (⟨units, format, min, max⟩ : RawSchema) = some draft := by
    intro draft
    refine Iff.trans (takeAll_cons_eq_some_iff hn htext (⟨·, none, none, none⟩) (fun _ => rfl) rfl)
      (exists_congr fun units => and_congr_right fun _ => ?_)
    refine Iff.trans (takeAll_cons_eq_some_iff hn htext (⟨units, ·, none, none⟩) (fun _ => rfl) rfl)
      (exists_congr fun format => and_congr_right fun _ => ?_)
    refine Iff.trans (takeAll_cons_eq_some_iff hn hdocument (⟨units, format, ·, none⟩)
      (fun _ => rfl) rfl) (exists_congr fun min => and_congr_right fun _ => ?_)
    exact Iff.trans (takeAll_cons_eq_some_iff hn hdocument (⟨units, format, min, ·⟩)
      (fun _ => rfl) rfl) (exists_congr fun max => and_congr_right fun _ => Iff.rfl)
  have hread : ofSetting? s = readRecord? schemaFields {} take? some s := rfl
  rw [hread, readRecord?_eq_some_iff hn]
  constructor
  · rintro ⟨hrecord, _, h, ⟨⟩⟩
    obtain ⟨units, hunits, format, hformat, min, hmin, max, hmax, ⟨⟩⟩ := (hfields raw).1 h
    exact ⟨hrecord, hunits, hformat, hmin, hmax⟩
  · rintro ⟨hrecord, hunits, hformat, hmin, hmax⟩
    exact ⟨hrecord, raw,
      (hfields raw).2 ⟨_, hunits, _, hformat, _, hmin, _, hmax, rfl⟩, rfl⟩

end RawSchema

namespace MeasurementDefinition

/-- A draft is finished if it has a name and a channel. -/
theorem finish_eq_some_iff {draft : MeasurementDraft} {m : MeasurementDefinition} :
    draft.finish.toOption = some m ↔ draft = ⟨some m.name, some m.channel, m.values⟩ := by
  obtain ⟨name, channel, values⟩ := draft
  obtain ⟨name', channel', values'⟩ := m
  cases name <;> cases channel <;> simp [MeasurementDraft.finish, Except.toOption]

/-- **The measurement that a setting declares.** -/
theorem ofSetting?_eq_some_iff {m : MeasurementDefinition} :
    ofSetting? s = some m ↔ s.IsMeasurement m := by
  have hn : measurementFields.Nodup := by decide
  have hfields := @takeAll_texts_list_eq_some_iff _ _ s take? MeasurementDraft.mk
    RawSchema.ofSetting? IsSchema "name" "channel" "values" m.name m.channel m.values hn
    (fun _ _ => RawSchema.ofSetting?_eq_some_iff) MeasurementDraft.mk.inj
    (fun v => by cases v <;> rfl) (fun _ v => by cases v <;> rfl) (fun _ _ v => by cases v <;> rfl)
  have hread : ofSetting? s =
    readRecord? measurementFields {} take? (fun draft => draft.finish.toOption) s := rfl
  rw [hread, readRecord?_eq_some_iff hn]
  simp only [finish_eq_some_iff]
  constructor
  · rintro ⟨hrecord, _, h, rfl⟩
    obtain ⟨hname, hchannel, hvalues⟩ := hfields.1 h
    exact ⟨hrecord, hname, hchannel, hvalues⟩
  · rintro ⟨hrecord, hname, hchannel, hvalues⟩
    exact ⟨hrecord, _, hfields.2 ⟨hname, hchannel, hvalues⟩, rfl⟩

end MeasurementDefinition

namespace DictionaryDefinition

/-- A draft is finished if it has a name and a key. -/
theorem finish_eq_some_iff {draft : DictionaryDraft} {d : DictionaryDefinition} :
    draft.finish.toOption = some d ↔ draft = ⟨some d.title, some d.key, d.measurements⟩ := by
  obtain ⟨name, key, measurements⟩ := draft
  obtain ⟨title, key', measurements'⟩ := d
  cases name <;> cases key <;> simp [DictionaryDraft.finish, Except.toOption]

/-- **The dictionary that a setting declares.** -/
theorem ofSetting?_eq_some_iff {d : DictionaryDefinition} :
    ofSetting? s = some d ↔ s.IsDictionary d := by
  have hn : dictionaryFields.Nodup := by decide
  have hfields := @takeAll_texts_list_eq_some_iff _ _ s take? DictionaryDraft.mk
    MeasurementDefinition.ofSetting? IsMeasurement "name" "key" "measurements" d.title d.key
    d.measurements hn (fun _ _ => MeasurementDefinition.ofSetting?_eq_some_iff)
    DictionaryDraft.mk.inj (fun v => by cases v <;> rfl) (fun _ v => by cases v <;> rfl)
    (fun _ _ v => by cases v <;> rfl)
  have hread : ofSetting? s =
    readRecord? dictionaryFields {} take? (fun draft => draft.finish.toOption) s := rfl
  rw [hread, readRecord?_eq_some_iff hn]
  simp only [finish_eq_some_iff]
  constructor
  · rintro ⟨hrecord, _, h, rfl⟩
    obtain ⟨htitle, hkey, hmeasurements⟩ := hfields.1 h
    exact ⟨hrecord, htitle, hkey, hmeasurements⟩
  · rintro ⟨hrecord, htitle, hkey, hmeasurements⟩
    exact ⟨hrecord, _, hfields.2 ⟨htitle, hkey, hmeasurements⟩, rfl⟩

end DictionaryDefinition

/-! ### Files -/

namespace DictionaryFile

/-- **What the settings of a file list**: the dictionaries in the list of that name, or none if there
is no such setting. -/
def Lists (entries : List (String × Setting)) (definitions : List DictionaryDefinition) : Prop :=
  (∃ s, Has entries "dictionaries" s ∧ IsList IsDictionary s definitions) ∨
    "dictionaries" ∉ entries.map (·.1) ∧ definitions = []

theorem listOf?_eq_some_iff {entries : List (String × Setting)}
    {definitions : List DictionaryDefinition} :
    DictionaryDefinition.listOf? entries = some definitions ↔ Lists entries definitions := by
  have hread : ∀ s d, DictionaryDefinition.ofSetting? s = some d ↔ s.IsDictionary d :=
    fun _ _ => DictionaryDefinition.ofSetting?_eq_some_iff
  unfold DictionaryDefinition.listOf?
  cases hs : lookup? "dictionaries" entries with
  | none =>
    have hno := lookup?_eq_none_iff.1 hs
    constructor
    · intro h
      cases h
      exact Or.inr ⟨hno, rfl⟩
    · rintro (⟨s, hhas, -⟩ | ⟨-, rfl⟩)
      · rw [lookup?_eq_some_iff.2 hhas] at hs
        cases hs
      · rfl
  | some s =>
    have hhas := lookup?_eq_some_iff.1 hs
    constructor
    · intro h
      exact Or.inl ⟨s, hhas, (items?_mapM_eq_some_iff hread).1 h⟩
    · rintro (⟨s', hhas', h⟩ | ⟨hno, -⟩)
      · obtain rfl : s' = s := Option.some.inj ((lookup?_eq_some_iff.2 hhas').symm.trans hs)
        exact (items?_mapM_eq_some_iff hread).2 h
      · rw [lookup?_eq_none_iff.2 hno] at hs
        cases hs

/-- What follows the last dot of a file's name, unless it is the first character. -/
def HasExtension (name extension : String) : Prop :=
  '.' ∉ extension.toList ∧ ∃ stem, stem ≠ "" ∧ name = stem ++ "." ++ extension

/-- **The file that a path names**: that of exactly this name, in the format of its extension; or, if
there is none, the first of those to which the path is completed, format by format. -/
inductive Names (library : FileLibrary) (read : String → Option String) (path : String) :
    FileFormat → String → Prop where
  | exact {name extension text : String} {format : FileFormat} (hread : read path = some text)
    (hname : fileName? path = some name) (he : HasExtension name extension)
    (hformat : extension ∈ format.extensions) : Names library read path format text
  | completed {stem extension text : String} {format : FileFormat} {earlier later : List FileFormat}
    {before after : List String} (hnone : read path = none) (hstem : stem? path = some stem)
    (horder : library.order = earlier ++ format :: later)
    (hearlier : ∀ f ∈ earlier, ∀ e ∈ f.extensions, read (stem ++ "." ++ e) = none)
    (hextensions : format.extensions = before ++ extension :: after)
    (hbefore : ∀ e ∈ before, read (stem ++ "." ++ e) = none)
    (hread : read (stem ++ "." ++ extension) = some text) :
    Names library read path format text

theorem extension?_eq_some_iff {name extension : String} :
    extension? name = some extension ↔ HasExtension name extension := by
  unfold extension?
  constructor
  · intro h
    split at h
    · next c d rest hdrop =>
      cases h
      have hc : c = '.' := by
        have hc := List.head_dropWhile_not (· != '.') (l := name.toList.reverse)
          (by rw [hdrop]; exact List.cons_ne_nil _ _)
        simpa [hdrop] using hc
      subst hc
      have hsplit := List.takeWhile_append_dropWhile (p := (· != '.')) (l := name.toList.reverse)
      rw [hdrop] at hsplit
      refine ⟨?_, String.ofList (d :: rest).reverse, by simp, ?_⟩
      · intro hmem
        rw [String.toList_ofList, List.mem_reverse] at hmem
        simpa using List.mem_takeWhile_imp hmem
      · have hname : name.toList = (d :: rest).reverse ++ '.' ::
            (name.toList.reverse.takeWhile (· != '.')).reverse := by
          have hback := congrArg List.reverse hsplit
          rw [List.reverse_reverse, List.reverse_append, List.reverse_cons,
            List.append_assoc] at hback
          exact hback.symm
        apply String.toList_injective
        rw [String.toList_append, String.toList_append, String.toList_ofList, String.toList_ofList]
        exact hname.trans (by simp)
    · cases h
  · rintro ⟨hno, stem, hstem, rfl⟩
    have hplain : ∀ c ∈ extension.toList.reverse, (c != '.') = true := by
      intro c hc
      rw [List.mem_reverse] at hc
      rw [bne_iff_ne]
      rintro rfl
      exact hno hc
    obtain ⟨c, rest, hrest⟩ : ∃ c rest, stem.toList.reverse = c :: rest :=
      List.exists_cons_of_ne_nil (by simpa using hstem)
    have hreverse : (stem ++ "." ++ extension).toList.reverse =
        extension.toList.reverse ++ '.' :: c :: rest := by
      rw [String.toList_append, String.toList_append, List.reverse_append, List.reverse_append,
        hrest]
      rfl
    rw [hreverse, List.dropWhile_append_of_pos hplain, List.takeWhile_append_of_pos hplain]
    simp

/-- No two formats share an extension. -/
theorem ofExtension?_eq_some_iff {extension : String} {format : FileFormat} :
    FileFormat.ofExtension? extension = some format ↔ extension ∈ format.extensions := by
  constructor
  · intro h
    simpa using List.find?_some h
  · intro h
    have hall : ∀ format : FileFormat, ∀ e ∈ format.extensions,
        FileFormat.ofExtension? e = some format := by
      intro format
      cases format <;> decide
    exact hall format extension h

variable {library : FileLibrary} {read : String → Option String} {path : String}

theorem find?_eq_some_iff {format : FileFormat} {text : String} :
    find? library read path = some (format, text) ↔ Names library read path format text := by
  unfold find?
  constructor
  · intro h
    cases hread : read path with
    | some found =>
      rw [hread] at h
      obtain ⟨_, hf, heq⟩ := Option.map_eq_some_iff.1 h
      cases heq
      obtain ⟨extension, he, hf⟩ := Option.bind_eq_some_iff.1 hf
      obtain ⟨name, hname, he⟩ := Option.bind_eq_some_iff.1 he
      exact .exact hread hname (extension?_eq_some_iff.1 he) (ofExtension?_eq_some_iff.1 hf)
    | none =>
      rw [hread] at h
      obtain ⟨stem, hstem, h⟩ := Option.bind_eq_some_iff.1 h
      obtain ⟨earlier, f, later, horder, h, hearlier⟩ := List.findSome?_eq_some_iff.1 h
      obtain ⟨before, extension, after, hextensions, h, hbefore⟩ := List.findSome?_eq_some_iff.1 h
      obtain ⟨_, hplace, heq⟩ := Option.map_eq_some_iff.1 h
      cases heq
      refine .completed hread hstem horder (fun g hg e he => ?_) hextensions
        (fun e he => Option.map_eq_none_iff.1 (hbefore e he)) hplace
      exact Option.map_eq_none_iff.1 (List.findSome?_eq_none_iff.1 (hearlier g hg) e he)
  · intro h
    cases h with
    | exact hread hname he hformat =>
      rw [hread]
      dsimp only
      rw [hname, Option.bind_some, extension?_eq_some_iff.2 he, Option.bind_some,
        ofExtension?_eq_some_iff.2 hformat, Option.map_some]
    | @completed stem extension _ _ _ _ _ _ hnone hstem horder hearlier hextensions hbefore hread =>
      rw [hnone]
      dsimp only
      rw [hstem, Option.bind_some, List.findSome?_eq_some_iff]
      refine ⟨_, format, _, horder, List.findSome?_eq_some_iff.2
        ⟨_, extension, _, hextensions, by rw [hread]; rfl, fun e he => ?_⟩, fun f hf => ?_⟩
      · rw [hbefore e he]; rfl
      · rw [List.findSome?_eq_none_iff]
        intro e he
        rw [hearlier f hf e he]
        rfl

/-- The text behind the mark of its encoding, if it begins with one. -/
inductive Unmarked : String → String → Prop where
  | marked {text : List Char} : Unmarked (String.ofList ('\ufeff' :: text)) (String.ofList text)
  | plain {text : String} (h : text.toList.head? ≠ some '\ufeff') : Unmarked text text

theorem withoutMark_eq_iff {text body : String} : withoutMark text = body ↔ Unmarked text body := by
  unfold withoutMark
  constructor
  · rintro rfl
    split
    · next rest h =>
      have htext : text = String.ofList ('\ufeff' :: rest) := by rw [← h, String.ofList_toList]
      rw [htext]
      exact .marked
    · next h =>
      refine .plain fun hhead => ?_
      obtain ⟨rest, hrest⟩ := List.head?_eq_some_iff.1 hhead
      exact h rest hrest
  · intro h
    cases h with
    | marked => simp
    | plain h =>
      split
      · next rest hrest => exact absurd (by rw [hrest]; rfl) h
      · rfl

/-- **The definitions in the file that a path names.** -/
def Holds (library : FileLibrary) (read : String → Option String) (path : String)
    (definitions : List DictionaryDefinition) : Prop :=
  ∃ format text body entries, Names library read path format text ∧ Unmarked text body ∧
    library.read? format body = some entries ∧ Lists entries definitions

/-- **What is found and read is what the file declares.** -/
theorem definitions?_eq_some_iff {definitions : List DictionaryDefinition} :
    definitions? library read path = some definitions ↔ Holds library read path definitions := by
  unfold definitions?
  constructor
  · intro h
    obtain ⟨⟨format, text⟩, hfind, h⟩ := Option.bind_eq_some_iff.1 h
    obtain ⟨entries, hentries, h⟩ := Option.bind_eq_some_iff.1 h
    exact ⟨format, text, _, entries, find?_eq_some_iff.1 hfind, withoutMark_eq_iff.1 rfl,
      hentries, listOf?_eq_some_iff.1 h⟩
  · rintro ⟨format, text, body, entries, hnames, hbody, hentries, hlists⟩
    rw [find?_eq_some_iff.2 hnames]
    show (library.read? format (withoutMark text) >>= DictionaryDefinition.listOf?) = _
    rw [withoutMark_eq_iff.2 hbody, hentries]
    exact listOf?_eq_some_iff.2 hlists

/-- A file holds nothing else. -/
theorem Holds.unique {definitions definitions' : List DictionaryDefinition}
    (h : Holds library read path definitions) (h' : Holds library read path definitions') :
    definitions = definitions' :=
  Option.some.inj ((definitions?_eq_some_iff.2 h).symm.trans (definitions?_eq_some_iff.2 h'))

end DictionaryFile

end TelemetryRelay
