import TelemetryRelay.Proofs.Json.Readers
import TelemetryRelay.Proofs.Json.Skipping

/-!
# Reading documents of a known shape

What a reader takes from a document, wherever the document is written (`Reader.Reads`). Each way to
build a reader has its lemma, so that what is read of a list or of a record follows from what is
read of its items and fields. Fields of other names may stand in a record: they are skipped.

* `reads_list`: **a list is read item by item.**
* `reads_record`: **a record is read field by field.**
* `ReadsField.once_read`: a field that is given once.
* `Reads.parse?`: what is read of a document is read of its text.
-/

namespace TelemetryRelay.Json

/-- Of the blanks in a list of slots, those before the first value are skipped. -/
theorem skipSpace_slots {s : Slot} (hs : s.Spaced) {j : Json} {depth : Nat}
    (hv : ValueText depth s.text j) (tail : List Slot) (rest : List Char) :
    skipSpace (separated ((s :: tail).map Slot.chars) ++ rest) =
      separated (({ s with before := [] } :: tail).map Slot.chars) ++ rest := by
  obtain ⟨more, hmore⟩ := exists_separated (tail.map Slot.chars)
  obtain ⟨c, text, htext, hc, -⟩ := hv.exists_cons
  rw [List.map_cons, List.map_cons, hmore, hmore]
  simp only [Slot.chars, htext, List.append_assoc, List.cons_append, List.nil_append,
    skipSpace_append hs.1, skipSpace_cons hc]

theorem skipSpace_entries {e : Entry} (he : e.Spaced) (tail : List Entry) (rest : List Char) :
    skipSpace (separated ((e :: tail).map Entry.chars) ++ rest) =
      separated (({ e with before := [] } :: tail).map Entry.chars) ++ rest := by
  obtain ⟨more, hmore⟩ := exists_separated (tail.map Entry.chars)
  rw [List.map_cons, List.map_cons, hmore, hmore]
  simp only [Entry.chars, List.append_assoc, List.cons_append, List.nil_append,
    skipSpace_append he.before, skipSpace_cons (show isSpace '"' = false from rfl)]

/-- Only null begins like null. -/
theorem ValueText.head?_of_ne_null {depth : Nat} {text : List Char} {j : Json}
    (h : ValueText depth text j) (hj : j ≠ .null) : text.head? ≠ some 'n' := by
  cases h with
  | null => exact absurd rfl hj
  | yes => decide
  | no => decide
  | number h =>
    obtain ⟨c, more, rfl, hc⟩ := h.exists_cons
    exact fun heq => ne_of_numeral hc rfl (by decide) (Option.some.inj heq)
  | string _ => exact nofun
  | array _ _ _ => exact nofun
  | object _ _ _ => exact nofun

namespace Reader

variable {α β σ : Type} {read : Reader α} {j : Json} {a : α} {depth : Nat}

/-- **A reader takes `a` from a document**, wherever it is written. -/
def Reads (read : Reader α) (j : Json) (a : α) : Prop :=
  ∀ ⦃depth : Nat⦄ ⦃text before rest : List Char⦄, ValueText depth text j → Blank before →
    Ends rest → read depth (before ++ (text ++ rest)) = some (a, rest)

theorem reads_any (j : Json) : any.Reads j j := by
  intro depth text before rest h hbefore hr
  refine readValue_complete h hbefore hr ?_
  simp only [List.length_append]
  omega

theorem reads_text (s : String) : text.Reads (.string s) s := by
  intro depth text before rest h hbefore _
  cases h with
  | string h =>
    simp only [Reader.text, skipSpace_append hbefore, List.cons_append, List.append_assoc,
      List.nil_append, skipSpace_cons (show isSpace '"' = false from rfl), readString_complete h]

theorem reads_optional_null (read : Reader α) : (optional read).Reads .null none := by
  intro depth text before rest h hbefore _
  cases h with
  | null =>
    simp only [Reader.optional, skipSpace_append hbefore, List.cons_append,
      skipSpace_cons (show isSpace 'n' = false from rfl)]
    rfl

theorem Reads.optional (h : read.Reads j a) (hj : j ≠ .null) :
    (optional read).Reads j (some a) := by
  intro depth text before rest htext hbefore hr
  obtain ⟨c, more, hcons, hc, -⟩ := htext.exists_cons
  have hne := htext.head?_of_ne_null hj
  have hread := h htext (show Blank [] from nofun) hr
  rw [List.nil_append] at hread
  rw [hcons] at hne
  unfold Reader.optional
  rw [skipSpace_append hbefore, hcons, List.cons_append, skipSpace_cons hc]
  split
  case h_1 heq => exact absurd (congrArg some (List.cons.inj heq).1) hne
  case h_2 =>
    rw [hcons, List.cons_append] at hread
    rw [hread]
    rfl

theorem Reads.filterMap {f : α → Option β} {b : β} (h : read.Reads j a) (hf : f a = some b) :
    (filterMap read f).Reads j b := by
  intro depth text before rest htext hbefore hr
  simp [Reader.filterMap, h htext hbefore hr, hf]

/-- A slot is read up to the blanks behind its value. -/
theorem Reads.slot {s : Slot} (h : read.Reads s.value a) (hs : s.Spaced)
    (hv : ValueText depth s.text s.value) {c : Char} (hc : c = ',' ∨ c = ']' ∨ c = '}')
    (rest : List Char) :
    read depth (s.chars ++ c :: rest) = some (a, s.after ++ c :: rest) ∧
      skipSpace (s.after ++ c :: rest) = c :: rest := by
  rw [Slot.chars, List.append_assoc, List.append_assoc, skipSpace_append hs.2]
  refine ⟨h hv hs.1 (ends_of_blank hs.2 (ends_cons hc rest)), skipSpace_cons ?_ rest⟩
  rcases hc with rfl | rfl | rfl <;> rfl

theorem items_complete {rest : List Char} : ∀ {slots : List Slot} {l : List α} {fuel : Nat},
    slots ≠ [] → (∀ s ∈ slots, s.Spaced) → (∀ s ∈ slots, ValueText depth s.text s.value) →
    List.Forall₂ read.Reads (slots.map Slot.value) l →
    (separated (slots.map Slot.chars)).length + 1 ≤ fuel →
    items read depth fuel (separated (slots.map Slot.chars) ++ ']' :: rest) = some (l, rest) := by
  intro slots
  induction slots with
  | nil => intro l fuel h; exact absurd rfl h
  | cons s tail ih =>
    intro l fuel _ hspaced hvalue hreads hfuel
    obtain ⟨fuel, rfl⟩ : ∃ n, fuel = n + 1 := ⟨fuel - 1, by omega⟩
    obtain ⟨hs, htail⟩ := List.forall_mem_cons.1 hspaced
    obtain ⟨hv, hvalueTail⟩ := List.forall_mem_cons.1 hvalue
    obtain ⟨a, more, hread, hmore, rfl⟩ := List.forall₂_cons_left_iff.1 hreads
    by_cases hnil : tail = []
    · subst hnil
      cases hmore
      rw [List.map_singleton, separated_singleton]
      obtain ⟨hitem, hskip⟩ := hread.slot hs hv (.inr (.inl rfl)) rest
      simp [items, hitem, hskip]
    · rw [List.map_cons, separated_cons (by simpa using hnil)] at hfuel ⊢
      rw [List.length_append, List.length_cons] at hfuel
      rw [List.append_assoc, List.cons_append]
      obtain ⟨hitem, hskip⟩ := hread.slot hs hv (.inl rfl)
        (separated (tail.map Slot.chars) ++ ']' :: rest)
      have hrest := ih hnil htail hvalueTail hmore (show _ ≤ fuel by omega)
      simp [items, hitem, hskip, hrest]

/-- **A list is read item by item.** -/
theorem reads_list {l : List α} {values : List Json} (h : List.Forall₂ read.Reads values l) :
    (list read).Reads (.array values) l := by
  intro depth text before rest htext hbefore _
  cases htext with
  | @array depth blank slots hblank hspaced hvalue =>
    simp only [Reader.list, skipSpace_append hbefore, List.cons_append, List.append_assoc,
      List.nil_append, skipSpace_cons (show isSpace '[' = false from rfl), skipSpace_append hblank]
    cases slots with
    | nil =>
      cases h
      rfl
    | cons s tail =>
      obtain ⟨hs, htail⟩ := List.forall_mem_cons.1 hspaced
      obtain ⟨hv, hvalueTail⟩ := List.forall_mem_cons.1 hvalue
      have hfirst : (skipSpace (separated ((s :: tail).map Slot.chars) ++ ']' :: rest)).head? ≠
          some ']' := head?_slots hs hv _
      rw [skipSpace_slots hs hv] at hfirst ⊢
      have hs' : Slot.Spaced { s with before := [] } := ⟨nofun, hs.2⟩
      split
      case h_1 heq => exact absurd (congrArg List.head? heq) hfirst
      case h_2 =>
        refine items_complete (List.cons_ne_nil _ _) (List.forall_mem_cons.2 ⟨hs', htail⟩)
          (List.forall_mem_cons.2 ⟨hv, hvalueTail⟩) h ?_
        simp only [List.length_append, List.length_cons]
        omega

/-! ### What is read of an object -/

variable {fields : List (Field σ)} {entries before more : List (String × Json)} {name key : String}
  {draft draft' : σ} {v : Json}

theorem reads_fieldValue {field : Field σ} (hfield : fields.find? (·.name == key) = some field)
    (h : (field.read draft).Reads v draft') : (fieldValue fields key draft).Reads v draft' := by
  intro depth text before rest htext hbefore hr
  simp only [fieldValue, hfield]
  exact h htext hbefore hr

/-- The value of a field of another name is skipped, whatever it is. -/
theorem reads_fieldValue_other (hfield : fields.find? (·.name == key) = none) (v : Json) :
    (fieldValue fields key draft).Reads v draft := by
  intro depth text before rest htext hbefore hr
  have hskip := skipValue_complete htext hbefore hr
    (show 2 * text.length ≤ 2 * (before ++ (text ++ rest)).length + 2 by
      simp only [List.length_append]
      omega)
  simp only [fieldValue, hfield, hskip]
  rfl

theorem namedFields_complete {draft : List (String × Json) → σ} {rest : List Char} :
    ∀ {tail : List Entry} {before : List (String × Json)} {fuel : Nat}, tail ≠ [] →
      (∀ e ∈ tail, e.Spaced) → (∀ e ∈ tail, ValueText depth e.slot.text e.slot.value) →
      (∀ done key v more, before ++ tail.map Entry.field = done ++ (key, v) :: more →
        (fieldValue fields key (draft done)).Reads v (draft (done ++ [(key, v)]))) →
      (separated (tail.map Entry.chars)).length + 1 ≤ fuel →
      namedFields fields depth fuel (draft before)
          (separated (tail.map Entry.chars) ++ '}' :: rest) =
        some (draft (before ++ tail.map Entry.field), rest) := by
  intro tail
  induction tail with
  | nil => intro before fuel h; exact absurd rfl h
  | cons e tail ih =>
    intro before fuel _ hspaced hvalue hstep hfuel
    obtain ⟨fuel, rfl⟩ : ∃ n, fuel = n + 1 := ⟨fuel - 1, by omega⟩
    obtain ⟨he, htail⟩ := List.forall_mem_cons.1 hspaced
    obtain ⟨hv, hvalueTail⟩ := List.forall_mem_cons.1 hvalue
    have hread := hstep before _ _ _ rfl
    have hquote : ∀ rest, skipSpace (e.chars ++ rest) =
        '"' :: (e.keyText ++ '"' :: (e.gap ++ ':' :: (e.slot.chars ++ rest))) := fun rest => by
      rw [Entry.chars, List.append_assoc, skipSpace_append he.before, List.cons_append,
        skipSpace_cons rfl]
      simp
    have hgap : ∀ rest, skipSpace (e.gap ++ ':' :: rest) = ':' :: rest := fun rest => by
      rw [skipSpace_append he.gap, skipSpace_cons rfl]
    by_cases hnil : tail = []
    · subst hnil
      rw [List.map_singleton, separated_singleton]
      obtain ⟨hitem, hskip⟩ := hread.slot he.slot hv (.inr (.inr rfl)) rest
      simp [namedFields, hquote, readString_complete he.key, hgap, hitem, hskip, Entry.field]
    · rw [List.map_cons, separated_cons (by simpa using hnil)] at hfuel ⊢
      rw [List.length_append, List.length_cons] at hfuel
      rw [List.append_assoc, List.cons_append]
      obtain ⟨hitem, hskip⟩ := hread.slot he.slot hv (.inl rfl)
        (separated (tail.map Entry.chars) ++ '}' :: rest)
      have hrest := @ih (before ++ [e.field]) fuel hnil htail hvalueTail
        (by simpa using hstep) (by omega)
      simpa [namedFields, hquote, readString_complete he.key, hgap, hitem, hskip, Entry.field]
        using hrest

/-- **A record is read field by field**: `draft` is what has been read of the fields so far. -/
theorem reads_record {draft : List (String × Json) → σ}
    (hstep : ∀ done key v more, entries = done ++ (key, v) :: more →
      (fieldValue fields key (draft done)).Reads v (draft (done ++ [(key, v)]))) :
    (record fields (draft [])).Reads (.object entries) (draft entries) := by
  intro depth text before rest htext hbefore _
  cases htext with
  | @object depth blank tail hblank hspaced hvalue =>
    simp only [record, skipSpace_append hbefore, List.cons_append, List.append_assoc,
      List.nil_append, skipSpace_cons (show isSpace '{' = false from rfl), skipSpace_append hblank]
    cases tail with
    | nil => rfl
    | cons e tail =>
      obtain ⟨he, htail⟩ := List.forall_mem_cons.1 hspaced
      obtain ⟨hv, hvalueTail⟩ := List.forall_mem_cons.1 hvalue
      have hfirst : (skipSpace (separated ((e :: tail).map Entry.chars) ++ '}' :: rest)).head? =
          some '"' := head?_entries he _
      rw [skipSpace_entries he] at hfirst ⊢
      have he' : Entry.Spaced { e with before := [] } := ⟨nofun, he.key, he.gap, he.slot⟩
      split
      case h_1 heq =>
        rw [heq] at hfirst
        cases hfirst
      case h_2 =>
        refine @namedFields_complete _ _ _ draft rest ({ e with before := [] } :: tail) [] _
          (List.cons_ne_nil _ _) (List.forall_mem_cons.2 ⟨he', htail⟩)
          (List.forall_mem_cons.2 ⟨hv, hvalueTail⟩) hstep ?_
        simp only [List.length_append, List.length_cons]
        omega

/-! ### Fields that are given once -/

/-- **A field is given at most once**, and its value is read as `a`. -/
structure ReadsField (read : Reader α) (name : String) (entries : List (String × Json)) (a : α) :
    Prop where
  once : (valuesOf name entries).length ≤ 1
  reads : ∀ v ∈ valuesOf name entries, read.Reads v a

theorem readsField_of_absent (h : valuesOf name entries = []) (a : α) :
    read.ReadsField name entries a := by
  constructor
  · rw [h]
    exact Nat.zero_le 1
  · rw [h]
    exact nofun

theorem readsField_of_given (h : valuesOf name entries = [v]) (hv : read.Reads v a) :
    read.ReadsField name entries a := by
  constructor
  · rw [h]
    exact le_rfl
  · rw [h]
    exact List.forall_mem_singleton.2 hv

/-- What a draft has of a field that is read as `a`. -/
def seen (name : String) (entries : List (String × Json)) (a : α) : Option α :=
  (valuesOf name entries).head?.map fun _ => a

theorem seen_append_self (name : String) (v : Json) (done : List (String × Json)) (a : α) :
    seen name (done ++ [(name, v)]) a = some a := by
  unfold seen valuesOf
  rw [List.filter_append, List.map_append]
  cases (done.filter (·.1 == name)).map (·.2) with
  | nil => simp
  | cons w ws => simp

theorem seen_append_of_ne (h : key ≠ name) (v : Json) (done : List (String × Json)) (a : α) :
    seen name (done ++ [(key, v)]) a = seen name done a := by
  simp [seen, valuesOf, List.filter_append, h]

/-- **A field that is given once is read** into a draft that does not have it yet. -/
theorem ReadsField.once_read {get : σ → Option α} {set : σ → α → σ}
    {done : List (String × Json)} (h : read.ReadsField name entries a)
    (hentries : entries = done ++ (name, v) :: more) (hget : get draft = seen name done a) :
    ((Field.once name get set read).read draft).Reads v (set draft a) := by
  have hvalues : valuesOf name entries = valuesOf name done ++ v :: valuesOf name more := by
    simp [hentries, valuesOf, List.filter_append]
  obtain ⟨honce, hread⟩ := h
  rw [hvalues] at honce hread
  have hdone : valuesOf name done = [] := by
    rw [List.length_append, List.length_cons] at honce
    exact List.length_eq_zero_iff.1 (by omega)
  have hnone : get draft = none := by
    rw [hget, seen, hdone]
    rfl
  have hv : read.Reads v a := hread v (List.mem_append_right _ List.mem_cons_self)
  intro depth text before rest htext hbefore hr
  simp [Field.once, hnone, hv htext hbefore hr]

/-- **A record of two fields that are given once each**, or not at all. -/
theorem reads_record_pair {b : β} {read' : Reader β} {name' : String} {get : σ → Option α}
    {set : σ → α → σ} {get' : σ → Option β} {set' : σ → β → σ} (mk : Option α → Option β → σ)
    (hget : ∀ x y, get (mk x y) = x) (hset : ∀ x y a, set (mk x y) a = mk (some a) y)
    (hget' : ∀ x y, get' (mk x y) = y) (hset' : ∀ x y b, set' (mk x y) b = mk x (some b))
    (hne : name ≠ name') (h : read.ReadsField name entries a)
    (h' : read'.ReadsField name' entries b) :
    (record [.once name get set read, .once name' get' set' read'] (mk none none)).Reads
      (.object entries) (mk (seen name entries a) (seen name' entries b)) := by
  refine @reads_record _ _ _ (fun done => mk (seen name done a) (seen name' done b)) ?_
  intro done key v more hentries
  by_cases hkey : key = name
  · subst hkey
    rw [seen_append_self, seen_append_of_ne hne, ← hset]
    exact reads_fieldValue (by simp [Field.once]) (h.once_read hentries (hget _ _))
  by_cases hkey' : key = name'
  · subst hkey'
    rw [seen_append_self, seen_append_of_ne hkey, ← hset']
    exact reads_fieldValue (by simp [Field.once, hne]) (h'.once_read hentries (hget' _ _))
  · rw [seen_append_of_ne hkey, seen_append_of_ne hkey']
    exact reads_fieldValue_other (by simp [Field.once, Ne.symm hkey, Ne.symm hkey']) v

/-- What is read of a document is read of its text. -/
theorem Reads.parse? {s : String} (hj : Document s.toList j) (h : read.Reads j a) :
    read.parse? s = some a := by
  obtain ⟨before, text, after, hbefore, hafter, hs, htext⟩ := hj
  have hread := h htext hbefore (ends_of_all hafter)
  rw [← hs] at hread
  have hall : after.all isSpace = true := List.all_eq_true.2 hafter
  simp [Reader.parse?, hread, hall]

end Reader

end TelemetryRelay.Json
