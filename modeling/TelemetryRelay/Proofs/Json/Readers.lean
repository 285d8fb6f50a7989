import TelemetryRelay.Json.Reader
import TelemetryRelay.Proofs.Frame.Decoding

/-!
# What readers give

A reader gives values with a property if every value it takes from a text has it (`Reader.Gives`).
Each way to build a reader has its lemma, so that a property of values holds in the lists and the
records that are made of them.

* `NumberText.representable`: what numbers a document can have.
* `Reader.gives_any`: a number that is read is one of them.
* `Gives.list`, `Gives.optional`, `Gives.record`: the properties of lists and records.
-/

namespace TelemetryRelay.Json

open Decimal (int64Min uint64Max)

variable {cs : List Char} {n : Number}

/-! ### Numbers of documents -/

/-- **What a number of a document can be**: a whole number of 64 bits, or a finite double. -/
def Number.Representable : Number → Prop
  | .integer i => int64Min ≤ i ∧ i ≤ uint64Max
  | .real x => Decimal.isFinite x = true

theorem Number.Representable.finite (h : n.Representable) : Decimal.isFinite n.toFloat = true := by
  cases n with
  | real x => exact h
  | integer i =>
    obtain ⟨hlow, hhigh⟩ := h
    obtain ⟨k, rfl | rfl⟩ := Int.eq_nat_or_neg i
    · exact isFinite_ofNat (by omega)
    · apply isFinite_ofInt_neg
      unfold int64Min at hlow
      unfold uint64Max
      omega

/-- What a numeral stands for. -/
theorem NumberText.representable (h : NumberText cs n) : n.Representable := by
  cases n with
  | real x => exact h.finite
  | integer i =>
    obtain ⟨-, hlow, hhigh⟩ := numberText_integer_iff.1 h
    exact ⟨hlow, hhigh⟩

/-! ### Readers -/

namespace Reader

variable {α β σ : Type} {P : α → Prop} {Q : β → Prop} {R : σ → Prop} {read : Reader α}

/-- Every value that a reader takes from a text has the property. -/
def Gives (read : Reader α) (P : α → Prop) : Prop :=
  ∀ depth cs a rest, read depth cs = some (a, rest) → P a

theorem gives_true (read : Reader α) : read.Gives fun _ => True := fun _ _ _ _ _ => trivial

/-- A number that is read is a number of a document. -/
theorem gives_any : any.Gives fun j => ∀ n, j = .number n → n.Representable := by
  rintro depth cs j rest h n rfl
  obtain ⟨_, text, -, -, htext⟩ := (sound _).1 _ _ _ _ h
  exact htext.numeral.representable

theorem Gives.optional (h : read.Gives P) : (optional read).Gives fun o => ∀ a ∈ o, P a := by
  intro depth cs o rest ho
  unfold Reader.optional at ho
  split at ho
  · obtain ⟨_, -, heq⟩ := Option.map_eq_some_iff.1 ho
    cases heq
    exact nofun
  · obtain ⟨⟨a, _⟩, hread, heq⟩ := Option.map_eq_some_iff.1 ho
    cases heq
    rintro _ ⟨⟩
    exact h _ _ _ _ hread

theorem Gives.filterMap (h : read.Gives P) {f : α → Option β}
    (hf : ∀ a b, P a → f a = some b → Q b) : (filterMap read f).Gives Q := by
  intro depth cs b rest hb
  obtain ⟨⟨a, _⟩, hread, hb⟩ := Option.bind_eq_some_iff.1 hb
  obtain ⟨b, hfa, hb⟩ := Option.bind_eq_some_iff.1 hb
  cases hb
  exact hf a b (h _ _ _ _ hread) hfa

theorem Gives.items (h : read.Gives P) {depth : Nat} : ∀ {fuel cs xs rest},
    items read depth fuel cs = some (xs, rest) → ∀ x ∈ xs, P x := by
  intro fuel
  induction fuel with
  | zero =>
    intro cs xs rest hxs
    cases hxs
  | succ fuel ih =>
    intro cs xs rest hxs
    obtain ⟨⟨x, more⟩, hread, hxs⟩ := Option.bind_eq_some_iff.1 hxs
    have hx := h _ _ _ _ hread
    dsimp only at hxs
    split at hxs
    · cases hxs
      exact List.forall_mem_singleton.2 hx
    · obtain ⟨⟨ys, _⟩, hys, heq⟩ := Option.bind_eq_some_iff.1 hxs
      cases heq
      exact List.forall_mem_cons.2 ⟨hx, ih hys⟩
    · cases hxs

/-- **What a reader gives, it gives in every item of a list.** -/
theorem Gives.list (h : read.Gives P) : (list read).Gives fun xs => ∀ x ∈ xs, P x := by
  intro depth cs xs rest hxs
  unfold Reader.list at hxs
  split at hxs
  · split at hxs
    · cases hxs
      exact nofun
    · exact h.items hxs
  · cases hxs

/-- A field keeps a property of drafts if it does so with any value that is read. -/
theorem gives_once {name : String} {get : σ → Option α} {set : σ → α → σ} (h : read.Gives P)
    {draft : σ} (hset : ∀ a, P a → R (set draft a)) :
    ((Field.once name get set read).read draft).Gives R := by
  intro depth cs draft' rest hdraft
  obtain ⟨-, hdraft⟩ := Option.ite_none_left_eq_some.1 hdraft
  obtain ⟨⟨a, _⟩, hread, heq⟩ := Option.map_eq_some_iff.1 hdraft
  cases heq
  exact hset a (h _ _ _ _ hread)

theorem gives_fieldValue {fields : List (Field σ)} {key : String} {draft : σ}
    (hfields : ∀ field ∈ fields, ∀ draft, R draft → (field.read draft).Gives R) (hdraft : R draft) :
    (fieldValue fields key draft).Gives R := by
  intro depth cs draft' rest h
  unfold fieldValue at h
  split at h
  · next field hfield =>
    exact hfields field (List.mem_of_find?_eq_some hfield) draft hdraft _ _ _ _ h
  · obtain ⟨_, -, heq⟩ := Option.map_eq_some_iff.1 h
    cases heq
    exact hdraft

theorem gives_namedFields {fields : List (Field σ)}
    (hfields : ∀ field ∈ fields, ∀ draft, R draft → (field.read draft).Gives R) {depth : Nat} :
    ∀ {fuel draft cs draft' rest}, R draft →
      namedFields fields depth fuel draft cs = some (draft', rest) → R draft' := by
  intro fuel
  induction fuel with
  | zero =>
    intro draft cs draft' rest _ h
    cases h
  | succ fuel ih =>
    intro draft cs draft' rest hdraft h
    unfold namedFields at h
    split at h
    · obtain ⟨⟨key, more⟩, -, h⟩ := Option.bind_eq_some_iff.1 h
      dsimp only at h
      split at h
      · obtain ⟨⟨next, more⟩, hvalue, h⟩ := Option.bind_eq_some_iff.1 h
        have hnext := gives_fieldValue hfields hdraft _ _ _ _ hvalue
        dsimp only at h
        split at h
        · cases h
          exact hnext
        · exact ih hnext h
        · cases h
      · cases h
    · cases h

theorem gives_orderedFields {depth : Nat} : ∀ {fields : List (Field σ)} {draft cs draft' rest},
    (∀ field ∈ fields, ∀ draft, R draft → (field.read draft).Gives R) → R draft →
      orderedFields depth fields draft cs = some (draft', rest) → R draft' := by
  intro fields
  induction fields with
  | nil =>
    intro draft cs draft' rest _ _ h
    cases h
  | cons field more ih =>
    intro draft cs draft' rest hfields hdraft h
    obtain ⟨hfield, hmore⟩ := List.forall_mem_cons.1 hfields
    obtain ⟨⟨next, _⟩, hvalue, h⟩ := Option.bind_eq_some_iff.1 h
    have hnext := hfield draft hdraft _ _ _ _ hvalue
    dsimp only at h
    split at h
    · cases h
      exact hnext
    · exact ih hmore hnext h
    · cases h

/-- **What the fields of a record keep holds of the record.** -/
theorem gives_record {fields : List (Field σ)} {blank : σ} (hblank : R blank)
    (hfields : ∀ field ∈ fields, ∀ draft, R draft → (field.read draft).Gives R) :
    (record fields blank).Gives R := by
  intro depth cs draft rest h
  unfold record at h
  split at h
  · split at h
    · cases h
      exact hblank
    · exact gives_namedFields hfields hblank h
  · split at h
    · cases h
      exact hblank
    · exact gives_orderedFields hfields hblank h
  · cases h

/-- What a reader gives, it gives for a whole text. -/
theorem Gives.parse? (h : read.Gives P) {s : String} {a : α} (ha : read.parse? s = some a) :
    P a := by
  unfold Reader.parse? at ha
  split at ha
  · next value rest hread =>
    obtain ⟨-, heq⟩ := Option.ite_none_right_eq_some.1 ha
    cases heq
    exact h _ _ _ _ hread
  · cases ha

end Reader

end TelemetryRelay.Json
