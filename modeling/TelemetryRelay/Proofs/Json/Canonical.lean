import Mathlib.Data.String.Basic
import TelemetryRelay.Json.Shape

/-!
# Sorted documents

`Json.canonical` sorts the fields of every object by key. Records are read from sorted documents, so
what is read does not depend on whether a document, or a part of one, has been sorted before.

* `Sorted.insertField`, `Sorted.canonicalFields`: what is put into sorted fields leaves them sorted.
* `canonicalFields_of_sorted`: sorted fields stay as they are.
* `canonical_canonical`: **sorting twice is sorting once.**
-/

namespace TelemetryRelay.Json

variable {key : String} {value : Json} {fields sorted : List (String × Json)}

/-- Fields in the order of their keys, no two of which are equal. -/
def Sorted (fields : List (String × Json)) : Prop := fields.Pairwise (·.1 < ·.1)

/-- A document that sorting leaves as it is. -/
def IsCanonical (j : Json) : Prop := j.canonical = j

theorem mem_insertField {p : String × Json} (h : p ∈ insertField key value fields) :
    p = (key, value) ∨ p ∈ fields := by
  induction fields with
  | nil => exact Or.inl (List.mem_singleton.1 h)
  | cons f rest ih =>
    rw [insertField] at h
    split at h
    · rcases List.mem_cons.1 h with h | h
      · exact Or.inl h
      · exact Or.inr (List.mem_cons_of_mem _ h)
    split at h
    · rcases List.mem_cons.1 h with h | h
      · exact Or.inl h
      · exact Or.inr h
    · rcases List.mem_cons.1 h with rfl | h
      · exact Or.inr List.mem_cons_self
      · exact (ih h).imp_right (List.mem_cons_of_mem _)

/-- A field that is put into sorted fields leaves them sorted. -/
theorem Sorted.insertField (h : Sorted fields) : Sorted (insertField key value fields) := by
  induction fields with
  | nil => exact List.pairwise_singleton _ _
  | cons f rest ih =>
    obtain ⟨hf, hrest⟩ := List.pairwise_cons.1 h
    rw [Json.insertField]
    split
    · rename_i heq
      exact List.pairwise_cons.2 ⟨fun p hp => heq ▸ hf p hp, hrest⟩
    split
    · rename_i hlt
      refine List.pairwise_cons.2 ⟨fun p hp => ?_, h⟩
      rcases List.mem_cons.1 hp with rfl | hp
      · exact hlt
      · exact lt_trans hlt (hf p hp)
    · rename_i hne hlt
      have hgt : f.1 < key := lt_of_le_of_ne (not_lt.1 hlt) (Ne.symm hne)
      refine List.pairwise_cons.2 ⟨fun p hp => ?_, ih hrest⟩
      rcases mem_insertField hp with rfl | hp
      · exact hgt
      · exact hf p hp

/-- A field with a greater key than all others goes to the end. -/
theorem insertField_last (h : ∀ p ∈ fields, p.1 < key) :
    insertField key value fields = fields ++ [(key, value)] := by
  induction fields with
  | nil => rfl
  | cons f rest ih =>
    obtain ⟨hf, hrest⟩ := List.forall_mem_cons.1 h
    rw [insertField, if_neg hf.ne', if_neg hf.asymm, ih hrest]
    rfl

theorem Sorted.canonicalFields (h : Sorted sorted) : Sorted (canonicalFields fields sorted) := by
  induction fields generalizing sorted with
  | nil => rw [Json.canonicalFields]; exact h
  | cons f rest ih => rw [Json.canonicalFields]; exact ih h.insertField

/-- **Sorted fields stay as they are**, if sorting leaves their values as they are. -/
theorem canonicalFields_of_sorted (h : Sorted (sorted ++ fields))
    (hvalues : ∀ p ∈ fields, IsCanonical p.2) :
    canonicalFields fields sorted = sorted ++ fields := by
  induction fields generalizing sorted with
  | nil => rw [canonicalFields, List.append_nil]
  | cons f rest ih =>
    obtain ⟨hf, hrest⟩ := List.forall_mem_cons.1 hvalues
    have hlast : ∀ p ∈ sorted, p.1 < f.1 := fun p hp =>
      (List.pairwise_append.1 h).2.2 p hp f List.mem_cons_self
    rw [List.append_cons sorted f rest] at h
    rw [canonicalFields, hf, insertField_last hlast, ih h hrest, ← List.append_cons]

mutual

/-- **Sorting twice is sorting once.** -/
theorem canonical_canonical : ∀ j : Json, IsCanonical j.canonical
  | .null => rfl
  | .bool _ => rfl
  | .number _ => rfl
  | .string _ => rfl
  | .array items => by
    rw [IsCanonical, canonical, canonical, canonicalItems_canonicalItems items]
  | .object fields => by
    have hsorted : Sorted (canonicalFields fields []) := Sorted.canonicalFields List.Pairwise.nil
    have hvalues : ∀ p ∈ canonicalFields fields [], IsCanonical p.2 :=
      isCanonical_of_mem fields [] fun _ hp => nomatch hp
    rw [IsCanonical, canonical, canonical, canonicalFields_of_sorted hsorted hvalues]
    rfl

theorem canonicalItems_canonicalItems : ∀ items : List Json,
    canonicalItems (canonicalItems items) = canonicalItems items
  | [] => rfl
  | item :: rest => by
    rw [canonicalItems, canonicalItems, canonical_canonical item,
      canonicalItems_canonicalItems rest]

/-- The values of sorted fields are sorted. -/
theorem isCanonical_of_mem : ∀ fields sorted : List (String × Json),
    (∀ p ∈ sorted, IsCanonical p.2) → ∀ p ∈ canonicalFields fields sorted, IsCanonical p.2
  | [], sorted, h, p, hp => h p (by rwa [canonicalFields] at hp)
  | (key, value) :: rest, sorted, h, p, hp => by
    rw [canonicalFields] at hp
    refine isCanonical_of_mem rest _ (fun q hq => ?_) p hp
    rcases mem_insertField hq with rfl | hq
    · exact canonical_canonical value
    · exact h q hq

end

theorem canonicalItems_eq_map : ∀ items : List Json, canonicalItems items = items.map canonical
  | [] => rfl
  | item :: rest => by rw [canonicalItems, canonicalItems_eq_map rest, List.map_cons]

/-- **What is read of a record does not depend on whether it was sorted before.** -/
theorem readRecord_canonical {σ α : Type} (name : String) (order : List String) (blank : σ)
    (visit : σ → String → Json → Except ShapeFault σ) (finish : σ → Except String α) (j : Json) :
    readRecord name order blank visit finish j.canonical =
      readRecord name order blank visit finish j := by
  unfold readRecord
  rw [canonical_canonical j]

end TelemetryRelay.Json
