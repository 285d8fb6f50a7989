import TelemetryRelay.Proofs.Frame.Timestamp
import TelemetryRelay.Proofs.Json.Evaluation
import TelemetryRelay.Proofs.Json.Grammar
import TelemetryRelay.Proofs.Text.Percent

/-!
# Which payloads are decoded

A payload is a sample if it is one document of the grammar and the document has the shape of a
sample (`Sample.Shape`). The shape looks at the fields `value` and `timestamp` only.

* `Sample.ofJson?_eq_some_iff`: of the documents that can be read, those of the shape are samples.
* `Frame.decode_eq_ok_iff`: **a payload is decoded exactly if it is a document of that shape.**
* `Frame.decode_congr`: other fields, and the order of the fields, have no influence.
* `Frame.decode_exact`: both, with the value finite and every other document refused.
-/

namespace TelemetryRelay

open Decimal (IsInt64 isFinite int64Min uint64Max)
open Json (Document NumberText ValueText valuesOf)
open Utf8 (octets)

variable {channel text text' : String} {payload : List UInt8} {receivedAt : Int} {frame : Frame}
  {cs : List Char} {j : Json} {sample : Sample} {fields fields' : List (String × Json)}

/-! ### The shape of a sample -/

namespace Sample

/-- The time that the `timestamp` fields give: none without a field and for null, else a whole
number of 64 signed bits. -/
inductive Times : List Json → Option Int → Prop where
  | absent : Times [] none
  | null : Times [.null] none
  | given {i : Int} (h : IsInt64 i) : Times [.number (.integer i)] (some i)

/-- **The shape of a sample**: a number, or an object with one `value`, a number, and a time. -/
inductive Shape : Json → Sample → Prop where
  | number (n : Json.Number) : Shape (.number n) ⟨n.toFloat, none⟩
  | object {fields : List (String × Json)} {n : Json.Number} {time : Option Int}
      (hvalue : valuesOf "value" fields = [.number n])
      (htime : Times (valuesOf "timestamp" fields) time) : Shape (.object fields) ⟨n.toFloat, time⟩

/-- Whether a sample looks at a field. -/
def matters (field : String × Json) : Bool := field.1 == "value" || field.1 == "timestamp"

end Sample

namespace Json

theorem ValueText.numeral {depth : Nat} {n : Number} (h : ValueText depth cs (.number n)) :
    NumberText cs n := by
  cases h with
  | number hn => exact hn

theorem Document.numeral {n : Number} (h : Document cs (.number n)) :
    ∃ text, NumberText text n := by
  obtain ⟨_, text, _, -, -, -, h⟩ := h
  exact ⟨text, h.numeral⟩

/-- The numbers among the values of a field are written as numerals. -/
theorem Document.numeral_of_mem {key : String} {n : Number} (h : Document cs (.object fields))
    (hmem : .number n ∈ valuesOf key fields) : ∃ text, NumberText text n := by
  obtain ⟨_, text, _, -, -, -, h⟩ := h
  obtain ⟨p, hp, hn⟩ := List.mem_map.1 hmem
  cases h with
  | object _ _ hvalue =>
    obtain ⟨e, he, rfl⟩ := List.mem_map.1 (List.mem_filter.1 hp).1
    have htext := hvalue e he
    rw [show e.slot.value = .number n from hn] at htext
    exact ⟨_, htext.numeral⟩

end Json

namespace Sample

theorem timestamp?_eq_some_iff {t : Json} {time : Option Int}
    (hlow : ∀ i, t = .number (.integer i) → int64Min ≤ i) :
    timestamp? t = some time ↔ Times [t] time := by
  constructor
  · intro h
    unfold timestamp? at h
    split at h
    · cases h
      exact .null
    · next i =>
      split at h
      · next hhigh =>
        cases h
        exact .given ⟨hlow i rfl, hhigh⟩
      · cases h
    · cases h
  · intro h
    cases h with
    | null => rfl
    | given h => exact if_pos h.2

/-- **Of the documents that can be read, those of the shape are samples.** -/
theorem ofJson?_eq_some_iff (hj : Document cs j) : ofJson? j = some sample ↔ Shape j sample := by
  have htime : ∀ {fields : List (String × Json)} {t : Json}, j = .object fields →
      valuesOf "timestamp" fields = [t] → ∀ i, t = .number (.integer i) → int64Min ≤ i := by
    rintro fields t rfl ht i rfl
    obtain ⟨text, htext⟩ := hj.numeral_of_mem (ht ▸ List.mem_singleton_self _)
    exact (Json.numberText_integer_iff.1 htext).2.1
  constructor
  · intro h
    unfold ofJson? at h
    split at h
    · cases h
      exact .number _
    · split at h
      · next hvalue ht =>
        cases h
        exact .object hvalue (ht ▸ .absent)
      · next hvalue ht =>
        obtain ⟨time, hgiven, hsample⟩ := Option.map_eq_some_iff.1 h
        cases hsample
        exact .object hvalue (ht ▸ (timestamp?_eq_some_iff (htime rfl ht)).1 hgiven)
      · cases h
    · cases h
  · intro h
    cases h with
    | number n => rfl
    | object hvalue ht =>
      unfold ofJson?
      dsimp only
      rw [hvalue]
      cases ht' : valuesOf "timestamp" _ with
      | nil =>
        rw [ht'] at ht
        cases ht
        rfl
      | cons t rest =>
        rw [ht'] at ht
        have hrest : rest = [] := by cases ht <;> rfl
        subst hrest
        rw [← timestamp?_eq_some_iff (htime rfl ht')] at ht
        dsimp only
        rw [ht]
        rfl

theorem valuesOf_matters {key : String} (h : key = "value" ∨ key = "timestamp") :
    valuesOf key (fields.filter matters) = valuesOf key fields := by
  unfold valuesOf
  rw [List.filter_filter]
  congr 2
  funext p
  rw [Bool.and_eq_left_iff_imp]
  intro hp
  rw [matters, beq_iff_eq.1 hp]
  rcases h with rfl | rfl <;> rfl

/-- Fields of other names, and the order of the fields, do not matter to the shape. -/
theorem Shape.of_perm (h : Shape (.object fields) sample)
    (hperm : (fields.filter matters).Perm (fields'.filter matters)) :
    Shape (.object fields') sample := by
  have hvalues : ∀ key, key = "value" ∨ key = "timestamp" →
      (valuesOf key fields).Perm (valuesOf key fields') := fun key hkey => by
    rw [← valuesOf_matters hkey, ← @valuesOf_matters fields' key hkey]
    exact (hperm.filter _).map _
  cases h with
  | object hvalue htime =>
    have hv := hvalues "value" (.inl rfl)
    have ht := hvalues "timestamp" (.inr rfl)
    rw [hvalue] at hv
    refine .object (List.singleton_perm.1 hv).symm ?_
    generalize valuesOf "timestamp" fields = times at htime ht
    cases htime with
    | absent =>
      rw [List.nil_perm.1 ht]
      exact .absent
    | null =>
      rw [← List.singleton_perm.1 ht]
      exact .null
    | given h =>
      rw [← List.singleton_perm.1 ht]
      exact .given h

/-- The value of a sample that was read is finite. -/
theorem Shape.isFinite (h : Shape j sample) (hj : Document cs j) : isFinite sample.value = true := by
  have hnumeral : ∃ text n, NumberText text n ∧ sample.value = n.toFloat := by
    cases h with
    | number n =>
      obtain ⟨text, htext⟩ := hj.numeral
      exact ⟨text, n, htext, rfl⟩
    | object hvalue htime =>
      obtain ⟨text, htext⟩ := hj.numeral_of_mem (hvalue ▸ List.mem_singleton_self _)
      exact ⟨text, _, htext, rfl⟩
  obtain ⟨text, n, htext, hn⟩ := hnumeral
  rw [hn]
  exact htext.finite

end Sample

namespace Frame

/-- What becomes of a payload that is a document. -/
theorem decode_document (h : Document text.toList j) : decode channel (octets text) receivedAt =
    match Sample.ofJson? j with
    | none => .error .wrongShape
    | some sample => .ok ⟨channel, sample.value, sample.timestamp.getD receivedAt⟩ := by
  obtain ⟨rest, hread, hblank⟩ := Json.readDocument_iff.1 h
  unfold decode readable
  rw [Utf8.decode?_octets]
  dsimp only
  rw [hread]
  dsimp only
  cases Sample.ofJson? j with
  | none => rfl
  | some sample =>
    rw [List.all_eq_true.2 hblank]
    rfl

/-- **A payload is decoded exactly if it is a document of the shape.** -/
theorem decode_eq_ok_iff : decode channel payload receivedAt = .ok frame ↔
    ∃ text j sample, octets text = payload ∧ Document text.toList j ∧ Sample.Shape j sample ∧
      frame = ⟨channel, sample.value, sample.timestamp.getD receivedAt⟩ := by
  constructor
  · intro h
    unfold decode readable at h
    cases hd : Utf8.decode? payload with
    | none =>
      -- a payload that is cut short or malformed is never complete
      rw [hd] at h
      dsimp only at h
      split at h
      · cases h
      · split at h <;> cases h
    | some text =>
      rw [hd] at h
      dsimp only at h
      split at h
      · cases h
      · next j rest hread =>
        split at h
        · cases h
        · next sample hs =>
          split at h
          · next hblank =>
            cases h
            have hj : Document text.toList j :=
              Json.readDocument_iff.2 ⟨rest, hread, List.all_eq_true.1 hblank⟩
            exact ⟨text, j, sample, Utf8.decode?_eq_some_iff.1 hd, hj,
              (Sample.ofJson?_eq_some_iff hj).1 hs, rfl⟩
          · cases h
  · rintro ⟨text, j, sample, rfl, hj, hs, rfl⟩
    rw [decode_document hj, (Sample.ofJson?_eq_some_iff hj).2 hs]

/-- Documents with the same fields for `value` and `timestamp`, in any order and with any other
fields, are decoded alike. -/
theorem decode_congr (h : Document text.toList (.object fields))
    (h' : Document text'.toList (.object fields'))
    (hperm : (fields.filter Sample.matters).Perm (fields'.filter Sample.matters)) :
    decode channel (octets text) receivedAt = decode channel (octets text') receivedAt := by
  have hsame : Sample.ofJson? (.object fields) = Sample.ofJson? (.object fields') := by
    ext sample
    rw [Sample.ofJson?_eq_some_iff h, Sample.ofJson?_eq_some_iff h']
    exact ⟨fun hs => hs.of_perm hperm, fun hs => hs.of_perm hperm.symm⟩
  rw [decode_document h, decode_document h', hsame]

/-- **The decoder accepts exactly its format.** -/
theorem decode_exact (channel : String) (receivedAt : Int) :
    (∀ payload frame, decode channel payload receivedAt = .ok frame ↔
      ∃ text j sample, octets text = payload ∧ Document text.toList j ∧ Sample.Shape j sample ∧
        frame = ⟨channel, sample.value, sample.timestamp.getD receivedAt⟩) ∧
    (∀ payload frame, decode channel payload receivedAt = .ok frame →
      isFinite frame.value = true) ∧
    (∀ text j, Document text.toList j → (∀ sample, ¬ Sample.Shape j sample) →
      decode channel (octets text) receivedAt = .error .wrongShape) ∧
    (∀ text text' fields fields', Document text.toList (.object fields) →
      Document text'.toList (.object fields') →
      (fields.filter Sample.matters).Perm (fields'.filter Sample.matters) →
      decode channel (octets text) receivedAt = decode channel (octets text') receivedAt) ∧
    ∀ cs i, NumberText cs (.integer i) ↔
      cs = Decimal.ofInt i ∧ int64Min ≤ i ∧ i ≤ uint64Max := by
  refine ⟨fun _ _ => decode_eq_ok_iff, fun payload frame h => ?_, fun text j hj hno => ?_,
    fun _ _ _ _ => decode_congr, fun _ _ => Json.numberText_integer_iff⟩
  · obtain ⟨text, j, sample, -, hj, hs, rfl⟩ := decode_eq_ok_iff.1 h
    exact hs.isFinite hj
  · have hnone : Sample.ofJson? j = none := by
      rw [Option.eq_none_iff_forall_ne_some]
      exact fun sample hs => hno sample ((Sample.ofJson?_eq_some_iff hj).1 hs)
    rw [decode_document hj, hnone]

end Frame

end TelemetryRelay
