import TelemetryRelay.Proofs.Url.Domain
import TelemetryRelay.Url.Ipv4

/-!
# IPv4 addresses are read back

An address is written as the digits of its four octets, and read with a check of the octets.

* `lt_of_parse?`: what is read has 32 bits.
* `parse?_text`: **an address of 32 bits is read back.**
-/

namespace TelemetryRelay.Ipv4

open Decimal (isDigit)

variable {cs : List Char} {base acc n address : ℕ}

/-! ### Four octets -/

/-- The octets of an address. -/
def octets (address : ℕ) : List ℕ := [24, 16, 8, 0].map fun shift => address / Nat.pow 2 shift % 256

theorem toList_text (address : ℕ) :
    (text address).toList = Domain.dotted ((octets address).map Decimal.digits) := by
  rw [text, String.toList_intercalate, Domain.dotted, octets, List.map_map, List.map_map]
  have hdigits : ∀ n, (Decimal.natText n).toList = Decimal.digits n := by
    intro n
    rw [Decimal.natText, String.toList_ofList]
  refine congrArg (List.intercalate ['.']) (List.map_congr_left fun shift _ => ?_)
  exact hdigits _

theorem octets_lt (address : ℕ) : ∀ n ∈ octets address, n < 256 := by
  unfold octets
  rw [List.forall_mem_map]
  intro shift _
  exact Nat.mod_lt _ (by decide)

/-- The digits of an octet are read as it. -/
theorem number?_digits : ∀ n < 256, number? (Decimal.digits n) = some n := by decide +kernel

/-- The parts of a dotted text that does not end in a dot. -/
theorem parts_dotted {labels : List (List Char)} (hne : labels ≠ []) (hdot : ∀ l ∈ labels, '.' ∉ l)
    (hlast : labels.getLast? ≠ some []) : parts (Domain.dotted labels) = labels := by
  have hsplit : splitDots (Domain.dotted labels) = labels := List.splitOn_intercalate _ hdot hne
  unfold parts
  dsimp only
  rw [hsplit]
  refine if_neg fun hends => ?_
  rw [Bool.and_eq_true, beq_iff_eq] at hends
  exact hlast hends.2

theorem parts_text (address : ℕ) :
    parts (text address).toList = (octets address).map Decimal.digits := by
  rw [toList_text]
  apply parts_dotted (by simp [octets])
  · rw [List.forall_mem_map]
    intro n _ hdot
    exact absurd (Decimal.isDigit_of_mem_digits n '.' hdot) (by decide)
  · intro hlast
    have hmem := List.mem_of_getLast? hlast
    obtain ⟨n, -, hn⟩ := List.mem_map.1 hmem
    exact Decimal.digits_ne_nil n hn

/-- **An address is read back.** -/
theorem parse?_text (h : address < 2 ^ 32) : parse? (text address).toList = some address := by
  have hnumbers : ((octets address).map Decimal.digits).map number? =
      (octets address).map some := by
    rw [List.map_map]
    refine List.map_congr_left fun n hn => ?_
    exact number?_digits n (octets_lt address n hn)
  have hread : ((octets address).map some).mapM id = some (octets address) :=
    mapM_map_eq_some fun n _ => rfl
  unfold parse?
  dsimp only
  rw [parts_text, hnumbers, hread, if_neg (by simp [octets])]
  have hlow := octets_lt address
  have hleading : (octets address).dropLast.all (· ≤ 255) = true := by
    rw [List.all_eq_true]
    intro n hn
    have := hlow n ((List.dropLast_sublist _).subset hn)
    exact decide_eq_true (by omega)
  have hend : (octets address).getLast? = some (address % 256) := by
    simp [octets]
  have hlength : (octets address).dropLast.length = 3 := by simp [octets]
  dsimp only
  rw [hend, Option.bind_some]
  unfold assemble
  dsimp only
  rw [hlength, hleading, if_pos]
  · -- the octets are the digits of the address to the base 256
    simp only [octets, List.map_cons, List.map_nil, List.dropLast_cons_of_ne_nil, ne_eq,
      List.cons_ne_self, not_false_eq_true, reduceCtorEq, List.dropLast_singleton, List.foldl_cons,
      List.foldl_nil, Option.some.injEq, Nat.pow_eq]
    omega
  · have : address % 256 < Nat.pow 256 (4 - 3) := Nat.mod_lt _ (by decide)
    simpa using this

/-- The text of an address looks like one. -/
theorem endsInNumber_text (address : ℕ) : endsInNumber (text address).toList = true := by
  have hend : ((octets address).map Decimal.digits).getLast? =
      some (Decimal.digits (address / Nat.pow 2 0 % 256)) := by
    simp [octets]
  have hdigits : (Decimal.digits (address / Nat.pow 2 0 % 256)).all isDigit = true :=
    List.all_eq_true.2 (Decimal.isDigit_of_mem_digits _)
  have hne : (Decimal.digits (address / Nat.pow 2 0 % 256)).isEmpty = false := by
    rw [List.isEmpty_eq_false_iff]
    exact Decimal.digits_ne_nil _
  unfold endsInNumber
  rw [parts_text, hend]
  dsimp only
  rw [hne, hdigits]
  rfl

/-! ### Bounds -/

theorem foldl_lt {leading : List ℕ} (h : ∀ n ∈ leading, n ≤ 255) :
    ∀ acc, leading.foldl (fun n octet => 256 * n + octet) acc <
      (acc + 1) * 256 ^ leading.length := by
  induction leading with
  | nil =>
    intro acc
    simp
  | cons n rest ih =>
    intro acc
    obtain ⟨hn, hrest⟩ := List.forall_mem_cons.1 h
    have hstep := ih hrest (256 * acc + n)
    have hle : 256 * acc + n + 1 ≤ (acc + 1) * 256 := by omega
    have hmul := Nat.mul_le_mul_right (256 ^ rest.length) hle
    rw [List.foldl_cons, List.length_cons, Nat.pow_succ']
    rw [Nat.mul_assoc] at hmul
    omega

/-- **What is read is an address of 32 bits.** -/
theorem lt_of_parse? (h : parse? cs = some address) : address < 2 ^ 32 := by
  unfold parse? at h
  dsimp only at h
  split at h
  · cases h
  · next hfew =>
    split at h
    · next ns hns =>
      obtain ⟨last, hlast, h⟩ := Option.bind_eq_some_iff.1 h
      have hlength := length_of_mapM hns
      unfold assemble at h
      dsimp only at h
      split at h
      · next hfit =>
        cases h
        rw [Bool.and_eq_true, List.all_eq_true] at hfit
        obtain ⟨hleading, hroom⟩ := hfit
        have hbound := foldl_lt (fun n hn => of_decide_eq_true (hleading n hn)) 0
        have hroom := of_decide_eq_true hroom
        have hdrop : ns.dropLast.length ≤ 3 := by
          rw [List.length_dropLast]
          omega
        generalize ns.dropLast.foldl (fun n octet => 256 * n + octet) 0 = value at *
        rw [Nat.pow_eq] at hroom ⊢
        have hall : 256 ^ ns.dropLast.length * 256 ^ (4 - ns.dropLast.length) = 2 ^ 32 := by
          rw [← Nat.pow_add, Nat.add_sub_cancel' (by omega)]
          rfl
        rw [← hall]
        have hmul := Nat.mul_le_mul_right (256 ^ (4 - ns.dropLast.length)) (Nat.succ_le_of_lt hbound)
        rw [Nat.zero_add, Nat.one_mul, Nat.succ_mul] at hmul
        omega
      · cases h
    · cases h

end TelemetryRelay.Ipv4
