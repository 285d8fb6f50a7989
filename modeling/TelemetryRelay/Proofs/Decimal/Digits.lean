import Mathlib.Algebra.Group.Nat.Defs
import Mathlib.Data.List.Induction
import TelemetryRelay.Decimal.FloatText

/-!
# Written numbers

* `value_digits`, `digits_value`: **digits stand for the number they were written for**, and digits
  without a leading zero are the only ones that stand for their number.
* `accumulate_digits`: digits that are written are read as the number they were written for.
* `parseInteger_ofInt`: **a whole number reads back** in every range it lies in.
* `parseInteger_bounds`: what is read lies in the range.
* `isNumberChar_of_mem_chars`: the characters that doubles are written with.
-/

namespace TelemetryRelay.Decimal

variable {c : Char} {cs : List Char} {n bound : Nat} {past : IntegerFault} {i least greatest : Int}

/-! ### Digits -/

theorem digit?_digitChar {d : Nat} (h : d < 10) : digit? (digitChar d) = some d := by
  have hall : ∀ d : Fin 10, digit? (digitChar d) = some d.1 := by decide
  exact hall ⟨d, h⟩

theorem isDigit_digitChar {d : Nat} (h : d < 10) : isDigit (digitChar d) = true := by
  rw [isDigit, digit?_digitChar h]
  rfl

theorem isDigit_iff : isDigit c = true ↔ 48 ≤ c.toNat ∧ c.toNat ≤ 57 := by
  unfold isDigit digit?
  split
  · next h => exact iff_of_true rfl h
  · next h => exact iff_of_false nofun h

theorem isDigit_of_mem_digits (n : Nat) : ∀ c ∈ digits n, isDigit c = true := by
  induction n using digits.induct with
  | case1 n hn =>
    rw [digits, if_pos hn]
    intro c hc
    obtain rfl := List.mem_singleton.1 hc
    exact isDigit_digitChar hn
  | case2 n hn ih =>
    rw [digits, if_neg hn]
    intro c hc
    rcases List.mem_append.1 hc with hc | hc
    · exact ih c hc
    · obtain rfl := List.mem_singleton.1 hc
      exact isDigit_digitChar (Nat.mod_lt n (by decide))

theorem digits_ne_nil (n : Nat) : digits n ≠ [] := by
  rw [digits]
  split
  · exact List.cons_ne_nil _ _
  · exact List.append_ne_nil_of_right_ne_nil _ (List.cons_ne_nil _ _)

/-! ### The value of digits -/

/-- The number that digits behind `acc` stand for. -/
def onto (acc : Nat) (cs : List Char) : Nat := cs.foldl (fun n c => 10 * n + (digit? c).getD 0) acc

theorem onto_append (acc : Nat) (cs ds : List Char) : onto acc (cs ++ ds) = onto (onto acc cs) ds :=
  List.foldl_append

theorem onto_digitChar (acc : Nat) {d : Nat} (h : d < 10) : onto acc [digitChar d] = 10 * acc + d := by
  unfold onto
  rw [List.foldl_cons, List.foldl_nil, digit?_digitChar h]
  rfl

theorem onto_zeros (acc k : Nat) : onto acc (List.replicate k '0') = acc * 10 ^ k := by
  induction k generalizing acc with
  | zero => simp [onto]
  | succ k ih =>
    rw [List.replicate_succ', onto_append, ih]
    show 10 * (acc * 10 ^ k) + 0 = acc * 10 ^ (k + 1)
    rw [Nat.pow_succ, Nat.add_zero, Nat.mul_comm, Nat.mul_assoc]

theorem le_onto (acc : Nat) (cs : List Char) : acc ≤ onto acc cs := by
  induction cs generalizing acc with
  | nil => exact Nat.le_refl _
  | cons c rest ih =>
    have hstep : acc ≤ 10 * acc + (digit? c).getD 0 := by omega
    exact Nat.le_trans hstep (ih _)

/-- **Digits stand for the number they were written for.** -/
theorem value_digits (n : Nat) : value (digits n) = n := by
  induction n using digits.induct with
  | case1 n hn =>
    rw [digits, if_pos hn]
    exact (onto_digitChar 0 hn).trans (by omega)
  | case2 n hn ih =>
    rw [digits, if_neg hn]
    show onto 0 (digits (n / 10) ++ _) = n
    rw [onto_append, onto_digitChar _ (Nat.mod_lt n (by decide))]
    show 10 * value (digits (n / 10)) + n % 10 = n
    rw [ih]
    omega

/-- A digit is the one of a number below ten. -/
theorem exists_digitChar (h : isDigit c = true) : ∃ d, d < 10 ∧ c = digitChar d := by
  unfold isDigit digit? at h
  split at h
  · next hc =>
    obtain ⟨hlow, hhigh⟩ := hc
    have hlow : 48 ≤ c.toNat := hlow
    have hhigh : c.toNat ≤ 57 := hhigh
    refine ⟨c.toNat - 48, by omega, ?_⟩
    unfold digitChar
    rw [show '0'.toNat = 48 from rfl, Nat.add_sub_cancel' hlow, Char.ofNat_toNat]
  · cases h

/-- **Digits without a leading zero are those that are written for their value.** -/
theorem digits_value (h : ∀ c ∈ cs, isDigit c = true) (hne : cs ≠ [])
    (hzero : cs.head? = some '0' → cs.length = 1) : digits (value cs) = cs := by
  induction cs using List.reverseRecOn with
  | nil => exact absurd rfl hne
  | append_singleton ds c ih =>
    obtain ⟨d, hd, rfl⟩ := exists_digitChar (h c (by simp))
    have hvalue : value (ds ++ [digitChar d]) = 10 * value ds + d :=
      (onto_append 0 ds _).trans (onto_digitChar _ hd)
    rw [hvalue]
    by_cases hds : ds = []
    · subst hds
      show digits (10 * 0 + d) = [digitChar d]
      rw [digits, if_pos (by omega)]
      congr 2
      omega
    · -- the digits before do not begin with a zero, so they stand for no less than one
      obtain ⟨c, more, rfl⟩ := List.exists_cons_of_ne_nil hds
      have hlead : c ≠ '0' := fun hc => by simpa using hzero (by rw [hc]; rfl)
      have hrest := ih (fun c hc => h c (List.mem_append_left _ hc)) hds
        (fun hc => absurd (Option.some.inj hc) hlead)
      have hpos : value (c :: more) ≠ 0 := fun h0 => by
        rw [h0, digits, if_pos (by decide)] at hrest
        exact hlead (List.cons.inj hrest).1.symm
      rw [digits, if_neg (by omega), show (10 * value (c :: more) + d) / 10 = value (c :: more) by omega,
        show (10 * value (c :: more) + d) % 10 = d by omega, hrest]

/-- Only the digits of zero begin with a zero. -/
theorem eq_zero_of_head? (h : (digits n).head? = some '0') : n = 0 := by
  induction n using digits.induct with
  | case1 n hn =>
    have hall : ∀ d : Fin 10, digitChar d = '0' → d.1 = 0 := by decide
    rw [digits, if_pos hn] at h
    exact hall ⟨n, hn⟩ (Option.some.inj h)
  | case2 n hn ih =>
    rw [digits, if_neg hn, List.head?_append, Option.or_eq_some_iff] at h
    rcases h with h | ⟨h, -⟩
    · have := ih h
      omega
    · exact absurd (List.head?_eq_none_iff.1 h) (digits_ne_nil _)

theorem lt_pow_length (n : Nat) : n < 10 ^ (digits n).length := by
  induction n using digits.induct with
  | case1 n hn =>
    rw [digits, if_pos hn]
    exact hn
  | case2 n hn ih =>
    rw [digits, if_neg hn, List.length_append, List.length_singleton, Nat.pow_succ]
    omega

/-- A number has no more digits than its size asks for. -/
theorem pow_length_le {m : Nat} (hm : m ≠ 0) : 10 ^ ((digits m).length - 1) ≤ m := by
  induction m using digits.induct with
  | case1 m hlt =>
    rw [digits, if_pos hlt]
    exact Nat.pos_of_ne_zero hm
  | case2 m hlt ih =>
    have hlen : 0 < (digits (m / 10)).length := List.length_pos_iff.2 (digits_ne_nil _)
    have ih := ih (by omega)
    rw [digits, if_neg hlt, List.length_append, List.length_singleton, Nat.add_sub_cancel]
    calc 10 ^ (digits (m / 10)).length = 10 ^ ((digits (m / 10)).length - 1) * 10 := by
          rw [← Nat.pow_succ]
          congr 1
          omega
      _ ≤ m / 10 * 10 := Nat.mul_le_mul_right _ ih
      _ ≤ m := Nat.div_mul_le_self m 10

/-! ### Reading whole numbers -/

theorem accumulate_append (acc : Nat) (cs ds : List Char) : accumulate bound past acc (cs ++ ds) =
    (accumulate bound past acc cs).bind fun n => accumulate bound past n ds := by
  induction cs generalizing acc with
  | nil => rfl
  | cons c rest ih =>
    rw [List.cons_append, accumulate, accumulate]
    cases digit? c with
    | none => rfl
    | some d =>
      dsimp only
      split
      · exact ih _
      · rfl

theorem accumulate_digitChar {acc d : Nat} (hd : d < 10) (hle : 10 * acc + d ≤ bound) :
    accumulate bound past acc [digitChar d] = .ok (10 * acc + d) := by
  rw [accumulate, digit?_digitChar hd]
  exact if_pos hle

/-- **Digits are read as the number they were written for**, if it is not past the bound. -/
theorem accumulate_digits (h : n ≤ bound) : accumulate bound past 0 (digits n) = .ok n := by
  induction n using digits.induct with
  | case1 n hn =>
    rw [digits, if_pos hn, accumulate_digitChar hn (by omega)]
    congr 1
    omega
  | case2 n hn ih =>
    -- the digits before the last one give a tenth, which is not past the bound either
    have hlow : n / 10 ≤ bound := by omega
    have hall : 10 * (n / 10) + n % 10 = n := Nat.div_add_mod n 10
    have hlast : accumulate bound past (n / 10) [digitChar (n % 10)] = .ok n := by
      rw [accumulate_digitChar (Nat.mod_lt n (by decide)) (by omega), hall]
    rw [digits, if_neg hn, accumulate_append, ih hlow]
    exact hlast

/-- **A whole number reads back** in every range it lies in. -/
theorem parseInteger_ofInt (hl : least ≤ i) (hg : i ≤ greatest) :
    parseInteger least greatest (intText i) = .ok i := by
  unfold parseInteger intText ofInt
  rw [String.toList_ofList]
  by_cases hi : i < 0
  · have hempty : (digits i.natAbs).isEmpty = false := by
      simpa using digits_ne_nil i.natAbs
    have hleast : ¬ least ≥ 0 := by omega
    have hbound : i.natAbs ≤ least.natAbs := by omega
    simp only [if_pos hi, hempty, hleast, accumulate_digits hbound]
    have hneg : -(i.natAbs : Int) = i := by omega
    exact congrArg Except.ok hneg
  · have hbound : i.natAbs ≤ greatest.toNat := by omega
    have hpos : (i.natAbs : Int) = i := by omega
    have hread : (accumulate greatest.toNat .tooLarge 0 (digits i.natAbs)).map Int.ofNat =
        .ok i := by
      rw [accumulate_digits hbound]
      exact congrArg Except.ok hpos
    have hdigit := isDigit_of_mem_digits i.natAbs
    rw [if_neg hi]
    -- digits begin with no sign
    split
    case h_1 hnil => exact absurd hnil (digits_ne_nil _)
    case h_2 rest hcs => exact absurd (hdigit '+' (hcs ▸ List.mem_cons_self)) (by decide)
    case h_3 rest hcs => exact absurd (hdigit '-' (hcs ▸ List.mem_cons_self)) (by decide)
    case h_4 => exact hread

theorem accumulate_le {acc : Nat} (hacc : acc ≤ bound) (h : accumulate bound past acc cs = .ok n) :
    n ≤ bound := by
  induction cs generalizing acc with
  | nil =>
    cases h
    exact hacc
  | cons c rest ih =>
    rw [accumulate] at h
    split at h
    · cases h
    · split at h
      · next hle => exact ih hle h
      · cases h

/-- **What is read lies in the range**, if zero does. -/
theorem parseInteger_bounds {s : String} (hl : least ≤ 0) (hg : 0 ≤ greatest)
    (h : parseInteger least greatest s = .ok i) : least ≤ i ∧ i ≤ greatest := by
  have hplain : ∀ {cs}, (accumulate greatest.toNat .tooLarge 0 cs).map Int.ofNat = .ok i →
      least ≤ i ∧ i ≤ greatest := by
    intro cs hcs
    cases hread : accumulate greatest.toNat .tooLarge 0 cs with
    | error e =>
      rw [hread] at hcs
      cases hcs
    | ok n =>
      rw [hread] at hcs
      cases hcs
      have hn := accumulate_le (Nat.zero_le _) hread
      rw [Int.ofNat_eq_natCast]
      omega
  unfold parseInteger at h
  split at h
  · cases h
  · split at h
    · cases h
    · exact hplain h
  · next cs _ =>
    split at h
    · cases h
    · cases hread : accumulate least.natAbs .tooSmall 0 cs with
      | error e =>
        rw [hread] at h
        cases h
      | ok n =>
        rw [hread] at h
        cases h
        have hn := accumulate_le (Nat.zero_le _) hread
        show least ≤ -(n : Int) ∧ -(n : Int) ≤ greatest
        omega
  · exact hplain h

/-! ### Characters -/

/-- Whether numbers are written with a character. -/
def isNumberChar (c : Char) : Bool :=
  isDigit c || ['+', '-', '.', 'e', 'i', 'n', 'f', 'N', 'a'].contains c

theorem isNumberChar_of_isDigit (h : isDigit c = true) : isNumberChar c = true := by
  rw [isNumberChar, h]
  rfl

theorem isNumberChar_of_mem_ofInt (i : Int) : ∀ c ∈ ofInt i, isNumberChar c = true := by
  unfold ofInt
  split
  · exact List.forall_mem_cons.2
      ⟨rfl, fun c hc => isNumberChar_of_isDigit (isDigit_of_mem_digits _ c hc)⟩
  · exact fun c hc => isNumberChar_of_isDigit (isDigit_of_mem_digits _ c hc)

theorem isNumberChar_of_mem_positionalText (h : ∀ c ∈ cs, isDigit c = true) (k : Int)
    (keepsPoint : Bool) : ∀ c ∈ positionalText cs k keepsPoint, isNumberChar c = true := by
  have hcs : ∀ c ∈ cs, isNumberChar c = true := fun c hc => isNumberChar_of_isDigit (h c hc)
  have hzeros : ∀ k, ∀ c ∈ List.replicate k '0', isNumberChar c = true := fun k c hc => by
    rw [List.eq_of_mem_replicate hc]
    rfl
  unfold positionalText
  dsimp only
  split
  · intro c hc
    rcases List.mem_append.1 hc with hc | hc
    · exact (List.mem_append.1 hc).elim (hcs c) (hzeros _ c)
    · cases keepsPoint with
      | false => cases hc
      | true =>
        have hpoint : ['.', '0'].all isNumberChar = true := rfl
        exact List.all_eq_true.1 hpoint c hc
  · split
    · refine List.forall_mem_cons.2 ⟨rfl, List.forall_mem_cons.2 ⟨rfl, fun c hc => ?_⟩⟩
      exact (List.mem_append.1 hc).elim (hzeros _ c) (hcs c)
    · intro c hc
      rcases List.mem_append.1 hc with hc | hc
      · exact hcs c (List.mem_of_mem_take hc)
      · rcases List.mem_cons.1 hc with rfl | hc
        · rfl
        · exact hcs c (List.mem_of_mem_drop hc)

theorem isNumberChar_of_mem_exponentText (h : ∀ c ∈ cs, isDigit c = true) (p : Int) :
    ∀ c ∈ exponentText cs p, isNumberChar c = true := by
  have hcs : ∀ c ∈ cs, isNumberChar c = true := fun c hc => isNumberChar_of_isDigit (h c hc)
  have hpower : ∀ c ∈ digits p.natAbs, isNumberChar c = true := fun c hc =>
    isNumberChar_of_isDigit (isDigit_of_mem_digits _ c hc)
  unfold exponentText
  dsimp only
  intro c hc
  rcases List.mem_append.1 hc with hc | hc
  · split at hc
    · cases hc
    · exact hcs c hc
    · rcases List.mem_cons.1 hc with rfl | hc
      · exact hcs _ List.mem_cons_self
      · rcases List.mem_cons.1 hc with rfl | hc
        · rfl
        · exact hcs c (List.mem_cons_of_mem _ hc)
  · rcases List.mem_cons.1 hc with rfl | hc
    · rfl
    · rcases List.mem_cons.1 hc with rfl | hc
      · split <;> rfl
      · exact hpower c hc

theorem isNumberChar_of_mem_magnitude (style : FloatStyle) (n : Numeral) :
    ∀ c ∈ style.magnitude n, isNumberChar c = true := by
  unfold FloatStyle.magnitude
  dsimp only
  split
  · exact isNumberChar_of_mem_positionalText (isDigit_of_mem_digits _) _ _
  · exact isNumberChar_of_mem_exponentText (isDigit_of_mem_digits _) _

/-- **What doubles are written with**, in every style. -/
theorem isNumberChar_of_mem_chars (style : FloatStyle) (x : Float) :
    ∀ c ∈ style.chars x, isNumberChar c = true := by
  unfold FloatStyle.chars
  split
  · exact List.all_eq_true.1 rfl
  · split <;> exact List.all_eq_true.1 rfl
  · intro c hc
    rcases List.mem_append.1 hc with hc | hc
    · split at hc
      · obtain rfl := List.mem_singleton.1 hc
        rfl
      · cases hc
    · exact isNumberChar_of_mem_magnitude style _ c hc

end TelemetryRelay.Decimal
