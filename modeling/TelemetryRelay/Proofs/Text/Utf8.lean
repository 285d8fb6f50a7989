import TelemetryRelay.Proofs.Text.Percent

/-!
# The octets of a text are read back

A reader that takes any octets reads those of a text as the text: each character is written in the
shortest form there is, so that its first octet tells how many there are, and none of its octets is
malformed.

* `head_utf8EncodeChar`: the octets of a character are read as the character.
* `decodeLossy_octets`: **the octets of a text are read as the text.**
-/

namespace TelemetryRelay.Utf8

variable {a b c d low high : UInt8} {rest : List UInt8}

/-! ### Octets in a range -/

theorem within_iff : (decide (low ≤ a) && decide (a ≤ high)) = true ↔
    low.toNat ≤ a.toNat ∧ a.toNat ≤ high.toNat := by
  rw [Bool.and_eq_true, decide_eq_true_eq, decide_eq_true_eq, UInt8.le_iff_toNat_le,
    UInt8.le_iff_toNat_le]

theorem isTail_of (h : 0x80 ≤ b.toNat ∧ b.toNat ≤ 0xBF) : isTail b = true := within_iff.2 h

theorem eq_of_beq {x : UInt8} (h : (a == x) = true) : a.toNat = x.toNat := by
  rw [beq_iff_eq.1 h]

/-- The second of three octets, which excludes overlong forms and surrogates. -/
theorem opensThree_of (ha : 0xE0 ≤ a.toNat ∧ a.toNat ≤ 0xEF) (hb : 0x80 ≤ b.toNat ∧ b.toNat ≤ 0xBF)
    (hlow : a.toNat = 0xE0 → 0xA0 ≤ b.toNat) (hhigh : a.toNat = 0xED → b.toNat ≤ 0x9F) :
    opensThree a b = true := by
  unfold opensThree
  split
  · next h => exact within_iff.2 ⟨hlow (eq_of_beq h), hb.2⟩
  · next hfirst =>
    split
    · next h => exact within_iff.2 ⟨hb.1, hhigh (eq_of_beq h)⟩
    · have hne : a.toNat ≠ 0xE0 := by
        intro h
        exact hfirst (beq_iff_eq.2 (UInt8.toNat_inj.1 h))
      have hin : 0xE1 ≤ a.toNat ∧ a.toNat ≤ 0xEF := by omega
      rw [Bool.and_eq_true]
      exact ⟨within_iff.2 hin, isTail_of hb⟩

/-- The second of four octets, which excludes overlong forms and numbers that are too large. -/
theorem opensFour_of (ha : 0xF0 ≤ a.toNat ∧ a.toNat ≤ 0xF4) (hb : 0x80 ≤ b.toNat ∧ b.toNat ≤ 0xBF)
    (hlow : a.toNat = 0xF0 → 0x90 ≤ b.toNat) (hhigh : a.toNat = 0xF4 → b.toNat ≤ 0x8F) :
    opensFour a b = true := by
  unfold opensFour
  split
  · next h => exact within_iff.2 ⟨hlow (eq_of_beq h), hb.2⟩
  · next hfirst =>
    split
    · next h => exact within_iff.2 ⟨hb.1, hhigh (eq_of_beq h)⟩
    · next hlast =>
      have hne : a.toNat ≠ 0xF0 := by
        intro h
        exact hfirst (beq_iff_eq.2 (UInt8.toNat_inj.1 h))
      have hne' : a.toNat ≠ 0xF4 := by
        intro h
        exact hlast (beq_iff_eq.2 (UInt8.toNat_inj.1 h))
      have hin : 0xF1 ≤ a.toNat ∧ a.toNat ≤ 0xF3 := by omega
      rw [Bool.and_eq_true]
      exact ⟨within_iff.2 hin, isTail_of hb⟩

/-! ### The first octet tells how many there are -/

theorem not_ascii (h : 0x80 ≤ a.toNat) : ¬ a < 0x80 := by
  rw [UInt8.lt_iff_toNat_lt]
  exact Nat.not_lt.2 h

theorem head_two (ha : 0xC2 ≤ a.toNat ∧ a.toNat ≤ 0xDF) (hb : isTail b = true) :
    head a (b :: rest) = .character (joinTwo a b) 2 := by
  have hin : (decide (0xC2 ≤ a) && decide (a ≤ 0xDF)) = true := within_iff.2 ha
  unfold head
  rw [if_neg (not_ascii (by omega)), if_pos hin]
  exact if_pos hb

theorem head_three (ha : 0xE0 ≤ a.toNat ∧ a.toNat ≤ 0xEF) (hb : opensThree a b = true)
    (hc : isTail c = true) : head a (b :: c :: rest) = .character (joinThree a b c) 3 := by
  have hnot : ¬ (decide (0xC2 ≤ a) && decide (a ≤ 0xDF)) = true := by
    intro h
    have : 0xC2 ≤ a.toNat ∧ a.toNat ≤ 0xDF := within_iff.1 h
    omega
  have hin : (decide (0xE0 ≤ a) && decide (a ≤ 0xEF)) = true := within_iff.2 ha
  unfold head
  rw [if_neg (not_ascii (by omega)), if_neg hnot, if_pos hin]
  dsimp only
  rw [hb, hc]
  rfl

theorem head_four (ha : 0xF0 ≤ a.toNat ∧ a.toNat ≤ 0xF4) (hb : opensFour a b = true)
    (hc : isTail c = true) (hd : isTail d = true) :
    head a (b :: c :: d :: rest) = .character (joinFour a b c d) 4 := by
  have hnot : ¬ (decide (0xC2 ≤ a) && decide (a ≤ 0xDF)) = true := by
    intro h
    have : 0xC2 ≤ a.toNat ∧ a.toNat ≤ 0xDF := within_iff.1 h
    omega
  have hnot' : ¬ (decide (0xE0 ≤ a) && decide (a ≤ 0xEF)) = true := by
    intro h
    have : 0xE0 ≤ a.toNat ∧ a.toNat ≤ 0xEF := within_iff.1 h
    omega
  have hin : (decide (0xF0 ≤ a) && decide (a ≤ 0xF4)) = true := within_iff.2 ha
  unfold head
  rw [if_neg (not_ascii (by omega)), if_neg hnot, if_neg hnot', if_pos hin]
  dsimp only
  rw [hb, hc, hd]
  rfl

/-! ### Characters -/

/-- **The octets of a character are read as the character.** -/
theorem head_utf8EncodeChar (x : Char) : ∃ first more, String.utf8EncodeChar x = first :: more ∧
    ∀ rest, head first (more ++ rest) = .character x (more.length + 1) := by
  obtain ⟨n, hn⟩ : ∃ n, x.toNat = n := ⟨_, rfl⟩
  have hvalid : n < 0xD800 ∨ (0xDFFF < n ∧ n < 0x110000) := hn ▸ x.valid
  have hself : Char.ofNat n = x := by rw [← hn, Char.ofNat_toNat]
  have hval : x.val.toNat = n := hn
  have hoctet : ∀ m < 256, (UInt8.ofNat m).toNat = m := fun m hm => toNat_toUInt8 hm
  -- one case for each number of octets, in which the bits of the code are joined again
  unfold String.utf8EncodeChar
  dsimp only
  rw [hval]
  split
  · next hone =>
    refine ⟨_, _, rfl, fun rest => ?_⟩
    have hlt : UInt8.ofNat n < 0x80 := by
      rw [UInt8.lt_iff_toNat_lt, hoctet n (by omega)]
      exact Nat.lt_succ_of_le hone
    unfold head
    rw [if_pos hlt, hoctet n (by omega), hself]
    rfl
  · split
    · next hone htwo =>
      have ha := hoctet (n / 64 % 32 + 192) (by omega)
      have hb := hoctet (n % 64 + 128) (by omega)
      refine ⟨_, _, rfl, fun rest => ?_⟩
      rw [List.singleton_append, head_two (by omega) (isTail_of (by omega)), joinTwo, ha, hb,
        ← hself]
      refine congrArg (Head.character · 2) (congrArg Char.ofNat ?_)
      omega
    · split
      · next hone htwo hthree =>
        have ha := hoctet (n / 4096 % 16 + 224) (by omega)
        have hb := hoctet (n / 64 % 64 + 128) (by omega)
        have hc := hoctet (n % 64 + 128) (by omega)
        refine ⟨_, _, rfl, fun rest => ?_⟩
        rw [List.cons_append, List.singleton_append, head_three (by omega)
          (opensThree_of (by omega) (by omega) (by omega) (by omega)) (isTail_of (by omega)),
          joinThree, ha, hb, hc, ← hself]
        refine congrArg (Head.character · 3) (congrArg Char.ofNat ?_)
        omega
      · next hone htwo hthree =>
        have ha := hoctet (n / 262144 % 8 + 240) (by omega)
        have hb := hoctet (n / 4096 % 64 + 128) (by omega)
        have hc := hoctet (n / 64 % 64 + 128) (by omega)
        have hd := hoctet (n % 64 + 128) (by omega)
        refine ⟨_, _, rfl, fun rest => ?_⟩
        rw [List.cons_append, List.cons_append, List.singleton_append, head_four (by omega)
          (opensFour_of (by omega) (by omega) (by omega) (by omega)) (isTail_of (by omega))
          (isTail_of (by omega)), joinFour, ha, hb, hc, hd, ← hself]
        refine congrArg (Head.character · 4) (congrArg Char.ofNat ?_)
        omega

/-- **The octets of a text are read as the text.** -/
theorem decodeLossy_octets (s : String) : decodeLossy (octets s) = s.toList := by
  rw [← String.ofList_toList (s := s), octets_ofList, String.toList_ofList]
  induction s.toList with
  | nil => rw [List.flatMap_nil, decodeLossy]
  | cons x rest ih =>
    obtain ⟨first, more, hchar, hhead⟩ := head_utf8EncodeChar x
    rw [List.flatMap_cons, hchar, List.cons_append, decodeLossy, hhead]
    dsimp only
    rw [Nat.add_sub_cancel, List.drop_left, ih]

end TelemetryRelay.Utf8
