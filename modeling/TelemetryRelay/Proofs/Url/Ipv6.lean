import Mathlib.Algebra.Group.Nat.Defs
import Mathlib.Data.List.TakeWhile
import TelemetryRelay.Url.Ipv6

/-!
# IPv6 addresses are read back

In the text of an address the longest run of zeros is left out. A scan finds the pieces around it,
and the place where it was; its length is what they lack of eight.

* `scan_joined_append`, `scan_joined`: what is scanned of pieces.
* `exists_zeros`: an address is its longest run of zeros and the pieces around it.
* `inRange_of_parse?`: what is read is eight pieces of 16 bits.
* `parse?_text`: **eight pieces of 16 bits are read back.**
-/

namespace TelemetryRelay.Ipv6

variable {cs ds rest more : List Char} {pieces qs : List ℕ} {fuel q n : ℕ} {s t : Scan}

/-! ### Pieces -/

theorem readDigits_append (base acc : ℕ) (ds es : List Char) :
    Ipv4.readDigits base acc (ds ++ es) =
      (Ipv4.readDigits base acc ds).bind fun n => Ipv4.readDigits base n es := by
  induction ds generalizing acc with
  | nil => rfl
  | cons d ds ih =>
    rw [List.cons_append, Ipv4.readDigits, Ipv4.readDigits]
    split
    · split
      · exact ih _
      · rfl
    · rfl

/-- Digits are read as a number that they are enough for. -/
theorem readDigits_lt {base acc : ℕ} (h : Ipv4.readDigits base acc ds = some n) :
    n < (acc + 1) * base ^ ds.length := by
  induction ds generalizing acc with
  | nil =>
    cases h
    simp
  | cons d ds ih =>
    rw [Ipv4.readDigits] at h
    split at h
    · next v hv =>
      split at h
      · next hlt =>
        have hrest := ih h
        have hle : base * acc + v + 1 ≤ (acc + 1) * base := by
          rw [Nat.succ_mul, Nat.mul_comm]
          omega
        have hmul := Nat.mul_le_mul_right (base ^ ds.length) hle
        rw [List.length_cons, Nat.pow_succ', ← Nat.mul_assoc]
        omega
      · cases h
    · cases h

/-- The digit of a number below sixteen. -/
def hexDigit (d : ℕ) : Char := if d < 10 then Char.ofNat (48 + d) else Char.ofNat (87 + d)

theorem digit?_hexDigit : ∀ d < 16, Ipv4.digit? (hexDigit d) = some d := by decide

theorem hexText_eq (n : ℕ) :
    hexText n = if n < 16 then [hexDigit n] else hexText (n / 16) ++ [hexDigit (n % 16)] := by
  rw [hexText]
  rfl

/-- A piece is written in hexadecimal digits. -/
theorem digit_of_mem_hexText (n : ℕ) : ∀ c ∈ hexText n, ∃ d < 16, c = hexDigit d := by
  induction n using Nat.strong_induction_on with
  | _ n ih =>
    intro c hc
    rw [hexText_eq] at hc
    split at hc
    · next hlt => exact ⟨n, hlt, List.mem_singleton.1 hc⟩
    · rcases List.mem_append.1 hc with hc | hc
      · exact ih (n / 16) (by omega) c hc
      · exact ⟨n % 16, Nat.mod_lt _ (by decide), List.mem_singleton.1 hc⟩

theorem hexText_ne_nil (n : ℕ) : hexText n ≠ [] := by
  rw [hexText_eq]
  split
  · exact List.cons_ne_nil _ _
  · exact List.append_ne_nil_of_right_ne_nil _ (List.cons_ne_nil _ _)

/-- A piece is read back from its digits. -/
theorem readDigits_hexText (n : ℕ) : Ipv4.readDigits 16 0 (hexText n) = some n := by
  induction n using Nat.strong_induction_on with
  | _ n ih =>
    have hone : ∀ acc, ∀ d < 16, Ipv4.readDigits 16 acc [hexDigit d] = some (16 * acc + d) := by
      intro acc d hd
      rw [Ipv4.readDigits, digit?_hexDigit d hd]
      exact if_pos hd
    rw [hexText_eq]
    split
    · next hlt =>
      rw [hone 0 n hlt, Nat.mul_zero, Nat.zero_add]
    · rw [readDigits_append, ih (n / 16) (by omega), Option.bind_some,
        hone _ _ (Nat.mod_lt _ (by decide)), Nat.div_add_mod]

theorem length_hexText_le : ∀ {k n : ℕ}, n < 16 ^ (k + 1) → (hexText n).length ≤ k + 1 := by
  intro k
  induction k with
  | zero =>
    intro n h
    rw [hexText_eq, if_pos (by simpa using h)]
    exact le_rfl
  | succ k ih =>
    intro n h
    rw [hexText_eq]
    split
    · simp
    · have hless : n / 16 < 16 ^ (k + 1) := by
        rw [Nat.pow_succ] at h
        omega
      have := ih hless
      rw [List.length_append, List.length_singleton]
      omega

/-- **The digits of a piece** are cut off where a colon follows, or nothing. -/
theorem hexDigits_hexText (hq : q < 65536) (hrest : ∀ c ∈ rest.head?, c = ':') :
    hexDigits (hexText q ++ rest) = hexText q := by
  have hlength : (hexText q).length ≤ 4 := @length_hexText_le 3 q (by omega)
  have hdigits : ∀ c ∈ hexText q, (Ipv4.digit? c).isSome = true := by
    intro c hc
    obtain ⟨d, hd, rfl⟩ := digit_of_mem_hexText q c hc
    rw [digit?_hexDigit d hd]
    rfl
  obtain ⟨room, hroom⟩ : ∃ room, 4 - (hexText q).length = room := ⟨_, rfl⟩
  unfold hexDigits
  rw [List.take_append, List.take_of_length_le hlength, List.takeWhile_append_of_pos hdigits, hroom]
  have hstop : (rest.take room).takeWhile (fun c => (Ipv4.digit? c).isSome) = [] := by
    cases rest with
    | nil => simp
    | cons c more =>
      obtain rfl := hrest c rfl
      cases room with
      | zero => rfl
      | succ room => rfl
  rw [hstop, List.append_nil]

/-! ### Scans -/

/-- What is scanned of a piece and a text behind it. -/
theorem scan_hexText (hq : q < 65536) (hs : s.pieces.length < 8)
    (hrest : ∀ c ∈ rest.head?, c = ':') : scan (fuel + 1) s (hexText q ++ rest) =
      match rest with
      | [] => some { s with pieces := s.pieces ++ [q] }
      | ':' :: [] => none
      | _ :: more => scan fuel { s with pieces := s.pieces ++ [q] } more := by
  obtain ⟨c, tail, htext⟩ := List.exists_cons_of_ne_nil (hexText_ne_nil q)
  have hhex := hexDigits_hexText hq hrest
  -- no digit is a colon, so that a piece is read and not a gap
  have hcolon : c ≠ ':' := by
    have hmem : c ∈ hexText q := htext ▸ List.mem_cons_self
    obtain ⟨d, hd, rfl⟩ := digit_of_mem_hexText q c hmem
    rintro hbad
    have hdigit := digit?_hexDigit d hd
    rw [hbad] at hdigit
    cases hdigit
  have hdrop : (hexText q ++ rest).drop (hexText q).length = rest := List.drop_left
  have hvalue : (Ipv4.readDigits 16 0 (hexText q)).getD 0 = q := by
    rw [readDigits_hexText, Option.getD_some]
  rw [htext, List.cons_append] at hhex hdrop ⊢
  rw [scan, if_neg (by omega), if_neg hcolon]
  dsimp only
  rw [hhex, hdrop, ← htext, hvalue]
  cases rest with
  | nil => rfl
  | cons x more =>
    obtain rfl := hrest x rfl
    cases more with
    | nil => rfl
    | cons y more => rfl

theorem joined_singleton (q : ℕ) : joined [q] = hexText q := by
  simp [joined]

theorem joined_cons_cons (q r : ℕ) (qs : List ℕ) :
    joined (q :: r :: qs) = hexText q ++ ':' :: joined (r :: qs) := by
  simp [joined]

theorem joined_ne_nil (hne : qs ≠ []) : joined qs ≠ [] := by
  cases qs with
  | nil => exact absurd rfl hne
  | cons q qs =>
    cases qs with
    | nil =>
      rw [joined_singleton]
      exact hexText_ne_nil q
    | cons r qs =>
      rw [joined_cons_cons]
      exact List.append_ne_nil_of_right_ne_nil _ (List.cons_ne_nil _ _)

/-- A piece needs at least one character. -/
theorem length_le_joined (qs : List ℕ) : qs.length ≤ (joined qs).length := by
  induction qs with
  | nil => exact Nat.zero_le _
  | cons q qs ih =>
    have hsome := List.length_pos_iff.2 (hexText_ne_nil q)
    cases qs with
    | nil =>
      rw [joined_singleton]
      exact hsome
    | cons r qs =>
      simp only [joined_cons_cons, List.length_append, List.length_cons] at ih ⊢
      omega

/-- **What is scanned of pieces and a colon**, if the text goes on. -/
theorem scan_joined_append (hne : qs ≠ []) (hlt : ∀ q ∈ qs, q < 65536)
    (hroom : s.pieces.length + qs.length ≤ 8) {c : Char} :
    scan (fuel + qs.length) s (joined qs ++ ':' :: c :: more) =
      scan fuel { s with pieces := s.pieces ++ qs } (c :: more) := by
  induction qs generalizing s with
  | nil => exact absurd rfl hne
  | cons q qs ih =>
    obtain ⟨hq, hlt⟩ := List.forall_mem_cons.1 hlt
    rw [List.length_cons] at hroom
    have hfew : s.pieces.length < 8 := by omega
    have hone : ∀ {x : Char} {tail : List Char}, scan (fuel + qs.length + 1) s
        (hexText q ++ ':' :: x :: tail) =
          scan (fuel + qs.length) { s with pieces := s.pieces ++ [q] } (x :: tail) := by
      intro x tail
      exact scan_hexText hq hfew (by simp)
    rw [List.length_cons, ← Nat.add_assoc]
    cases qs with
    | nil =>
      rw [joined_singleton]
      exact hone
    | cons r qs =>
      obtain ⟨x, tail, htext⟩ := List.exists_cons_of_ne_nil (joined_ne_nil (List.cons_ne_nil r qs))
      have hrest := @ih { s with pieces := s.pieces ++ [q] } (List.cons_ne_nil r qs) hlt
        (by rw [List.length_append, List.length_singleton]; omega)
      rw [joined_cons_cons, List.append_assoc, List.cons_append, htext, List.cons_append, hone,
        ← List.cons_append, ← htext, hrest]
      dsimp only
      rw [List.append_assoc, List.singleton_append]

theorem joined_concat (hne : qs ≠ []) (q : ℕ) :
    joined (qs ++ [q]) = joined qs ++ ':' :: hexText q := by
  induction qs with
  | nil => exact absurd rfl hne
  | cons r qs ih =>
    cases qs with
    | nil =>
      rw [List.singleton_append, joined_cons_cons, joined_singleton, joined_singleton]
    | cons p qs =>
      rw [List.cons_append, List.cons_append, joined_cons_cons, ← List.cons_append,
        ih (List.cons_ne_nil _ _), joined_cons_cons, List.append_assoc, List.cons_append]

/-- **What is scanned of pieces**, up to the end of the text. -/
theorem scan_joined (hlt : ∀ q ∈ qs, q < 65536) (hroom : s.pieces.length + qs.length ≤ 8) :
    scan (fuel + qs.length + 1) s (joined qs) = some { s with pieces := s.pieces ++ qs } := by
  rcases List.eq_nil_or_concat qs with rfl | ⟨front, q, rfl⟩
  · rw [List.append_nil]
    rfl
  · rw [List.concat_eq_append] at hlt hroom ⊢
    rw [List.forall_mem_append, List.forall_mem_singleton] at hlt
    obtain ⟨hlt, hq⟩ := hlt
    rw [List.length_append, List.length_singleton] at hroom ⊢
    have hend : ∀ {s : Scan} {fuel : ℕ}, s.pieces.length < 8 →
        scan (fuel + 1) s (hexText q) = some { s with pieces := s.pieces ++ [q] } := by
      intro s fuel hfew
      have hscan := @scan_hexText [] fuel q s hq hfew nofun
      rwa [List.append_nil] at hscan
    by_cases hne : front = []
    · rw [hne, List.nil_append, joined_singleton, hend (by omega)]
    · obtain ⟨c, more, htext⟩ := List.exists_cons_of_ne_nil (hexText_ne_nil q)
      have hfront := @scan_joined_append more front (fuel + 2) s hne hlt (by omega) c
      have hfuel : fuel + (front.length + 1) + 1 = fuel + 2 + front.length := by omega
      rw [joined_concat hne, htext, hfuel, hfront, ← htext,
        hend (by rw [List.length_append]; omega)]
      dsimp only
      rw [List.append_assoc]

/-- **What is scanned of pieces with a gap between them.** -/
theorem scan_gap (hlt : ∀ q ∈ pieces ++ qs, q < 65536) (hne : pieces ≠ [])
    (hroom : pieces.length + qs.length < 8) (hfuel : pieces.length + qs.length + 2 ≤ fuel) :
    scan fuel ⟨[], none⟩ (joined pieces ++ ':' :: ':' :: joined qs) =
      some ⟨pieces ++ qs, some pieces.length⟩ := by
  rw [List.forall_mem_append] at hlt
  obtain ⟨spare, hspare⟩ : ∃ spare, fuel = spare + qs.length + 1 + 1 + pieces.length :=
    ⟨fuel - pieces.length - qs.length - 2, by omega⟩
  have hfront := @scan_joined_append (joined qs) pieces (spare + qs.length + 1 + 1) ⟨[], none⟩ hne
    hlt.1 (by rw [List.length_nil]; omega) ':'
  have hback := @scan_joined qs spare ⟨pieces, some pieces.length⟩ hlt.2 (by dsimp only; omega)
  rw [hspare, hfront, List.nil_append, scan, if_neg (by dsimp only; omega), if_pos rfl]
  exact hback

/-! ### Zeros -/

theorem longestZeros_le (pieces : List ℕ) :
    (longestZeros pieces).2 ≤ zerosFrom pieces (longestZeros pieces).1 := by
  have hfold : ∀ (places : List ℕ) (best : ℕ × ℕ), best.2 ≤ zerosFrom pieces best.1 →
      (places.foldl (fun best i => if zerosFrom pieces i > best.2 then (i, zerosFrom pieces i)
        else best) best).2 ≤ zerosFrom pieces (places.foldl (fun best i =>
          if zerosFrom pieces i > best.2 then (i, zerosFrom pieces i) else best) best).1 := by
    intro places
    induction places with
    | nil =>
      intro best h
      exact h
    | cons i places ih =>
      intro best h
      rw [List.foldl_cons]
      apply ih
      split
      · exact le_rfl
      · exact h
  exact hfold _ _ (Nat.zero_le _)

/-- **The pieces around the longest run of zeros.** -/
theorem exists_zeros (pieces : List ℕ) : pieces = pieces.take (longestZeros pieces).1 ++
    List.replicate (longestZeros pieces).2 0 ++
      pieces.drop ((longestZeros pieces).1 + (longestZeros pieces).2) := by
  obtain ⟨start, hstart⟩ : ∃ start, (longestZeros pieces).1 = start := ⟨_, rfl⟩
  obtain ⟨length, hlength⟩ : ∃ length, (longestZeros pieces).2 = length := ⟨_, rfl⟩
  have hle := longestZeros_le pieces
  rw [hstart, hlength] at hle ⊢
  unfold zerosFrom at hle
  have hrun : (pieces.drop start).take length = List.replicate length 0 := by
    obtain ⟨zeros, hzeros⟩ : ∃ zeros, (pieces.drop start).takeWhile (· == 0) = zeros := ⟨_, rfl⟩
    have hsplit : pieces.drop start = zeros ++ (pieces.drop start).dropWhile (· == 0) := by
      rw [← hzeros, List.takeWhile_append_dropWhile]
    rw [hzeros] at hle
    rw [hsplit, List.take_append_of_le_length hle, List.eq_replicate_iff]
    refine ⟨List.length_take_of_le hle, fun q hq => ?_⟩
    have hmem : q ∈ (pieces.drop start).takeWhile (· == 0) := hzeros ▸ List.mem_of_mem_take hq
    simpa using List.mem_takeWhile_imp hmem
  rw [← hrun, List.append_assoc, ← List.drop_drop, List.take_append_drop, List.take_append_drop]

/-! ### Texts -/

/-- Eight pieces of 16 bits. -/
def InRange (pieces : List ℕ) : Prop := pieces.length = 8 ∧ ∀ q ∈ pieces, q < 65536

/-- A text that does not begin with a colon. -/
theorem parse?_of_ne (h : ∀ rest, cs ≠ ':' :: rest) :
    parse? cs = (scan (cs.length + 1) ⟨[], none⟩ cs).bind Scan.expand := by
  unfold parse?
  split
  · exact absurd rfl (h _)
  · exact absurd rfl (h _)
  · rfl

theorem ne_colon_of_joined (hne : qs ≠ []) (more : List Char) :
    ∀ rest, joined qs ++ more ≠ ':' :: rest := by
  intro rest h
  obtain ⟨q, qs, rfl⟩ := List.exists_cons_of_ne_nil hne
  obtain ⟨c, tail, htext⟩ := List.exists_cons_of_ne_nil (hexText_ne_nil q)
  have hcolon : c = ':' := by
    cases qs with
    | nil =>
      rw [joined_singleton, htext] at h
      exact (List.cons.inj h).1
    | cons r qs =>
      rw [joined_cons_cons, htext] at h
      exact (List.cons.inj h).1
  obtain ⟨d, hd, hc⟩ := digit_of_mem_hexText q c (htext ▸ List.mem_cons_self)
  have hdigit := digit?_hexDigit d hd
  rw [← hc, hcolon] at hdigit
  cases hdigit

/-- The gap in a scan is filled with the zeros that are missing. -/
theorem expand_gap {front back : List ℕ} {run : ℕ} (h : front.length + run + back.length = 8)
    (hrun : 0 < run) : Scan.expand ⟨front ++ back, some front.length⟩ =
      some (front ++ List.replicate run 0 ++ back) := by
  have hmissing : 8 - (front ++ back).length = run := by
    rw [List.length_append]
    omega
  unfold Scan.expand
  dsimp only
  rw [hmissing, if_neg (by rw [List.length_append]; omega), List.take_left, List.drop_left]

/-- Eight pieces are read back. -/
theorem parse?_joined (h : InRange pieces) : parse? (joined pieces) = some pieces := by
  obtain ⟨hlength, hlt⟩ := h
  have hne : pieces ≠ [] := List.length_pos_iff.1 (by omega)
  have hneeded := length_le_joined pieces
  -- the text has more characters than pieces, so that the scan does not run out
  obtain ⟨spare, hspare⟩ : ∃ spare, (joined pieces).length = spare + pieces.length :=
    ⟨(joined pieces).length - pieces.length, by omega⟩
  have hscan := @scan_joined pieces spare ⟨[], none⟩ hlt (by rw [List.length_nil]; omega)
  have hcolon := ne_colon_of_joined hne []
  rw [List.append_nil] at hcolon
  rw [parse?_of_ne hcolon, hspare, hscan, Option.bind_some, List.nil_append]
  exact if_pos hlength

/-- **Pieces around a gap are read back**, with zeros in it. -/
theorem parse?_gap {front back : List ℕ} {run : ℕ} (h : front.length + run + back.length = 8)
    (hrun : 0 < run) (hlt : ∀ q ∈ front ++ back, q < 65536) :
    parse? (joined front ++ ':' :: ':' :: joined back) =
      some (front ++ List.replicate run 0 ++ back) := by
  have hexpand := expand_gap h hrun
  have hneeded := length_le_joined back
  by_cases hne : front = []
  · -- the zeros come first
    obtain ⟨spare, hspare⟩ : ∃ spare, (joined back).length = spare + back.length :=
      ⟨(joined back).length - back.length, by omega⟩
    have hback : ∀ q ∈ back, q < 65536 := (List.forall_mem_append.1 hlt).2
    have hscan := @scan_joined back spare ⟨[], some 0⟩ hback (by rw [List.length_nil]; omega)
    rw [hne, List.nil_append, List.length_nil] at hexpand
    have hparse : parse? (':' :: ':' :: joined back) =
        (scan ((joined back).length + 1) ⟨[], some 0⟩ (joined back)).bind Scan.expand := rfl
    have hnothing : joined [] = [] := rfl
    rw [hne, hnothing, List.nil_append, hparse, hspare, hscan]
    exact hexpand
  · have henough : front.length + back.length + 2 ≤
        (joined front ++ ':' :: ':' :: joined back).length + 1 := by
      have := length_le_joined front
      simp only [List.length_append, List.length_cons]
      omega
    have hscan := scan_gap hlt hne (by omega) henough
    rw [parse?_of_ne (ne_colon_of_joined hne _), hscan]
    exact hexpand

theorem toList_text (pieces : List ℕ) : (text pieces).toList =
    if 2 ≤ (longestZeros pieces).2 then
      joined (pieces.take (longestZeros pieces).1) ++ ':' :: ':' ::
        joined (pieces.drop ((longestZeros pieces).1 + (longestZeros pieces).2))
    else joined pieces := String.toList_ofList

/-- **An address is read back.** -/
theorem parse?_text (h : InRange pieces) : parse? (text pieces).toList = some pieces := by
  have hsplit := exists_zeros pieces
  rw [toList_text]
  obtain ⟨front, hfront⟩ : ∃ front, pieces.take (longestZeros pieces).1 = front := ⟨_, rfl⟩
  obtain ⟨run, hrun⟩ : ∃ run, (longestZeros pieces).2 = run := ⟨_, rfl⟩
  obtain ⟨back, hback⟩ : ∃ back,
    pieces.drop ((longestZeros pieces).1 + (longestZeros pieces).2) = back := ⟨_, rfl⟩
  rw [hfront, hback, hrun]
  rw [hfront, hback, hrun] at hsplit
  split
  · next hlong =>
    have hall : front.length + run + back.length = 8 := by
      rw [← h.1, hsplit, List.length_append, List.length_append, List.length_replicate]
    have hboth : ∀ q ∈ front ++ back, q < 65536 := by
      intro q hq
      apply h.2 q
      rw [hsplit]
      rcases List.mem_append.1 hq with hq | hq
      · exact List.mem_append_left _ (List.mem_append_left _ hq)
      · exact List.mem_append_right _ hq
    rw [parse?_gap hall (by omega) hboth, ← hsplit]
  · exact parse?_joined h

/-! ### Bounds -/

/-- Pieces of 16 bits, eight at most. -/
def Scan.Fits (s : Scan) : Prop := s.pieces.length ≤ 8 ∧ ∀ q ∈ s.pieces, q < 65536

theorem Scan.Fits.push (h : s.Fits) (hroom : s.pieces.length + qs.length ≤ 8)
    (hqs : ∀ q ∈ qs, q < 65536) {compress : Option ℕ} :
    Scan.Fits ⟨s.pieces ++ qs, compress⟩ := by
  refine ⟨?_, List.forall_mem_append.2 ⟨h.2, hqs⟩⟩
  rw [List.length_append]
  exact hroom

theorem octet?_le {o : ℕ} (h : octet? cs = some (o, rest)) : o ≤ 255 := by
  unfold octet? at h
  dsimp only at h
  split at h
  · cases h
  · next hfit =>
    cases h
    simp only [Bool.or_eq_true, not_or, decide_eq_true_eq] at hfit
    omega

theorem embedded?_lt {high low : ℕ} (h : embedded? cs = some (high, low)) :
    high < 65536 ∧ low < 65536 := by
  unfold embedded? at h
  split at h
  · next a _ ha =>
    split at h
    · next b _ hb =>
      split at h
      · next c _ hc =>
        split at h
        · next d hd =>
          cases h
          have := octet?_le ha
          have := octet?_le hb
          have := octet?_le hc
          have := octet?_le hd
          omega
        · cases h
      · cases h
    · cases h
  · cases h

/-- Four digits at most are a piece. -/
theorem hexValue_lt (cs : List Char) : (Ipv4.readDigits 16 0 (hexDigits cs)).getD 0 < 65536 := by
  have hfew : (hexDigits cs).length ≤ 4 := by
    have hprefix := List.takeWhile_prefix (l := cs.take 4) fun c => (Ipv4.digit? c).isSome
    have hle := hprefix.length_le
    have := List.length_take_le 4 cs
    unfold hexDigits
    omega
  cases hread : Ipv4.readDigits 16 0 (hexDigits cs) with
  | none => decide
  | some n =>
    have hlt := readDigits_lt hread
    have hpow : 16 ^ (hexDigits cs).length ≤ 16 ^ 4 := Nat.pow_le_pow_right (by decide) hfew
    rw [Option.getD_some]
    omega

/-- What is scanned fits. -/
theorem scan_fits (hs : s.Fits) (h : scan fuel s cs = some t) : t.Fits := by
  induction fuel generalizing s cs with
  | zero => cases h
  | succ fuel ih =>
    cases cs with
    | nil =>
      cases h
      exact hs
    | cons c rest =>
      rw [scan] at h
      split at h
      · cases h
      · next hfull =>
        have hfew := hs.1
        have hpiece : Scan.Fits ⟨s.pieces ++
            [(Ipv4.readDigits 16 0 (hexDigits (c :: rest))).getD 0], s.compress⟩ := by
          apply hs.push
          · rw [List.length_singleton]
            omega
          · exact List.forall_mem_singleton.2 (hexValue_lt _)
        split at h
        · -- a second colon only marks the gap
          split at h
          · cases h
          · have hsame : Scan.Fits ⟨s.pieces, some s.pieces.length⟩ := hs
            exact ih hsame h
        · dsimp only at h
          split at h
          · -- an address of four numbers ends the text, and makes two pieces
            split at h
            · cases h
            · next hlate =>
              obtain ⟨⟨high, low⟩, hembedded, rfl⟩ := Option.map_eq_some_iff.1 h
              obtain ⟨hhigh, hlow⟩ := embedded?_lt hembedded
              simp only [Bool.or_eq_true, not_or, decide_eq_true_eq] at hlate
              refine hs.push ?_ ?_
              · simp only [List.length_cons, List.length_nil]
                omega
              · simp only [List.forall_mem_cons]
                exact ⟨hhigh, hlow, nofun⟩
          · cases h
          · exact ih hpiece h
          · cases h
            exact hpiece
          · cases h

theorem expand_inRange (hs : s.Fits) (h : s.expand = some pieces) : InRange pieces := by
  obtain ⟨hlength, hlt⟩ := hs
  unfold Scan.expand at h
  split at h
  · split at h
    · next hfull =>
      cases h
      exact ⟨hfull, hlt⟩
    · cases h
  · next k _ =>
    split at h
    · cases h
    · next hroom =>
      cases h
      constructor
      · simp only [List.length_append, List.length_take, List.length_replicate, List.length_drop]
        omega
      · intro q hq
        rcases List.mem_append.1 hq with hq | hq
        · rcases List.mem_append.1 hq with hq | hq
          · exact hlt q (List.mem_of_mem_take hq)
          · rw [List.eq_of_mem_replicate hq]
            decide
        · exact hlt q (List.mem_of_mem_drop hq)

/-- **What is read is an address in range.** -/
theorem inRange_of_parse? (h : parse? cs = some pieces) : InRange pieces := by
  have hempty : ∀ compress, Scan.Fits ⟨[], compress⟩ := by
    intro compress
    exact ⟨Nat.zero_le _, nofun⟩
  unfold parse? at h
  split at h
  · obtain ⟨s, hs, h⟩ := Option.bind_eq_some_iff.1 h
    exact expand_inRange (scan_fits (hempty _) hs) h
  · cases h
  · obtain ⟨s, hs, h⟩ := Option.bind_eq_some_iff.1 h
    exact expand_inRange (scan_fits (hempty _) hs) h

/-- What an address is written in. -/
theorem mem_text {c : Char} (h : c ∈ (text pieces).toList) :
    c = ':' ∨ ∃ d < 16, c = hexDigit d := by
  have hjoined : ∀ {qs : List ℕ}, c ∈ joined qs → c = ':' ∨ ∃ d < 16, c = hexDigit d := by
    intro qs
    induction qs with
    | nil => exact nofun
    | cons q qs ih =>
      intro hc
      cases qs with
      | nil =>
        rw [joined_singleton] at hc
        exact .inr (digit_of_mem_hexText q c hc)
      | cons r qs =>
        rw [joined_cons_cons] at hc
        rcases List.mem_append.1 hc with hc | hc
        · exact .inr (digit_of_mem_hexText q c hc)
        · rcases List.mem_cons.1 hc with hc | hc
          · exact .inl hc
          · exact ih hc
  rw [toList_text] at h
  split at h
  · rcases List.mem_append.1 h with h | h
    · exact hjoined h
    · rcases List.mem_cons.1 h with h | h
      · exact .inl h
      · rcases List.mem_cons.1 h with h | h
        · exact .inl h
        · exact hjoined h
  · exact hjoined h

end TelemetryRelay.Ipv6
