import Mathlib.Data.List.TakeWhile
import Mathlib.Tactic.Ring
import TelemetryRelay.Url.Punycode

/-!
# Punycode is read back

The encoder goes through the code points of a label in their order, and through the label once for
each of them. A decoder that has read what is written so far holds the characters up to this code
point (`Follows`), those equal to it only as far as the encoder has come.

* `decodeDistance_encodeDistance`: the digits of a distance are read as the distance.
* `Decoder.gives_insert`: what one distance adds to a label.
* `Follows.visit`, `Follows.foldl`: one character, and one time through the label.
* `encodePoints_spec`: all code points.
* `decode?_encode`: **a label is read back from its punycode.**
-/

namespace TelemetryRelay.Punycode

variable {label pre post cs out : List Char} {c : Char} {basic point next : ℕ} {e e' : Encoder}

/-! ### Distances -/

theorem digit?_digitChar : ∀ d < 36, digit? (digitChar d) = some d := by decide

theorem threshold_bounds (place bias : ℕ) :
    1 ≤ threshold place bias ∧ threshold place bias ≤ 26 := by
  unfold threshold
  split
  · omega
  · split <;> omega

/-- The digits of a distance are digits. -/
theorem exists_digitChar_of_mem : ∀ {fuel place bias delta : ℕ},
    ∀ c ∈ encodeDistance fuel place bias delta, ∃ d < 36, c = digitChar d := by
  intro fuel
  induction fuel with
  | zero =>
    intro place bias delta c hc
    cases hc
  | succ fuel ih =>
    intro place bias delta c hc
    obtain ⟨hlow, hhigh⟩ := threshold_bounds place bias
    unfold encodeDistance at hc
    dsimp only at hc
    split at hc
    · next hlt =>
      obtain rfl := List.mem_singleton.1 hc
      exact ⟨delta, by omega, rfl⟩
    · rcases List.mem_cons.1 hc with rfl | hc
      · have hmod := Nat.mod_lt (delta - threshold place bias)
          (show 0 < 36 - threshold place bias by omega)
        exact ⟨_, by omega, rfl⟩
      · exact ih c hc

/-- **The digits of a distance are read as the distance.** -/
theorem decodeDistance_encodeDistance : ∀ {fuel place bias delta weight acc : ℕ}, delta < fuel →
    decodeDistance place bias weight acc (encodeDistance fuel place bias delta ++ cs) =
      some (acc + delta * weight, cs) := by
  intro fuel
  induction fuel with
  | zero =>
    intro place bias delta weight acc h
    omega
  | succ fuel ih =>
    intro place bias delta weight acc h
    obtain ⟨hlow, hhigh⟩ := threshold_bounds place bias
    unfold encodeDistance
    dsimp only
    split
    · next hlt =>
      rw [List.singleton_append, decodeDistance, digit?_digitChar delta (by omega)]
      exact if_pos hlt
    · next hge =>
      obtain ⟨t, ht⟩ : ∃ t, threshold place bias = t := ⟨_, rfl⟩
      rw [ht] at hlow hhigh hge ⊢
      -- the digit here, and what is left for the places behind it
      obtain ⟨digit, hdigit⟩ : ∃ digit, t + (delta - t) % (36 - t) = digit := ⟨_, rfl⟩
      obtain ⟨more, hmore⟩ : ∃ more, (delta - t) / (36 - t) = more := ⟨_, rfl⟩
      have hmod : (delta - t) % (36 - t) < 36 - t := Nat.mod_lt _ (by omega)
      have hsplit : digit + more * (36 - t) = delta := by
        have := Nat.mod_add_div' (delta - t) (36 - t)
        rw [hmore] at this
        omega
      have hless : more < fuel := by
        have := Nat.div_le_self (delta - t) (36 - t)
        omega
      have hstay : ¬ digit < t := by omega
      have hvalue : acc + digit * weight + more * (weight * (36 - t)) = acc + delta * weight := by
        rw [← hsplit]
        ring
      rw [hdigit, hmore, List.cons_append, decodeDistance, digit?_digitChar digit (by omega)]
      simp only [ht, if_neg hstay, ih hless, hvalue]

/-! ### The decoder -/

/-- What a decoder has read: the label so far, the code point that was placed last, the place
behind it, the bias, and whether none has been placed. -/
structure Decoder where
  label : List Char
  point : ℕ
  index : ℕ
  bias : ℕ
  first : Bool

namespace Decoder

/-- What a decoder makes of the rest of a text, however much fuel it has. -/
def Gives (d : Decoder) (cs label : List Char) : Prop :=
  ∀ fuel, cs.length ≤ fuel →
    decodePoints fuel d.label d.point d.index d.bias d.first cs = some label

theorem gives_nil (d : Decoder) : d.Gives [] d.label := by
  intro fuel _
  cases fuel <;> rfl

/-- **What one distance adds to a label.** -/
theorem gives_insert {d : Decoder} {before after : List Char} {delta : ℕ}
    (hlabel : d.label = before ++ after) (hpoint : d.point ≤ c.toNat)
    (hdelta : d.index + delta = (c.toNat - d.point) * (d.label.length + 1) + before.length)
    (h : Gives ⟨before ++ c :: after, c.toNat, before.length + 1,
      adapt delta (d.label.length + 1) d.first, false⟩ cs label) :
    d.Gives (encodeDistance (delta + 1) 36 d.bias delta ++ cs) label := by
  intro fuel hfuel
  have hread := @decodeDistance_encodeDistance cs (delta + 1) 36 d.bias delta 1 d.index (by omega)
  rw [Nat.mul_one] at hread
  -- at least one character is read, so the fuel is not spent
  obtain ⟨x, more, htext⟩ : ∃ x more, encodeDistance (delta + 1) 36 d.bias delta = x :: more := by
    unfold encodeDistance
    dsimp only
    split
    · exact ⟨_, _, rfl⟩
    · exact ⟨_, _, rfl⟩
  rw [htext, List.cons_append] at hfuel hread ⊢
  obtain ⟨fuel, rfl⟩ : ∃ more, fuel = more + 1 := by
    cases fuel with
    | zero => simp at hfuel
    | succ fuel => exact ⟨fuel, rfl⟩
  have hfit : before.length < d.label.length + 1 := by
    rw [hlabel, List.length_append]
    omega
  have hdiv : (d.index + delta) / (d.label.length + 1) = c.toNat - d.point := by
    rw [hdelta, Nat.mul_comm, Nat.mul_add_div (by omega), Nat.div_eq_of_lt hfit, Nat.add_zero]
  have hmod : (d.index + delta) % (d.label.length + 1) = before.length := by
    rw [hdelta, Nat.mul_comm, Nat.mul_add_mod, Nat.mod_eq_of_lt hfit]
  have hnext : d.point + (c.toNat - d.point) = c.toNat := by omega
  have hvalid : c.toNat < 0xD800 ∨ (0xDFFF < c.toNat ∧ c.toNat < 0x110000) := c.valid
  have htake : d.label.take before.length = before := by
    rw [hlabel, List.take_left]
  have hdrop : d.label.drop before.length = after := by
    rw [hlabel, List.drop_left]
  simp only [decodePoints, hread, hdiv, hmod, hnext, if_pos hvalid, htake, hdrop,
    Char.ofNat_toNat, Nat.add_sub_cancel_left]
  apply h
  have hlength : (more ++ cs).length + 1 ≤ fuel + 1 := hfuel
  rw [List.length_append] at hlength
  omega

end Decoder

/-! ### The encoder and the decoder -/

variable {d d' : Decoder}

/-- What an encoder writes brings a decoder on: from `d` to `d'`, while the encoder comes from `e`
to `e'`. -/
def Brings (d : Decoder) (e : Encoder) (d' : Decoder) (e' : Encoder) : Prop :=
  ∃ out, e'.written = e.written ++ out ∧ (∀ c ∈ out, ∃ n < 36, c = digitChar n) ∧
    ∀ cs label, d'.Gives cs label → d.Gives (out ++ cs) label

theorem Brings.refl (h : e'.written = e.written) : Brings d e d e' := by
  refine ⟨[], by rw [h, List.append_nil], nofun, ?_⟩
  intro cs label hd
  exact hd

theorem Brings.trans {d'' : Decoder} {e'' : Encoder} (h : Brings d e d' e')
    (h' : Brings d' e' d'' e'') : Brings d e d'' e'' := by
  obtain ⟨out, hout, hdigits, hgives⟩ := h
  obtain ⟨out', hout', hdigits', hgives'⟩ := h'
  refine ⟨out ++ out', by rw [hout', hout, List.append_assoc],
    List.forall_mem_append.2 ⟨hdigits, hdigits'⟩, ?_⟩
  intro cs label hd
  rw [List.append_assoc]
  exact hgives _ _ (hgives' _ _ hd)

/-- **A decoder that follows an encoder**, which places `point` and has passed `pre` of a label but
not `post`: it holds the characters up to the point, those equal to it only as far as they have
been passed. -/
structure Follows (basic : ℕ) (d : Decoder) (e : Encoder) (point : ℕ) (pre post : List Char) :
    Prop where
  label : d.label = pre.filter (·.toNat ≤ point) ++ post.filter (·.toNat < point)
  count : e.count = d.label.length
  bias : e.bias = d.bias
  first : d.first = (e.count == basic)
  basic_le : basic ≤ e.count
  point_le : d.point ≤ point
  delta : d.index + e.delta =
    (point - d.point) * (e.count + 1) + (pre.filter (·.toNat ≤ point)).length

/-- What is passed of a label, and one character more. -/
theorem filter_concat (pre : List Char) (c : Char) (point : ℕ) :
    (pre ++ [c]).filter (·.toNat ≤ point) =
      pre.filter (·.toNat ≤ point) ++ if c.toNat ≤ point then [c] else [] := by
  rw [List.filter_append]
  by_cases h : c.toNat ≤ point
  · rw [if_pos h, List.filter_cons_of_pos (by simpa using h), List.filter_nil]
  · rw [if_neg h, List.filter_cons_of_neg (by simpa using h), List.filter_nil]

/-- **One character of the label.** -/
theorem Follows.visit (h : Follows basic d e point pre (c :: post)) :
    ∃ d', Brings d e d' (e.visit basic point c) ∧
      Follows basic d' (e.visit basic point c) point (pre ++ [c]) post := by
  obtain ⟨hlabel, hcount, hbias, hfirst, hbasic, hpoint, hdelta⟩ := h
  unfold Encoder.visit
  rcases Nat.lt_trichotomy c.toNat point with hlt | heq | hgt
  · -- a smaller character is there already, and is passed
    rw [if_pos hlt]
    refine ⟨d, .refl rfl, ?_, hcount, hbias, hfirst, hbasic, hpoint, ?_⟩
    · rw [hlabel, filter_concat, if_pos hlt.le, List.filter_cons_of_pos (by simpa using hlt),
        List.append_assoc]
      rfl
    · rw [filter_concat, if_pos hlt.le, List.length_append, List.length_singleton]
      dsimp only
      omega
  · -- the character is written, and inserted
    rw [if_neg (by omega), if_pos heq]
    rw [List.filter_cons_of_neg (by simp [heq])] at hlabel
    refine ⟨⟨pre.filter (·.toNat ≤ point) ++ c :: post.filter (·.toNat < point), c.toNat,
      (pre.filter (·.toNat ≤ point)).length + 1, adapt e.delta (d.label.length + 1) d.first, false⟩,
      ⟨encodeDistance (e.delta + 1) 36 e.bias e.delta, rfl, exists_digitChar_of_mem, ?_⟩, ?_⟩
    · intro cs label hgives
      rw [hbias]
      apply Decoder.gives_insert hlabel (by omega) _ hgives
      rw [heq, ← hcount, hdelta]
    · have hpassed : (pre ++ [c]).filter (·.toNat ≤ point) =
          pre.filter (·.toNat ≤ point) ++ [c] := by
        rw [filter_concat, if_pos heq.le]
      refine ⟨?_, ?_, ?_, ?_, ?_, heq.le, ?_⟩
      · rw [hpassed, List.append_assoc]
        rfl
      · dsimp only
        rw [hcount, hlabel, List.length_append, List.length_append, List.length_cons]
        omega
      · dsimp only
        rw [hfirst, hcount]
      · dsimp only
        rw [eq_comm, beq_eq_false_iff_ne]
        omega
      · dsimp only
        omega
      · dsimp only
        rw [hpassed, List.length_append, List.length_singleton, heq, Nat.sub_self, Nat.zero_mul]
        omega
  · -- a greater character has no influence yet
    rw [if_neg (by omega), if_neg (by omega)]
    rw [List.filter_cons_of_neg (by simp; omega)] at hlabel
    have hpassed : (pre ++ [c]).filter (·.toNat ≤ point) = pre.filter (·.toNat ≤ point) := by
      rw [filter_concat, if_neg (by omega), List.append_nil]
    exact ⟨d, .refl rfl, by rw [hpassed]; exact hlabel, hcount, hbias, hfirst, hbasic, hpoint,
      by rw [hpassed]; exact hdelta⟩

/-- **One time through the label.** -/
theorem Follows.foldl : ∀ {post pre : List Char} {d : Decoder} {e : Encoder},
    Follows basic d e point pre post → ∃ d', Brings d e d' (post.foldl (.visit basic point) e) ∧
      Follows basic d' (post.foldl (.visit basic point) e) point (pre ++ post) [] := by
  intro post
  induction post with
  | nil =>
    intro pre d e h
    rw [List.append_nil]
    exact ⟨d, .refl rfl, h⟩
  | cons c post ih =>
    intro pre d e h
    obtain ⟨d₁, hbrings, hfollows⟩ := h.visit
    obtain ⟨d₂, hbrings', hfollows'⟩ := ih hfollows
    rw [List.append_assoc, List.singleton_append] at hfollows'
    exact ⟨d₂, hbrings.trans hbrings', hfollows'⟩

/-- The encoder turns to a later code point; none of the label is left out. -/
theorem Follows.turn (h : Follows basic d e next [] label) (hle : next ≤ point)
    (hnone : ∀ c ∈ label, ¬ (next ≤ c.toNat ∧ c.toNat < point)) :
    Follows basic d { e with delta := e.delta + (point - next) * (e.count + 1) }
      point [] label := by
  obtain ⟨hlabel, hcount, hbias, hfirst, hbasic, hpoint, hdelta⟩ := h
  refine ⟨?_, hcount, hbias, hfirst, hbasic, by omega, ?_⟩
  · rw [hlabel]
    congr 1
    apply List.filter_congr
    intro c hc
    have := hnone c hc
    rw [decide_eq_decide]
    omega
  · have hsplit : point - d.point = (next - d.point) + (point - next) := by omega
    simp only [List.filter_nil, List.length_nil, Nat.add_zero] at hdelta ⊢
    rw [← Nat.add_assoc, hdelta, hsplit, Nat.add_mul]

/-- Behind the label, the encoder looks for the next code point. -/
theorem Follows.close (h : Follows basic d e point label []) :
    Follows basic d { e with delta := e.delta + 1 } (point + 1) [] label := by
  obtain ⟨hlabel, hcount, hbias, hfirst, hbasic, hpoint, hdelta⟩ := h
  rw [List.filter_nil, List.append_nil] at hlabel
  refine ⟨?_, hcount, hbias, hfirst, hbasic, by omega, ?_⟩
  · rw [hlabel, List.filter_nil, List.nil_append]
    apply List.filter_congr
    intro c _
    rw [decide_eq_decide]
    omega
  · have hsplit : point + 1 - d.point = point - d.point + 1 := by omega
    rw [← hlabel, ← hcount] at hdelta
    rw [List.filter_nil, List.length_nil, hsplit, Nat.add_mul]
    dsimp only
    omega

/-- **All code points**, in their order. -/
theorem encodePoints_spec : ∀ {points : List ℕ} {next : ℕ} {d : Decoder} {e : Encoder},
    Follows basic d e next [] label → points.Pairwise (· < ·) → (∀ p ∈ points, next ≤ p) →
    (∀ c ∈ label, next ≤ c.toNat → c.toNat ∈ points) →
    ∃ d', Brings d e d' (encodePoints label basic points next e) ∧ d'.label = label := by
  intro points
  induction points with
  | nil =>
    intro next d e h _ _ hall
    refine ⟨d, .refl rfl, ?_⟩
    rw [h.label, List.filter_nil, List.nil_append, List.filter_eq_self]
    intro c hc
    by_contra hge
    exact absurd (hall c hc (by simpa using hge)) List.not_mem_nil
  | cons point points ih =>
    intro next d e h hsorted hle hall
    obtain ⟨hfirst, hsorted⟩ := List.pairwise_cons.1 hsorted
    -- up to the least point that is left, the label has none
    have hturn := h.turn (hle point List.mem_cons_self) (by
      rintro c hc ⟨hlow, hhigh⟩
      rcases List.mem_cons.1 (hall c hc hlow) with hself | hlater
      · omega
      · have := hfirst _ hlater
        omega)
    obtain ⟨d₁, hbrings, hfollows⟩ := hturn.foldl
    rw [List.nil_append] at hfollows
    obtain ⟨d₂, hbrings', hlabel⟩ := ih hfollows.close hsorted hfirst (by
      intro c hc hlow
      rcases List.mem_cons.1 (hall c hc (by have := hle point List.mem_cons_self; omega))
        with hself | hlater
      · omega
      · exact hlater)
    refine ⟨d₂, ?_, hlabel⟩
    exact Brings.trans hbrings hbrings'

/-! ### Labels -/

/-- Without repetitions, a sorted list increases. -/
theorem pairwise_lt_eraseDups : ∀ {l : List ℕ}, l.Pairwise (· ≤ ·) →
    l.eraseDups.Pairwise (· < ·) := by
  intro l
  induction hn : l.length using Nat.strong_induction_on generalizing l with
  | _ n ih =>
    intro h
    cases l with
    | nil => exact .nil
    | cons x l =>
      obtain ⟨hx, hl⟩ := List.pairwise_cons.1 h
      have hshort : (l.filter fun y => !y == x).length < n := by
        have := List.length_filter_le (fun y => !y == x) l
        rw [List.length_cons] at hn
        omega
      rw [List.eraseDups_cons, List.pairwise_cons]
      refine ⟨?_, ih _ hshort rfl (hl.sublist List.filter_sublist)⟩
      intro y hy
      obtain ⟨hmem, hne⟩ := List.mem_filter.1 (List.mem_eraseDups.1 hy)
      have hle := hx y hmem
      simp only [Bool.not_eq_true', beq_eq_false_iff_ne] at hne
      omega

/-- The code points of a label past ASCII, in their order. -/
def pointsOf (label : List Char) : List ℕ :=
  ((label.map Char.toNat).filter (128 ≤ ·)).mergeSort.eraseDups

theorem mem_pointsOf {p : ℕ} : p ∈ pointsOf label ↔ 128 ≤ p ∧ ∃ c ∈ label, c.toNat = p := by
  rw [pointsOf, List.mem_eraseDups, List.mem_mergeSort, List.mem_filter, List.mem_map, and_comm,
    decide_eq_true_eq]

theorem pairwise_pointsOf (label : List Char) : (pointsOf label).Pairwise (· < ·) := by
  apply pairwise_lt_eraseDups
  have htrans : ∀ a b c : ℕ, decide (a ≤ b) = true → decide (b ≤ c) = true →
      decide (a ≤ c) = true := by
    simp only [decide_eq_true_eq]
    omega
  have htotal : ∀ a b : ℕ, (decide (a ≤ b) || decide (b ≤ a)) = true := by
    simp only [Bool.or_eq_true, decide_eq_true_eq]
    omega
  exact (List.pairwise_mergeSort htrans htotal _).imp of_decide_eq_true

/-- The ASCII characters of a label, and a hyphen behind them if there are any. -/
def startOf (label : List Char) : List Char :=
  let basic := label.filter (·.toNat < 128)
  if basic.isEmpty then [] else basic ++ ['-']

/-- **What a punycode is made of**: the ASCII characters of the label, a hyphen, and digits, of
which a decoder makes the label. -/
theorem encode_spec (label : List Char) : ∃ out, encode label = startOf label ++ out ∧
    (∀ c ∈ out, ∃ n < 36, c = digitChar n) ∧
    Decoder.Gives ⟨label.filter (·.toNat < 128), 128, 0, 72, true⟩ out label := by
  let basic := label.filter (·.toNat < 128)
  have hstart : Follows basic.length ⟨basic, 128, 0, 72, true⟩
      ⟨startOf label, 0, 72, basic.length⟩ 128 [] label := by
    refine ⟨rfl, rfl, rfl, ?_, le_rfl, le_rfl, ?_⟩
    · exact (beq_self_eq_true basic.length).symm
    · simp
  obtain ⟨d, ⟨out, hout, hdigits, hgives⟩, hlabel⟩ := encodePoints_spec hstart
    (pairwise_pointsOf label) (fun p hp => (mem_pointsOf.1 hp).1)
    (fun c hc hge => mem_pointsOf.2 ⟨hge, c, hc, rfl⟩)
  refine ⟨out, hout, hdigits, ?_⟩
  have hend := hgives [] label (hlabel ▸ d.gives_nil)
  rwa [List.append_nil] at hend

theorem digitChar_ne_hyphen : ∀ n < 36, digitChar n ≠ '-' := by decide

/-- **A label is read back from its punycode.** -/
theorem decode?_encode (label : List Char) : decode? (encode label) = some label := by
  obtain ⟨out, hencode, hdigits, hgives⟩ := encode_spec label
  have hplain : ∀ c ∈ out.reverse, decide (c ≠ '-') = true := by
    intro c hc
    obtain ⟨n, hn, rfl⟩ := hdigits c (List.mem_reverse.1 hc)
    exact decide_eq_true (digitChar_ne_hyphen n hn)
  -- the digits stand behind the last hyphen
  have htail : (encode label).reverse.takeWhile (· ≠ '-') = out.reverse := by
    rw [hencode, List.reverse_append, List.takeWhile_append_of_pos hplain, startOf]
    split
    · simp
    · simp
  have hbasic : ((encode label).take ((encode label).length - out.length)).dropLast =
      label.filter (·.toNat < 128) := by
    rw [hencode, List.length_append, Nat.add_sub_cancel, List.take_left, startOf]
    split
    · next hempty => rw [List.isEmpty_iff.1 hempty, List.dropLast_nil]
    · rw [List.dropLast_concat]
  unfold decode?
  dsimp only
  rw [htail, List.length_reverse, hbasic, List.reverse_reverse]
  apply hgives
  rw [hencode, List.length_append]
  omega

end TelemetryRelay.Punycode
