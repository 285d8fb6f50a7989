import Mathlib.Data.List.DropRight
import Mathlib.Data.List.Forall2

/-!
# Pieces of a text

A text is cut at the characters that separate, and each piece is read. All pieces have to be read.

* `forall_mem_of_all`, `forall_ascii`: what is checked for each character.
* `rdropWhile_append_cons`: what is dropped at the end stands behind all that is kept.
* `not_separates_of_mem_splitOnP`: no piece holds a character that separates.
* `mapM_eq_some_iff`, `mapM_eq_none`: what is read, and that one piece spoils all.
* `mapM_map_eq_some`: pieces that are read back one by one are read back.
-/

namespace TelemetryRelay

variable {α β : Type} {f : α → Option β}

/-- What is checked for each character of a list holds of all of them. -/
theorem forall_mem_of_all {p : Char → Prop} [DecidablePred p] {cs : List Char}
    (h : (cs.all fun c => decide (p c)) = true) : ∀ c ∈ cs, p c := by
  intro c hc
  exact of_decide_eq_true (List.all_eq_true.1 h c hc)

/-- What is checked for every code below 128 holds of all characters of ASCII. -/
theorem forall_ascii {p : Char → Prop} (h : ∀ n < 128, p (Char.ofNat n)) :
    ∀ c : Char, c.toNat < 128 → p c := by
  intro c hc
  have hself := h c.toNat hc
  rwa [Char.ofNat_toNat] at hself

/-- What is dropped at the end stands behind all that is kept. -/
theorem rdropWhile_append_cons {drops : α → Bool} {x : α} (hx : drops x = false) (xs ys : List α) :
    (xs ++ x :: ys).rdropWhile drops = xs ++ x :: ys.rdropWhile drops := by
  have hkeeps : ¬ drops x = true := by
    rw [hx]
    exact Bool.false_ne_true
  induction ys using List.reverseRecOn with
  | nil => exact List.rdropWhile_concat_neg drops xs x hkeeps
  | append_singleton ys y ih =>
    rw [← List.cons_append, ← List.append_assoc]
    by_cases hy : drops y = true
    · rw [List.rdropWhile_concat_pos _ _ _ hy, List.rdropWhile_concat_pos _ _ _ hy, ih]
    · rw [List.rdropWhile_concat_neg _ _ _ hy, List.rdropWhile_concat_neg _ _ _ hy,
        List.append_assoc]
      rfl

/-- No piece holds a character that separates. -/
theorem not_separates_of_mem_splitOnP {separates : Char → Bool} {cs part : List Char}
    (h : part ∈ cs.splitOnP separates) : ∀ c ∈ part, separates c = false := by
  induction cs generalizing part with
  | nil =>
    obtain rfl := List.mem_singleton.1 h
    exact nofun
  | cons c rest ih =>
    rw [List.splitOnP_cons_eq_if_modifyHead] at h
    split at h
    · rcases List.mem_cons.1 h with rfl | h
      · exact nofun
      · exact ih h
    · next hc =>
      obtain ⟨first, more, hsplit⟩ : ∃ first more, rest.splitOnP separates = first :: more :=
        List.exists_cons_of_ne_nil (List.splitOnP_ne_nil _ _)
      rw [hsplit, List.modifyHead_cons] at h
      rcases List.mem_cons.1 h with rfl | h
      · refine List.forall_mem_cons.2 ⟨Bool.eq_false_iff.2 hc, ?_⟩
        exact ih (hsplit ▸ List.mem_cons_self)
      · exact ih (hsplit ▸ List.mem_cons_of_mem _ h)

/-- No piece holds the character that separates. -/
theorem not_mem_of_mem_splitOn {d : Char} {cs part : List Char} (h : part ∈ cs.splitOn d) :
    d ∉ part := by
  intro hd
  have hno := not_separates_of_mem_splitOnP h d hd
  simp at hno

/-- A list is read if each of its members is, and in their order. -/
theorem mapM_eq_some_iff {xs : List α} {ys : List β} :
    xs.mapM f = some ys ↔ List.Forall₂ (fun x y => f x = some y) xs ys := by
  induction xs generalizing ys with
  | nil =>
    rw [List.mapM_nil, List.forall₂_nil_left_iff]
    constructor
    · intro h; cases h; rfl
    · rintro rfl; rfl
  | cons x rest ih =>
    rw [List.mapM_cons, List.forall₂_cons_left_iff]
    constructor
    · intro h
      obtain ⟨y, hy, h⟩ := Option.bind_eq_some_iff.1 h
      obtain ⟨zs, hzs, h⟩ := Option.bind_eq_some_iff.1 h
      cases h
      exact ⟨y, zs, hy, ih.1 hzs, rfl⟩
    · rintro ⟨y, zs, hy, hzs, rfl⟩
      rw [hy, ih.2 hzs]
      rfl

/-- What a list of readings gives is read from its members. -/
theorem exists_of_mapM {xs : List α} {ys : List β} (h : xs.mapM f = some ys) :
    ∀ y ∈ ys, ∃ x ∈ xs, f x = some y := by
  induction mapM_eq_some_iff.1 h with
  | nil => exact nofun
  | cons hx _ ih =>
    refine List.forall_mem_cons.2 ⟨⟨_, List.mem_cons_self, hx⟩, fun y hy => ?_⟩
    obtain ⟨w, hw, hfw⟩ := ih (mapM_eq_some_iff.2 ‹_›) y hy
    exact ⟨w, List.mem_cons_of_mem _ hw, hfw⟩

/-- One item that cannot be read spoils all. -/
theorem mapM_eq_none {x : α} {xs : List α} (hf : f x = none) (hx : x ∈ xs) :
    xs.mapM f = none := by
  induction xs with
  | nil => cases hx
  | cons y rest ih =>
    rw [List.mapM_cons]
    rcases List.mem_cons.1 hx with rfl | hx
    · rw [hf]
      rfl
    · cases f y with
      | none => rfl
      | some z =>
        rw [ih hx]
        rfl

/-- What is read back one by one is read back. -/
theorem mapM_map_eq_some {g : β → α} {ys : List β} (h : ∀ y ∈ ys, f (g y) = some y) :
    (ys.map g).mapM f = some ys := by
  induction ys with
  | nil => rfl
  | cons y rest ih =>
    obtain ⟨hy, hrest⟩ := List.forall_mem_cons.1 h
    rw [List.map_cons, List.mapM_cons, hy, ih hrest]
    rfl

theorem length_of_mapM {xs : List α} {ys : List β} (h : xs.mapM f = some ys) :
    ys.length = xs.length :=
  (mapM_eq_some_iff.1 h).length_eq.symm

end TelemetryRelay
