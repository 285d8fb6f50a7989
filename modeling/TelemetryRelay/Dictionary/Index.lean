/-!
# Indexes of keys

An index says at which position of a list a key stands, so that the list need not be searched.
`Index.Lists` ties it to the list: entering a new key with the next position keeps the two in step
(`Lists.enter`), and going through the index finds what a search finds (`Lists.bind_getElem?`).
-/

namespace TelemetryRelay

/-- Keys with the positions they were entered with, the last entered first. -/
abbrev Index := List (String × Nat)

namespace Index

/-- The position that a key was last entered with. -/
def position? (index : Index) (key : String) : Option Nat := index.lookup key

/-- Enters a key; a position it was entered with before counts no longer. -/
def enter (index : Index) (key : String) (position : Nat) : Index := (key, position) :: index

/-- **The index of a list of keys**: it knows exactly these keys, each with its position. -/
def Lists (index : Index) (keys : List String) : Prop :=
  ∀ key, index.position? key = keys.idxOf? key

theorem lists_nil : Lists [] [] := fun _ => rfl

theorem position?_enter (index : Index) (key other : String) (position : Nat) :
    (index.enter key position).position? other =
      if other = key then some position else index.position? other := by
  by_cases h : other = key
  · simp [position?, enter, h]
  · simp only [position?, enter, List.lookup_cons, beq_eq_false_iff_ne.2 h, if_neg h]

namespace Lists

variable {index : Index} {keys : List String} {key : String}

/-- The index knows no key that does not occur. -/
theorem position?_eq_none_iff (h : index.Lists keys) : index.position? key = none ↔ key ∉ keys := by
  rw [h key, List.idxOf?_eq_none_iff]

/-- The positions that the index knows lie in the list. -/
theorem lt_length (h : index.Lists keys) {i : Nat} (hi : index.position? key = some i) :
    i < keys.length := by
  rw [h key, List.idxOf?] at hi
  exact (List.findIdx?_eq_some_iff_findIdx_eq.1 hi).1

/-- A new key is entered with the position behind the others. -/
theorem enter (h : index.Lists keys) (hk : key ∉ keys) :
    (index.enter key keys.length).Lists (keys ++ [key]) := by
  intro other
  have hlast : List.idxOf? other (keys ++ [key]) =
      (keys.idxOf? other).or (if other = key then some keys.length else none) := by
    unfold List.idxOf?
    rw [List.findIdx?_append, List.findIdx?_singleton]
    by_cases ho : other = key
    · simp [ho]
    · simp [ho, Ne.symm ho]
  rw [position?_enter, h other, hlast]
  by_cases ho : other = key
  · rw [if_pos ho, if_pos ho, ho, List.idxOf?_eq_none_iff.2 hk, Option.none_or]
  · rw [if_neg ho, if_neg ho, Option.or_none]

/-- **Going through the index finds what a search finds.** -/
theorem bind_getElem? {α : Type} {f : α → String} {l : List α} (h : index.Lists (l.map f)) :
    ((index.position? key).bind fun i => l[i]?) = l.find? (f · == key) := by
  rw [h key, List.find?_eq_bind_findIdx?_getElem?, List.idxOf?, List.findIdx?_map]
  rfl

end Lists

end Index

end TelemetryRelay
