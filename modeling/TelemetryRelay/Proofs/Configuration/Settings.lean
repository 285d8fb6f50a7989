import Mathlib.Data.List.Forall2
import TelemetryRelay.Configuration.Setting
import TelemetryRelay.Proofs.Text.Pieces

/-!
# Reading settings

A record is a table, of which the last setting of each name counts, or a list of its fields in their
order (`Setting.Field`). A field that has to be given is said by `Setting.Says`, one that may be left
out by `Setting.MaySay`. All this is said without the readers, and the readers are shown to find out
exactly that.

* `text?_eq_some_iff`, `items?_mapM_eq_some_iff`: reading a text, and a list.
* `readRecord?_eq_some_iff`: reading a record is taking its fields in their order.
* `takeAll_cons_eq_some_iff`: taking a field, whatever kind of field it is.
* `takeAll_texts_list_eq_some_iff`: a record of two texts and a list.
-/

namespace TelemetryRelay.Setting

variable {α β σ : Type}

/-- The setting of a name in a table is the last one. -/
def Has (entries : List (String × Setting)) (name : String) (s : Setting) : Prop :=
  ∃ before after, entries = before ++ (name, s) :: after ∧ name ∉ after.map (·.1)

/-- A table or a list can be a record. -/
inductive IsRecord : Setting → Prop where
  | table (entries : List (String × Setting)) : IsRecord (.table entries)
  | list (items : List Setting) : IsRecord (.list items)

/-- What a record says of a field; `order` names its fields. -/
inductive Field (order : List String) (name : String) : Setting → Setting → Prop where
  | named {entries : List (String × Setting)} {s : Setting} (hs : Has entries name s) :
    Field order name (.table entries) s
  | placed {items : List Setting} {i : Nat} {s : Setting} (hname : order[i]? = some name)
    (hs : items[i]? = some s) : Field order name (.list items) s

/-- A field of a record has the value `a`, in the sense of `R`. -/
def Says (s : Setting) (order : List String) (name : String) (R : Setting → α → Prop) (a : α) :
    Prop :=
  ∃ v, Field order name s v ∧ R v a

/-- A field of a record has the value `a`, which is `blank` if the field is left out. -/
def MaySay (s : Setting) (order : List String) (name : String) (R : Setting → α → Prop)
    (blank a : α) : Prop :=
  s.Says order name R a ∨ (∀ v, ¬ Field order name s v) ∧ a = blank

/-- Every scalar is a text. -/
inductive IsText : Setting → String → Prop where
  | scalar (x : Scalar) : IsText (.scalar x) x.toText

/-- A text, or a null. -/
inductive IsOptionalText : Setting → Option String → Prop where
  | absent : IsOptionalText .absent none
  | text {s : Setting} {t : String} (h : IsText s t) : IsOptionalText s (some t)

/-- A list of settings that each are something. -/
inductive IsList (R : Setting → α → Prop) : Setting → List α → Prop where
  | list {items : List Setting} {l : List α} (h : List.Forall₂ R items l) :
    IsList R (.list items) l

/-! ### Reading texts and lists -/

theorem text?_eq_some_iff {s : Setting} {t : String} : s.text? = some t ↔ s.IsText t := by
  constructor
  · intro h
    cases s with
    | scalar x => cases h; exact .scalar x
    | _ => cases h
  · rintro ⟨x⟩
    rfl

theorem optionalText?_eq_some_iff {s : Setting} {o : Option String} :
    s.optionalText? = some o ↔ s.IsOptionalText o := by
  constructor
  · intro h
    unfold optionalText? at h
    split at h
    · cases h
      exact .absent
    · obtain ⟨t, ht, rfl⟩ := Option.map_eq_some_iff.1 h
      exact .text (text?_eq_some_iff.1 ht)
  · intro h
    cases h with
    | absent => rfl
    | text h => cases h; rfl

/-- **Reading a list is reading its items.** -/
theorem items?_mapM_eq_some_iff {read : Setting → Option α} {R : Setting → α → Prop}
    (hread : ∀ s a, read s = some a ↔ R s a) {s : Setting} {l : List α} :
    (s.items? >>= (·.mapM read)) = some l ↔ IsList R s l := by
  constructor
  · intro h
    obtain ⟨items, hitems, h⟩ := Option.bind_eq_some_iff.1 h
    cases s with
    | list =>
      cases hitems
      exact .list ((mapM_eq_some_iff.1 h).imp fun _ _ => (hread _ _).1)
    | _ => cases hitems
  · rintro ⟨h⟩
    exact mapM_eq_some_iff.2 (h.imp fun _ _ => (hread _ _).2)

/-! ### Reading records -/

section

variable {entries : List (String × Setting)} {order : List String} {name : String} {s v : Setting}

theorem lookup?_eq_some_iff : lookup? name entries = some s ↔ Has entries name s := by
  rw [lookup?, Option.map_eq_some_iff]
  constructor
  · rintro ⟨⟨n, _⟩, hfind, rfl⟩
    obtain ⟨hn, after, before, hsplit, hafter⟩ := List.find?_eq_some_iff_append.1 hfind
    obtain rfl := eq_of_beq hn
    refine ⟨before.reverse, after.reverse, ?_, ?_⟩
    · rw [← List.reverse_reverse entries, hsplit]
      simp
    · rw [List.map_reverse, List.mem_reverse, List.mem_map]
      rintro ⟨e, he, rfl⟩
      simpa using hafter e he
  · rintro ⟨before, after, rfl, hafter⟩
    refine ⟨(name, s), List.find?_eq_some_iff_append.2
      ⟨beq_self_eq_true name, after.reverse, before.reverse, by simp, fun e he => ?_⟩, rfl⟩
    have hne : e.1 ≠ name := by
      rintro rfl
      exact hafter (List.mem_map_of_mem (List.mem_reverse.1 he))
    simpa using hne

theorem lookup?_eq_none_iff : lookup? name entries = none ↔ name ∉ entries.map (·.1) := by
  simp only [lookup?, Option.map_eq_none_iff, List.find?_eq_none, List.mem_reverse, List.mem_map,
    beq_iff_eq, not_exists, not_and]

/-- The setting of a field, if the record has it. -/
def field? (order : List String) (name : String) : Setting → Option Setting
  | .table entries => lookup? name entries
  | .list items => (order.zip items).lookup name
  | _ => none

theorem lookup_zip_eq_some_iff (h : order.Nodup) {items : List Setting} :
    (order.zip items).lookup name = some v ↔
      ∃ i : Nat, order[i]? = some name ∧ items[i]? = some v := by
  induction order generalizing items with
  | nil => simp
  | cons first rest ih =>
    obtain ⟨hfirst, hrest⟩ := List.nodup_cons.1 h
    cases items with
    | nil => simp
    | cons item items =>
      rw [List.zip_cons_cons, List.lookup_cons]
      by_cases hname : name = first
      · subst hname
        rw [beq_self_eq_true]
        constructor
        · intro hv
          exact ⟨0, rfl, hv⟩
        · rintro ⟨i, hi, hv⟩
          cases i with
          | zero => exact hv
          | succ i => exact absurd (List.mem_of_getElem? (l := rest) hi) hfirst
      · rw [beq_eq_false_iff_ne.2 hname]
        dsimp only
        rw [ih hrest]
        constructor
        · rintro ⟨i, hi, hv⟩
          exact ⟨i + 1, hi, hv⟩
        · rintro ⟨i, hi, hv⟩
          cases i with
          | zero => exact absurd (Option.some.inj hi).symm hname
          | succ i => exact ⟨i, hi, hv⟩

theorem field?_eq_some_iff (h : order.Nodup) :
    s.field? order name = some v ↔ Field order name s v := by
  constructor
  · intro hv
    cases s with
    | table => exact .named (lookup?_eq_some_iff.1 hv)
    | list =>
      obtain ⟨i, hi, hv⟩ := (lookup_zip_eq_some_iff h).1 hv
      exact .placed hi hv
    | _ => cases hv
  · intro hv
    cases hv with
    | named hs => exact lookup?_eq_some_iff.2 hs
    | placed hi hs => exact (lookup_zip_eq_some_iff h).2 ⟨_, hi, hs⟩

/-- Taking a field into a draft, which stays as it is if there is no such field. -/
def take (visit : σ → String → Setting → Option σ) (draft : σ) (name : String) :
    Option Setting → Option σ
  | some v => visit draft name v
  | none => some draft

/-- Taking the fields of a record into a draft, one after the other. -/
def takeAll (visit : σ → String → Setting → Option σ) (order : List String) (s : Setting)
    (names : List String) (draft : σ) : Option σ :=
  names.foldlM (fun draft name => take visit draft name (s.field? order name)) draft

theorem zip_eq_filterMap (h : order.Nodup) (items : List Setting) :
    order.zip items =
      order.filterMap fun name => ((order.zip items).lookup name).map (name, ·) := by
  induction order generalizing items with
  | nil => rfl
  | cons first rest ih =>
    obtain ⟨hfirst, hrest⟩ := List.nodup_cons.1 h
    cases items with
    | nil => simp
    | cons item items =>
      rw [List.zip_cons_cons, List.filterMap_cons, List.lookup_cons, beq_self_eq_true]
      -- the names behind the first one are found behind it
      have hbehind : rest.filterMap (fun name =>
          (((first, item) :: rest.zip items).lookup name).map (name, ·)) = rest.zip items := by
        refine (List.filterMap_congr fun name hname => ?_).trans (ih hrest items).symm
        have hne : (name == first) = false := by
          rw [beq_eq_false_iff_ne]
          rintro rfl
          exact hfirst hname
        rw [List.lookup_cons, hne]
      rw [hbehind]
      rfl

/-- **Reading a record** is taking its fields in their order. -/
theorem readRecord?_eq_some_iff {blank : σ} {visit : σ → String → Setting → Option σ}
    {finish : σ → Option α} {a : α} (h : order.Nodup) :
    readRecord? order blank visit finish s = some a ↔ s.IsRecord ∧
      ∃ draft, takeAll visit order s order blank = some draft ∧ finish draft = some a := by
  have hfields : ∀ (get : String → Option Setting), (order.filterMap fun name =>
      (get name).map (name, ·)).foldlM (fun draft field => visit draft field.1 field.2) blank =
        order.foldlM (fun draft name => take visit draft name (get name)) blank := by
    intro get
    rw [List.foldlM_filterMap]
    congr
    funext draft name
    cases get name <;> rfl
  cases s with
  | table entries =>
    rw [readRecord?, hfields]
    simp only [Option.bind_eq_bind, Option.bind_eq_some_iff, takeAll, field?]
    exact ⟨fun h => ⟨.table entries, h⟩, fun h => h.2⟩
  | list items =>
    rw [readRecord?, zip_eq_filterMap h, hfields]
    simp only [Option.bind_eq_bind, Option.bind_eq_some_iff, takeAll, field?]
    exact ⟨fun h => ⟨.list items, h⟩, fun h => h.2⟩
  | _ =>
    constructor
    · intro h; cases h
    · rintro ⟨h, -⟩; cases h

/-- **Taking the first field**, which is read as `R` says. -/
theorem takeAll_cons_eq_some_iff {visit : σ → String → Setting → Option σ} {draft final : σ}
    {R : Setting → β → Prop} {read : Setting → Option β} {blank : β} {rest : List String}
    (h : order.Nodup) (hread : ∀ v b, read v = some b ↔ R v b) (set : β → σ)
    (hvisit : ∀ v, visit draft name v = read v >>= fun b => some (set b))
    (hblank : set blank = draft) :
    takeAll visit order s (name :: rest) draft = some final ↔
      ∃ b, s.MaySay order name R blank b ∧ takeAll visit order s rest (set b) = some final := by
  have hcons : takeAll visit order s (name :: rest) draft =
      take visit draft name (s.field? order name) >>= takeAll visit order s rest :=
    List.foldlM_cons ..
  rw [hcons, Option.bind_eq_bind, Option.bind_eq_some_iff]
  cases hv : s.field? order name with
  | none =>
    have hno : ∀ v, ¬ Field order name s v := by
      intro v hf
      rw [(field?_eq_some_iff h).2 hf] at hv
      cases hv
    constructor
    · rintro ⟨_, hnext, hfinal⟩
      cases hnext
      exact ⟨blank, Or.inr ⟨hno, rfl⟩, by rw [hblank]; exact hfinal⟩
    · rintro ⟨b, ⟨v, hf, -⟩ | ⟨-, rfl⟩, hfinal⟩
      · exact absurd hf (hno v)
      · exact ⟨draft, rfl, by rw [← hblank]; exact hfinal⟩
  | some v =>
    have hf := (field?_eq_some_iff h).1 hv
    have htake : take visit draft name (some v) = read v >>= fun b => some (set b) := hvisit v
    rw [htake]
    constructor
    · rintro ⟨_, hnext, hfinal⟩
      obtain ⟨b, hb, hset⟩ := Option.bind_eq_some_iff.1 hnext
      cases hset
      exact ⟨b, Or.inl ⟨v, hf, (hread v b).1 hb⟩, hfinal⟩
    · rintro ⟨b, ⟨v', hf', hb⟩ | ⟨hno, -⟩, hfinal⟩
      · have hvv : v' = v := Option.some.inj (((field?_eq_some_iff h).2 hf').symm.trans hv)
        subst hvv
        exact ⟨set b, by rw [(hread _ b).2 hb]; rfl, hfinal⟩
      · exact absurd hf (hno v)

/-- A text that has to be given. -/
theorem says_iff {t : String} :
    s.MaySay order name (fun v o => ∃ t, v.IsText t ∧ some t = o) none (some t) ↔
      s.Says order name IsText t := by
  constructor
  · rintro (⟨v, hv, _, ht, ⟨⟩⟩ | ⟨-, ⟨⟩⟩)
    exact ⟨v, hv, ht⟩
  · rintro ⟨v, hv, ht⟩
    exact Or.inl ⟨v, hv, t, ht, rfl⟩

/-- **A record of two texts and a list.** The texts have to be given. -/
theorem takeAll_texts_list_eq_some_iff {visit : σ → String → Setting → Option σ}
    {mk : Option String → Option String → List α → σ} {read : Setting → Option α}
    {R : Setting → α → Prop} {first second third t t' : String} {l : List α}
    (hn : [first, second, third].Nodup) (hread : ∀ v a, read v = some a ↔ R v a)
    (hmk : ∀ {o o' l p p' k}, mk o o' l = mk p p' k → o = p ∧ o' = p' ∧ l = k)
    (hfirst : ∀ v, visit (mk none none []) first v =
      v.text?.map some >>= fun o => some (mk o none []))
    (hsecond : ∀ o v, visit (mk o none []) second v =
      v.text?.map some >>= fun o' => some (mk o o' []))
    (hthird : ∀ o o' v, visit (mk o o' []) third v =
      (v.items? >>= (·.mapM read)) >>= fun l => some (mk o o' l)) :
    takeAll visit [first, second, third] s [first, second, third] (mk none none []) =
        some (mk (some t) (some t') l) ↔
      s.Says [first, second, third] first IsText t ∧
        s.Says [first, second, third] second IsText t' ∧
        s.MaySay [first, second, third] third (IsList R) [] l := by
  have htext : ∀ (v : Setting) (o : Option String),
      v.text?.map some = some o ↔ ∃ t, v.IsText t ∧ some t = o := by
    simp only [Option.map_eq_some_iff, text?_eq_some_iff, implies_true]
  have hlist : ∀ v k, (v.items? >>= (·.mapM read)) = some k ↔ IsList R v k :=
    fun _ _ => items?_mapM_eq_some_iff hread
  constructor
  · intro h
    obtain ⟨o, ho, h⟩ := (takeAll_cons_eq_some_iff hn htext (mk · none []) hfirst rfl).1 h
    obtain ⟨o', ho', h⟩ := (takeAll_cons_eq_some_iff hn htext (mk o · []) (hsecond o) rfl).1 h
    obtain ⟨k, hk, h⟩ := (takeAll_cons_eq_some_iff hn hlist (mk o o' ·) (hthird o o') rfl).1 h
    obtain ⟨rfl, rfl, rfl⟩ := hmk (Option.some.inj h)
    exact ⟨says_iff.1 ho, says_iff.1 ho', hk⟩
  · rintro ⟨ht, ht', hl⟩
    refine (takeAll_cons_eq_some_iff hn htext (mk · none []) hfirst rfl).2
      ⟨some t, says_iff.2 ht, ?_⟩
    refine (takeAll_cons_eq_some_iff hn htext (mk (some t) · []) (hsecond _) rfl).2
      ⟨some t', says_iff.2 ht', ?_⟩
    exact (takeAll_cons_eq_some_iff hn hlist (mk (some t) (some t') ·) (hthird _ _) rfl).2
      ⟨l, hl, rfl⟩

end

end TelemetryRelay.Setting
