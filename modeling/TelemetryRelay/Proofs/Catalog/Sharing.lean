import TelemetryRelay.Catalog.Sharing
import TelemetryRelay.Proofs.Archive.Buckets
import TelemetryRelay.Proofs.Dictionary.Registered

/-!
# Reading through shared catalogs

A read is checked before an archive is asked, and a catalog has the archive that was attached first
through any of its handles. The log of what was done tells which handles belong to one catalog
(`MadeOf`) and what was attached first (`FirstAttached`).

* `Catalog.read_eq_iff`: what a single read gives, and what is asked for it
  (`HistoryRequest.Reads`).
* `HistoryRequest.Reads.length_le`: it gives at most as many points as wanted.
* `madeOf_concat`, `FirstAttached.concat`: what one more entry changes in a log.
* `Kept.after`: **every action keeps what the log tells of every catalog**; the single actions are
  `Family.create`, `Kept.created`, `Family.clone` and `Family.attach`.
* `reads_run`: whatever is done to catalogs, a read is refused for the first check that fails, or
  the archive that was attached first is asked once.
-/

namespace TelemetryRelay

variable {α : Type}

/-- The first dictionary with a key. -/
def FirstWithKey (ds : List Dictionary) (key : String) (d : Dictionary) : Prop :=
  d.key = key ∧ ∃ before after, ds = before ++ d :: after ∧ ∀ x ∈ before, x.key ≠ key

namespace HistoryRequest

/-- **Why a read is refused before an archive is asked.** Each check is made after those above
it. -/
inductive Refused (request : HistoryRequest) (ds : List Dictionary) (attached : α → Prop) :
    CatalogError → Prop where
  | range (hw : request.window.finish < request.window.start) :
    Refused request ds attached (.invalidRange request.window)
  | dictionary (hw : request.window.start ≤ request.window.finish)
    (hd : ∀ d ∈ ds, d.key ≠ request.key) :
    Refused request ds attached (.unknownDictionary request.key)
  | measurement {d : Dictionary} (hw : request.window.start ≤ request.window.finish)
    (hd : FirstWithKey ds request.key d) (hm : request.measurement ∉ d.names) :
    Refused request ds attached (.unknownMeasurement request.key request.measurement)
  | unavailable {d : Dictionary} (hw : request.window.start ≤ request.window.finish)
    (hd : FirstWithKey ds request.key d) (hm : request.measurement ∈ d.names)
    (ha : ∀ archive, ¬ attached archive) :
    Refused request ds attached .historyUnavailable

/-- A request that passes all checks, so that `archive` is asked. -/
structure Passes (request : HistoryRequest) (ds : List Dictionary) (attached : α → Prop)
    (archive : α) : Prop where
  window : request.window.start ≤ request.window.finish
  named : ∃ d, FirstWithKey ds request.key d ∧ request.measurement ∈ d.names
  attached : attached archive

/-- **What a read gives and what is asked for it**: nothing is asked for a request that is refused,
and one archive once for any other. -/
inductive Reads (request : HistoryRequest) (ds : List Dictionary) (attached : α → Prop)
    (reply : ArchiveAnswers α) :
    Except CatalogError (List Point) → List (ArchiveQuery α) → Prop where
  | refused {e : CatalogError} (he : request.Refused ds attached e) :
    Reads request ds attached reply (.error e) []
  | failed {archive : α} {reason : String} (hp : request.Passes ds attached archive)
    (hr : reply (request.query archive) = .error reason) :
    Reads request ds attached reply (.error (.history reason)) [request.query archive]
  /-- No limit is given, or it is zero, or there are no more points than that. -/
  | whole {archive : α} {points : List Point} (hp : request.Passes ds attached archive)
    (hr : reply (request.query archive) = .ok points)
    (hm : ∀ limit, request.maxPoints = some limit → limit ≠ 0 → points.length ≤ limit) :
    Reads request ds attached reply (.ok points) [request.query archive]
  | downsampled {archive : α} {points : List Point} {limit : Nat}
    (hp : request.Passes ds attached archive) (hr : reply (request.query archive) = .ok points)
    (hm : request.maxPoints = some limit) (h0 : limit ≠ 0) (hl : limit < points.length) :
    Reads request ds attached reply (.ok (downsample limit points)) [request.query archive]

end HistoryRequest

/-! ### One read -/

namespace Catalog

variable {c : Catalog α} {request : HistoryRequest} {reply : ArchiveAnswers α} {d : Dictionary}
  {archive : α} {e : CatalogError} {key name : String}

theorem dictionary?_eq_some_iff :
    c.dictionary? key = some d ↔ FirstWithKey c.dictionaries key d := by
  simp [dictionary?, FirstWithKey, List.find?_eq_some_iff_append]

theorem dictionary?_eq_none_iff :
    c.dictionary? key = none ↔ ∀ d ∈ c.dictionaries, d.key ≠ key := by
  simp [dictionary?, List.find?_eq_none]

theorem find?_eq_none_iff : d.find? name = none ↔ name ∉ d.names := by
  simp [d.find?_eq, Dictionary.names, List.find?_eq_none]

/-- A request that is refused is so for the first check that fails. -/
theorem prepare_of_refused (h : request.Refused c.dictionaries (c.archive = some ·) e) :
    c.prepare request = .error e := by
  unfold prepare
  cases h with
  | range hw => rw [if_pos hw]
  | dictionary hw hd => rw [if_neg hw.not_gt, dictionary?_eq_none_iff.2 hd]
  | measurement hw hd hm =>
    simp only [if_neg hw.not_gt, dictionary?_eq_some_iff.2 hd, find?_eq_none_iff.2 hm]
  | unavailable hw hd hm ha =>
    obtain ⟨m, hm⟩ := Option.ne_none_iff_exists'.1 (mt find?_eq_none_iff.1 (not_not.2 hm))
    have hnone : c.archive = none := Option.eq_none_iff_forall_ne_some.2 ha
    simp only [if_neg hw.not_gt, dictionary?_eq_some_iff.2 hd, hm, hnone]

theorem prepare_of_passes (h : request.Passes c.dictionaries (c.archive = some ·) archive) :
    c.prepare request = .ok archive := by
  obtain ⟨d, hd, hm⟩ := h.named
  obtain ⟨m, hm⟩ := Option.ne_none_iff_exists'.1 (mt find?_eq_none_iff.1 (not_not.2 hm))
  unfold prepare
  simp only [if_neg h.window.not_gt, dictionary?_eq_some_iff.2 hd, hm, h.attached]

/-- A request is refused, or it passes. -/
theorem refused_or_passes (c : Catalog α) (request : HistoryRequest) :
    (∃ e, request.Refused c.dictionaries (c.archive = some ·) e) ∨
      ∃ archive, request.Passes c.dictionaries (c.archive = some ·) archive := by
  by_cases hw : request.window.finish < request.window.start
  · exact .inl ⟨_, .range hw⟩
  have hw : request.window.start ≤ request.window.finish := not_lt.1 hw
  cases hd : c.dictionary? request.key with
  | none => exact .inl ⟨_, .dictionary hw (dictionary?_eq_none_iff.1 hd)⟩
  | some d =>
    have hd := dictionary?_eq_some_iff.1 hd
    by_cases hm : request.measurement ∈ d.names
    · cases ha : c.archive with
      | none => exact .inl ⟨_, .unavailable hw hd hm (by simp)⟩
      | some archive => exact .inr ⟨archive, hw, ⟨d, hd, hm⟩, rfl⟩
    · exact .inl ⟨_, .measurement hw hd hm⟩

theorem read_eq (c : Catalog α) (request : HistoryRequest) (reply : ArchiveAnswers α) :
    c.read request reply =
      match c.prepare request with
      | .error e => (.error e, [])
      | .ok archive =>
        (complete request.maxPoints (reply (request.query archive)), [request.query archive]) := by
  unfold read history
  cases c.prepare request <;> rfl

/-- Points that are few enough stay as they are. -/
theorem downsample_getD {maxPoints : Option Nat} {points : List Point}
    (h : ∀ limit, maxPoints = some limit → limit ≠ 0 → points.length ≤ limit) :
    downsample (maxPoints.getD 0) points = points := by
  unfold downsample
  refine if_pos ?_
  cases maxPoints with
  | none => exact .inl rfl
  | some limit =>
    by_cases h0 : limit = 0
    · exact .inl h0
    · exact .inr (h limit rfl h0)

/-- **What a read gives and what is asked for it.** -/
theorem read_of_reads {result : Except CatalogError (List Point)} {queries : List (ArchiveQuery α)}
    (h : request.Reads c.dictionaries (c.archive = some ·) reply result queries) :
    c.read request reply = (result, queries) := by
  rw [read_eq]
  cases h with
  | refused he => rw [prepare_of_refused he]
  | failed hp hr => simp only [prepare_of_passes hp, hr, complete]
  | whole hp hr hm =>
    have hsame := downsample_getD hm
    simp only [prepare_of_passes hp, hr, complete, hsame]
  | downsampled hp hr hm h0 hl =>
    simp only [prepare_of_passes hp, hr, hm, complete, Option.getD_some]

theorem exists_reads (c : Catalog α) (request : HistoryRequest) (reply : ArchiveAnswers α) :
    ∃ result queries, request.Reads c.dictionaries (c.archive = some ·) reply result queries := by
  rcases c.refused_or_passes request with ⟨e, he⟩ | ⟨archive, hp⟩
  · exact ⟨_, _, .refused he⟩
  cases hr : reply (request.query archive) with
  | error reason => exact ⟨_, _, .failed hp hr⟩
  | ok points =>
    by_cases hm : ∀ limit, request.maxPoints = some limit → limit ≠ 0 → points.length ≤ limit
    · exact ⟨_, _, .whole hp hr hm⟩
    · push Not at hm
      obtain ⟨limit, hm, h0, hl⟩ := hm
      exact ⟨_, _, .downsampled hp hr hm h0 hl⟩

/-- **A read gives and asks for exactly that.** -/
theorem read_eq_iff {result : Except CatalogError (List Point)} {queries : List (ArchiveQuery α)} :
    c.read request reply = (result, queries) ↔
      request.Reads c.dictionaries (c.archive = some ·) reply result queries := by
  constructor
  · intro h
    obtain ⟨result', queries', hreads⟩ := c.exists_reads request reply
    obtain ⟨rfl, rfl⟩ := Prod.mk.inj (h.symm.trans (read_of_reads hreads))
    exact hreads
  · exact read_of_reads

end Catalog

/-- **A read gives at most as many points as wanted.** -/
theorem HistoryRequest.Reads.length_le {request : HistoryRequest} {ds : List Dictionary}
    {attached : α → Prop} {reply : ArchiveAnswers α} {points : List Point}
    {queries : List (ArchiveQuery α)} (h : request.Reads ds attached reply (.ok points) queries)
    {limit : Nat} (hm : request.maxPoints = some limit) (h0 : limit ≠ 0)
    (hfit : ∀ query ∈ queries, ∀ all, reply query = .ok all → FitMemory all) :
    points.length ≤ limit := by
  cases h with
  | whole _ _ hshort => exact hshort limit hm h0
  | @downsampled archive all limit' _ hr hm' h0' _ =>
    obtain rfl : limit' = limit := Option.some.inj (hm'.symm.trans hm)
    exact length_downsample_le h0' (hfit _ List.mem_cons_self all hr)

/-! ### Handles and what is attached through them -/

namespace Catalogs

/-- A handle on the catalog that was created with the handle `origin`. -/
inductive MadeOf (log : List (CatalogEntry α)) (origin : Nat) : Nat → Prop where
  | created : MadeOf log origin origin
  | cloned {h h' : Nat} (hh : MadeOf log origin h) (hc : ⟨.clone h, .handle h'⟩ ∈ log) :
    MadeOf log origin h'

/-- **The first archive that was attached to a catalog**, through any handle on it. -/
def FirstAttached (log : List (CatalogEntry α)) (origin : Nat) (archive : α) : Prop :=
  ∃ before h after, log = before ++ ⟨.attach h archive, .done⟩ :: after ∧ MadeOf log origin h ∧
    ∀ h' archive', MadeOf log origin h' → ⟨.attach h' archive', .done⟩ ∉ before

variable {log : List (CatalogEntry α)} {entry : CatalogEntry α} {origin h n : Nat} {archive : α}

theorem MadeOf.append (hm : MadeOf log origin h) (log' : List (CatalogEntry α)) :
    MadeOf (log ++ log') origin h := by
  induction hm with
  | created => exact .created
  | cloned _ hc ih => exact ih.cloned (List.mem_append_left _ hc)

/-- **The handles of a catalog with one entry more**: a clone of one of them is new. -/
theorem madeOf_concat (hn : ∀ p h', ⟨.clone p, .handle h'⟩ ∈ log → p < n)
    (he : ∀ p h', entry = ⟨.clone p, .handle h'⟩ → p < n ∧ h' = n) :
    MadeOf (log ++ [entry]) origin h ↔
      MadeOf log origin h ∨ ∃ p, entry = ⟨.clone p, .handle h⟩ ∧ MadeOf log origin p := by
  constructor
  · intro hm
    induction hm with
    | created => exact .inl .created
    | @cloned p h' _ hc ih =>
      -- nothing was cloned from the new handle yet
      have hp : p < n := by
        rcases List.mem_append.1 hc with hc | hc
        · exact hn p h' hc
        · exact (he p h' (List.mem_singleton.1 hc).symm).1
      have hm : MadeOf log origin p := by
        rcases ih with hm | ⟨q, hq, -⟩
        · exact hm
        · exact absurd (he q p hq).2 hp.ne
      rcases List.mem_append.1 hc with hc | hc
      · exact .inl (hm.cloned hc)
      · exact .inr ⟨p, (List.mem_singleton.1 hc).symm, hm⟩
  · rintro (hm | ⟨p, rfl, hm⟩)
    · exact hm.append _
    · exact (hm.append _).cloned (List.mem_append_right _ List.mem_cons_self)

/-- A handle that was never cloned is the only one. -/
theorem MadeOf.eq_of_not_cloned (hm : MadeOf log origin h)
    (ho : ∀ h', ⟨.clone origin, .handle h'⟩ ∉ log) : h = origin := by
  induction hm with
  | created => rfl
  | cloned _ hc ih => exact absurd (ih ▸ hc) (ho _)

/-- The first item of a kind in a list, by two splits of the list. -/
theorem eq_of_first_splits {β : Type} {P : β → Prop} {x y : β} (hx : P x) (hy : P y) :
    ∀ {before before' after after' : List β}, before ++ x :: after = before' ++ y :: after' →
      (∀ z ∈ before, ¬ P z) → (∀ z ∈ before', ¬ P z) → x = y := by
  intro before
  induction before with
  | nil =>
    intro before' after after' heq _ hnone'
    cases before' with
    | nil => exact (List.cons.inj heq).1
    | cons z rest => exact absurd ((List.cons.inj heq).1 ▸ hx) (hnone' z List.mem_cons_self)
  | cons z rest ih =>
    intro before' after after' heq hnone hnone'
    cases before' with
    | nil => exact absurd ((List.cons.inj heq).1 ▸ hy) (hnone z List.mem_cons_self)
    | cons z' rest' =>
      refine ih (List.cons.inj heq).2 ?_ ?_
      · exact fun w hw => hnone w (List.mem_cons_of_mem _ hw)
      · exact fun w hw => hnone' w (List.mem_cons_of_mem _ hw)

/-- **Only one archive is the first.** -/
theorem FirstAttached.unique {archive' : α} (ha : FirstAttached log origin archive)
    (ha' : FirstAttached log origin archive') : archive = archive' := by
  obtain ⟨before, h, after, hlog, hm, hnone⟩ := ha
  obtain ⟨before', h', after', hlog', hm', hnone'⟩ := ha'
  have heq : (⟨.attach h archive, .done⟩ : CatalogEntry α) = ⟨.attach h' archive', .done⟩ := by
    refine eq_of_first_splits (P := fun e => ∃ h archive, MadeOf log origin h ∧
      e = ⟨.attach h archive, .done⟩) ⟨h, archive, hm, rfl⟩ ⟨h', archive', hm', rfl⟩
      (hlog.symm.trans hlog') ?_ ?_
    · rintro e he ⟨k, a, hk, rfl⟩
      exact hnone k a hk he
    · rintro e he ⟨k, a, hk, rfl⟩
      exact hnone' k a hk he
  cases heq
  rfl

/-- **What was attached first stays the first.** -/
theorem FirstAttached.concat (ha : FirstAttached log origin archive)
    (hsame : ∀ h archive', ⟨.attach h archive', .done⟩ ∈ log → MadeOf (log ++ [entry]) origin h →
      MadeOf log origin h) : FirstAttached (log ++ [entry]) origin archive := by
  obtain ⟨before, h, after, hlog, hm, hnone⟩ := ha
  refine ⟨before, h, after ++ [entry], by simp [hlog], hm.append _, ?_⟩
  intro h' archive' hm' hmem
  have hlogmem : ⟨.attach h' archive', .done⟩ ∈ log := by
    rw [hlog]
    exact List.mem_append_left _ hmem
  exact hnone h' archive' (hsame h' archive' hlogmem hm') hmem

/-- **What the log tells of one catalog**: its handles are those with its slot, and in the slot is
the archive that was attached first. -/
structure Family (s : Catalogs α) (log : List (CatalogEntry α)) (ds : List Dictionary)
    (origin slot : Nat) : Prop where
  handles : ∀ h, MadeOf log origin h ↔ ∃ x, s.handles[h]? = some x ∧ x.slot = slot
  dictionaries : ∀ x ∈ s.handles, x.slot = slot → x.dictionaries = ds
  attached : ∀ archive, s.slots[slot]? = some (some archive) → FirstAttached log origin archive
  empty : s.slots[slot]? = some none → ∀ h archive, MadeOf log origin h →
    ⟨.attach h archive, .done⟩ ∉ log

/-- **What all actions keep**: the log names only handles that are there, and every catalog that was
created has its slot. -/
structure Kept (s : Catalogs α) (log : List (CatalogEntry α)) : Prop where
  created_lt : ∀ ds h, ⟨.create ds, .handle h⟩ ∈ log → h < s.handles.length
  cloned_lt : ∀ p h, ⟨.clone p, .handle h⟩ ∈ log → p < s.handles.length
  attached_lt : ∀ h archive, ⟨.attach h archive, .done⟩ ∈ log → h < s.handles.length
  slot_lt : ∀ x ∈ s.handles, x.slot < s.slots.length
  family : ∀ ds origin, ⟨.create ds, .handle origin⟩ ∈ log → ∃ slot, s.Family log ds origin slot

variable {s t : Catalogs α} {ds : List Dictionary} {slot : Nat} {a : CatalogAction α}
  {as : List (CatalogAction α)}

theorem kept_empty : (({} : Catalogs α)).Kept [] :=
  ⟨nofun, nofun, nofun, nofun, nofun⟩

theorem Family.slot_lt (hf : s.Family log ds origin slot) (hk : s.Kept log) :
    slot < s.slots.length := by
  obtain ⟨x, hx, rfl⟩ := (hf.handles origin).1 .created
  exact hk.slot_lt x (List.mem_of_getElem? hx)

theorem Family.lt_length (hf : s.Family log ds origin slot) (hm : MadeOf log origin h) :
    h < s.handles.length := by
  obtain ⟨x, hx, -⟩ := (hf.handles h).1 hm
  exact (List.getElem?_eq_some_iff.1 hx).1

/-- The archive of a catalog is the first that was attached. -/
theorem Family.archive_iff (hf : s.Family log ds origin slot) (hk : s.Kept log) :
    s.slots[slot]?.join = some archive ↔ FirstAttached log origin archive := by
  have hlt := hf.slot_lt hk
  rw [List.getElem?_eq_getElem hlt, Option.join_some]
  constructor
  · intro ha
    exact hf.attached archive (by rw [List.getElem?_eq_getElem hlt, ha])
  · intro hfirst
    cases ha : s.slots[slot] with
    | none =>
      obtain ⟨before, h, after, hlog, hm, -⟩ := hfirst
      have hempty := hf.empty (by rw [List.getElem?_eq_getElem hlt, ha]) h archive hm
      exact absurd (by rw [hlog]; simp) hempty
    | some archive' =>
      have hfirst' := hf.attached archive' (by rw [List.getElem?_eq_getElem hlt, ha])
      rw [hfirst.unique hfirst']

/-- Nothing is done to a catalog: no handle is cloned, and nothing is attached to it. -/
theorem Family.congr (hf : s.Family log ds origin slot) (hk : s.Kept log)
    (he : ∀ p h', entry ≠ ⟨.clone p, .handle h'⟩)
    (hentry : ∀ h archive, MadeOf log origin h → entry ≠ ⟨.attach h archive, .done⟩)
    (hhandles : ∀ (h : Nat) (x : CatalogHandle), t.handles[h]? = some x ∧ x.slot = slot ↔
      s.handles[h]? = some x ∧ x.slot = slot)
    (hslot : t.slots[slot]? = s.slots[slot]?) : t.Family (log ++ [entry]) ds origin slot := by
  have hm : ∀ h, MadeOf (log ++ [entry]) origin h ↔ MadeOf log origin h := by
    intro h
    rw [madeOf_concat hk.cloned_lt fun p h' hc => absurd hc (he p h')]
    simp [he]
  refine ⟨?_, ?_, ?_, ?_⟩
  · intro h
    simp only [hm, hf.handles, hhandles]
  · intro x hx hslot'
    obtain ⟨i, hi⟩ := List.mem_iff_getElem?.1 hx
    exact hf.dictionaries x (List.mem_of_getElem? ((hhandles i x).1 ⟨hi, hslot'⟩).1) hslot'
  · intro archive ha
    rw [hslot] at ha
    exact (hf.attached archive ha).concat fun h archive' _ hmade => (hm h).1 hmade
  · intro hnone h archive hmade hmem
    rw [hslot] at hnone
    rcases List.mem_append.1 hmem with hmem | hmem
    · exact hf.empty hnone h archive ((hm h).1 hmade) hmem
    · exact hentry h archive ((hm h).1 hmade) (List.mem_singleton.1 hmem).symm

/-- What stands in a list with one item more. -/
theorem getElem?_concat_eq_some_iff {β : Type} {l : List β} {x y : β} {i : Nat} :
    (l ++ [y])[i]? = some x ↔ l[i]? = some x ∨ i = l.length ∧ x = y := by
  rcases lt_trichotomy i l.length with hi | rfl | hi
  · rw [List.getElem?_append_left hi]
    simp [hi.ne]
  · simp [eq_comm]
  · have hlen : (l ++ [y]).length ≤ i := by rw [List.length_append]; exact hi
    rw [List.getElem?_eq_none hlen, List.getElem?_eq_none hi.le]
    simp [hi.ne']

/-- Another catalog is created. -/
theorem Family.create (hf : s.Family log ds origin slot) (hk : s.Kept log)
    (ds' : List Dictionary) : (s.after (.create ds')).Family
      (log ++ [⟨.create ds', .handle s.handles.length⟩]) ds origin slot := by
  have hlt := hf.slot_lt hk
  refine hf.congr hk nofun nofun ?_ (List.getElem?_append_left hlt)
  intro h x
  simp only [after, getElem?_concat_eq_some_iff]
  constructor
  · rintro ⟨hx | ⟨-, rfl⟩, hslot⟩
    · exact ⟨hx, hslot⟩
    · exact absurd hslot hlt.ne'
  · rintro ⟨hx, hslot⟩
    exact ⟨.inl hx, hslot⟩

/-- The catalog that is created. -/
theorem Kept.created (hk : s.Kept log) (ds : List Dictionary) :
    (s.after (.create ds)).Family (log ++ [⟨.create ds, .handle s.handles.length⟩]) ds
      s.handles.length s.slots.length := by
  have hm : ∀ h, MadeOf (log ++ [⟨.create ds, .handle s.handles.length⟩]) s.handles.length h →
      h = s.handles.length := by
    intro h hm
    refine hm.eq_of_not_cloned ?_
    intro h' hc
    rcases List.mem_append.1 hc with hc | hc
    · exact absurd (hk.cloned_lt _ _ hc) (lt_irrefl _)
    · cases List.mem_singleton.1 hc
  refine ⟨?_, ?_, ?_, ?_⟩
  · intro h
    simp only [after, getElem?_concat_eq_some_iff]
    constructor
    · intro hmade
      exact ⟨_, .inr ⟨hm h hmade, rfl⟩, rfl⟩
    · rintro ⟨x, hx | ⟨rfl, -⟩, hslot⟩
      · exact absurd hslot (hk.slot_lt x (List.mem_of_getElem? hx)).ne
      · exact .created
  · intro x hx hslot
    rcases List.mem_append.1 hx with hx | hx
    · exact absurd hslot (hk.slot_lt x hx).ne
    · rw [List.mem_singleton.1 hx]
  · intro archive ha
    simp [after] at ha
  · intro _ h archive hmade hmem
    obtain rfl := hm h hmade
    rcases List.mem_append.1 hmem with hmem | hmem
    · exact lt_irrefl _ (hk.attached_lt _ _ hmem)
    · cases List.mem_singleton.1 hmem

/-- A handle is cloned. -/
theorem Family.clone (hf : s.Family log ds origin slot) (hk : s.Kept log) {p : Nat}
    (hp : p < s.handles.length) : (s.after (.clone p)).Family
      (log ++ [⟨.clone p, .handle s.handles.length⟩]) ds origin slot := by
  have hm : ∀ h, MadeOf (log ++ [⟨.clone p, .handle s.handles.length⟩]) origin h ↔
      MadeOf log origin h ∨ h = s.handles.length ∧ MadeOf log origin p := by
    intro h
    rw [madeOf_concat hk.cloned_lt]
    · simp [eq_comm]
    · intro q h' hc
      cases hc
      exact ⟨hp, rfl⟩
  have hold : ∀ {h archive}, ⟨.attach h archive, .done⟩ ∈ log →
      MadeOf (log ++ [⟨.clone p, .handle s.handles.length⟩]) origin h → MadeOf log origin h := by
    intro h archive hmem hmade
    rcases (hm h).1 hmade with hmade | ⟨rfl, -⟩
    · exact hmade
    · exact absurd (hk.attached_lt _ _ hmem) (lt_irrefl _)
  have hafter : (s.after (.clone p)).handles = s.handles ++ [s.handles[p]] := by
    simp [after, List.getElem?_eq_getElem hp]
  refine ⟨?_, ?_, ?_, ?_⟩
  · intro h
    -- the clone has the slot of its parent
    have hparent : MadeOf log origin p ↔ s.handles[p].slot = slot := by
      rw [hf.handles, List.getElem?_eq_getElem hp]
      simp
    rw [hm, hafter, hf.handles, hparent]
    simp only [getElem?_concat_eq_some_iff, or_and_right, exists_or]
    refine or_congr Iff.rfl ?_
    constructor
    · rintro ⟨hlast, hslot⟩
      exact ⟨_, ⟨hlast, rfl⟩, hslot⟩
    · rintro ⟨_, ⟨hlast, rfl⟩, hslot⟩
      exact ⟨hlast, hslot⟩
  · intro x hx
    rw [hafter] at hx
    rcases List.mem_append.1 hx with hx | hx
    · exact hf.dictionaries x hx
    · rw [List.mem_singleton.1 hx]
      exact hf.dictionaries _ (List.getElem_mem hp)
  · intro archive ha
    exact (hf.attached archive ha).concat fun _ _ hmem hmade => hold hmem hmade
  · intro hnone h archive hmade hmem
    rcases List.mem_append.1 hmem with hmem | hmem
    · exact hf.empty hnone h archive (hold hmem hmade) hmem
    · cases List.mem_singleton.1 hmem

/-- An archive is attached. -/
theorem Family.attach (hf : s.Family log ds origin slot) (hk : s.Kept log) {h : Nat}
    (hh : h < s.handles.length) (archive : α) : (s.after (.attach h archive)).Family
      (log ++ [⟨.attach h archive, .done⟩]) ds origin slot := by
  have hlt := hf.slot_lt hk
  have hafter : s.after (.attach h archive) = { s with
      slots := s.slots.set s.handles[h].slot
        ((s.catalog s.handles[h]).attach archive).archive } := by
    simp only [after, List.getElem?_eq_getElem hh]
  have hm : ∀ h', MadeOf (log ++ [⟨.attach h archive, .done⟩]) origin h' ↔
      MadeOf log origin h' := by
    intro h'
    refine (madeOf_concat hk.cloned_lt ?_).trans ?_
    · exact nofun
    · simp
  have hmade : MadeOf log origin h ↔ s.handles[h].slot = slot := by
    rw [hf.handles, List.getElem?_eq_getElem hh]
    simp
  rw [hafter]
  by_cases hslot : s.handles[h].slot = slot
  · have hat : ∀ archive', (s.slots.set s.handles[h].slot
        ((s.catalog s.handles[h]).attach archive).archive)[slot]? = some archive' ↔
        some (s.slots[slot]?.join.getD archive) = archive' := by
      intro archive'
      rw [hslot, List.getElem?_set_self hlt, Option.some.injEq, catalog, Catalog.attach, hslot]
    refine ⟨?_, hf.dictionaries, ?_, ?_⟩
    · intro h'
      rw [hm, hf.handles]
    · intro archive' ha
      have ha := Option.some.inj ((hat _).1 ha)
      cases hold : s.slots[slot] with
      | some first =>
        -- the slot is filled already
        rw [List.getElem?_eq_getElem hlt, hold] at ha
        obtain rfl : first = archive' := ha
        have hfirst := hf.attached first (by rw [List.getElem?_eq_getElem hlt, hold])
        exact hfirst.concat fun h' _ _ hm' => (hm h').1 hm'
      | none =>
        rw [List.getElem?_eq_getElem hlt, hold] at ha
        obtain rfl : archive = archive' := ha
        refine ⟨log, h, [], rfl, (hm h).2 (hmade.2 hslot), ?_⟩
        intro h' archive' hm'
        exact hf.empty (by rw [List.getElem?_eq_getElem hlt, hold]) h' archive' ((hm h').1 hm')
    · intro hnone
      cases (hat _).1 hnone
  · -- another catalog
    refine hf.congr hk nofun ?_ (fun _ _ => Iff.rfl) (List.getElem?_set_ne hslot)
    intro h' archive' hm' he
    cases he
    exact hslot (hmade.1 hm')

/-! ### Runs -/

theorem length_le_after (s : Catalogs α) (a : CatalogAction α) :
    s.handles.length ≤ (s.after a).handles.length := by
  cases a with
  | create ds => simp [after]
  | clone h => simp [after]
  | attach h archive =>
    simp only [after]
    split <;> exact le_rfl
  | read h request reply => rfl

/-- Every handle has a slot. -/
theorem Kept.slot_lt_after (hk : s.Kept log) (a : CatalogAction α) :
    ∀ x ∈ (s.after a).handles, x.slot < (s.after a).slots.length := by
  intro x hx
  cases a with
  | create ds =>
    simp only [Catalogs.after, List.length_append, List.length_singleton]
    rcases List.mem_append.1 hx with hx | hx
    · exact (hk.slot_lt x hx).trans (Nat.lt_succ_self _)
    · rw [List.mem_singleton.1 hx]
      exact Nat.lt_succ_self _
  | clone h =>
    rcases List.mem_append.1 hx with hx | hx
    · exact hk.slot_lt x hx
    · exact hk.slot_lt x (List.mem_of_getElem? (Option.mem_toList.1 hx))
  | attach h archive =>
    simp only [Catalogs.after] at hx ⊢
    split at hx
    · rw [List.length_set]
      exact hk.slot_lt x hx
    · exact hk.slot_lt x hx
  | read h request reply => exact hk.slot_lt x hx

/-- **Every action keeps what the log tells.** -/
theorem Kept.after (hk : s.Kept log) (ha : s.allows a = true) :
    (s.after a).Kept (log ++ [⟨a, s.answer a⟩]) where
  created_lt ds h hm := by
    rcases List.mem_append.1 hm with hm | hm
    · exact (hk.created_lt ds h hm).trans_le (s.length_le_after a)
    · obtain ⟨rfl, hanswer⟩ := CatalogEntry.mk.inj (List.mem_singleton.1 hm)
      cases hanswer
      simp [Catalogs.after]
  cloned_lt p h hm := by
    rcases List.mem_append.1 hm with hm | hm
    · exact (hk.cloned_lt p h hm).trans_le (s.length_le_after a)
    · obtain ⟨rfl, -⟩ := CatalogEntry.mk.inj (List.mem_singleton.1 hm)
      exact (of_decide_eq_true ha).trans_le (s.length_le_after _)
  attached_lt h archive hm := by
    rcases List.mem_append.1 hm with hm | hm
    · exact (hk.attached_lt h archive hm).trans_le (s.length_le_after a)
    · obtain ⟨rfl, -⟩ := CatalogEntry.mk.inj (List.mem_singleton.1 hm)
      exact (of_decide_eq_true ha).trans_le (s.length_le_after _)
  slot_lt := hk.slot_lt_after a
  family ds origin hm := by
    rcases List.mem_append.1 hm with hm | hm
    · obtain ⟨slot, hf⟩ := hk.family ds origin hm
      refine ⟨slot, ?_⟩
      cases a with
      | create ds' => exact hf.create hk ds'
      | clone p => exact hf.clone hk (of_decide_eq_true ha)
      | attach h archive => exact hf.attach hk (of_decide_eq_true ha) archive
      | read h request reply =>
        exact hf.congr hk nofun nofun (fun _ _ => Iff.rfl) rfl
    · obtain ⟨rfl, hanswer⟩ := CatalogEntry.mk.inj (List.mem_singleton.1 hm)
      cases hanswer
      exact ⟨_, hk.created ds⟩

/-- **What every action keeps, a run keeps.** -/
theorem run_keeps {P : Catalogs α → List (CatalogEntry α) → Prop}
    (hstep : ∀ {s log a}, P s log → s.allows a = true → P (s.after a) (log ++ [⟨a, s.answer a⟩]))
    {rest : List (CatalogEntry α)} (hs : P s log) (h : s.run as = some (rest, t)) :
    P t (log ++ rest) := by
  induction as generalizing s log rest with
  | nil =>
    cases h
    rw [List.append_nil]
    exact hs
  | cons a as ih =>
    rw [run] at h
    split at h
    · rename_i ha
      obtain ⟨⟨rest', t'⟩, hrun, heq⟩ := Option.map_eq_some_iff.1 h
      cases heq
      rw [List.append_cons]
      exact ih (hstep hs ha) hrun
    · cases h

/-- No action makes an old handle one of a catalog. -/
theorem Kept.madeOf_of_lt (hk : s.Kept log) (ha : s.allows a = true) (hh : h < s.handles.length)
    (hm : MadeOf (log ++ [⟨a, s.answer a⟩]) origin h) : MadeOf log origin h := by
  have hnew : ∀ p h', (⟨a, s.answer a⟩ : CatalogEntry α) = ⟨.clone p, .handle h'⟩ →
      p < s.handles.length ∧ h' = s.handles.length := by
    intro p h' he
    obtain ⟨rfl, hanswer⟩ := CatalogEntry.mk.inj he
    cases hanswer
    exact ⟨of_decide_eq_true ha, rfl⟩
  rcases (madeOf_concat hk.cloned_lt hnew).1 hm with hm | ⟨p, hp, -⟩
  · exact hm
  · exact absurd (hnew p h hp).2 hh.ne

/-- What was attached first stays the first, whatever is done later. -/
theorem FirstAttached.run {rest : List (CatalogEntry α)} (hk : s.Kept log)
    (hf : FirstAttached log origin archive) (h : s.run as = some (rest, t)) :
    FirstAttached (log ++ rest) origin archive := by
  refine (run_keeps (P := fun s log => s.Kept log ∧ FirstAttached log origin archive) ?_
    ⟨hk, hf⟩ h).2
  rintro s log a ⟨hk, hf⟩ ha
  refine ⟨hk.after ha, hf.concat ?_⟩
  exact fun h' archive' hmem => hk.madeOf_of_lt ha (hk.attached_lt h' archive' hmem)

/-- **Reads through shared catalogs.** Catalogs are created, handles on them cloned, archives
attached and samples read, in whatever order. Then a read through a handle is refused for the first
check that fails, and nothing is asked; or the archive that was attached first through any handle on
this catalog is asked once, and its points come unchanged or downsampled, at most as many as wanted.
No later attachment changes which archive that is. -/
theorem reads_run (h : ({} : Catalogs α).run as = some (log, s)) {handle : Nat}
    (hc : ⟨.create ds, .handle origin⟩ ∈ log) (hm : MadeOf log origin handle)
    (request : HistoryRequest) (reply : ArchiveAnswers α) :
    s.allows (.read handle request reply) = true ∧
      (∃ result queries, s.answer (.read handle request reply) = .read result queries) ∧
      (∀ result queries, s.answer (.read handle request reply) = .read result queries ↔
        request.Reads ds (FirstAttached log origin) reply result queries) ∧
      (∀ points queries limit, s.answer (.read handle request reply) = .read (.ok points) queries →
        (∀ query ∈ queries, ∀ all, reply query = .ok all → FitMemory all) →
        request.maxPoints = some limit → limit ≠ 0 → points.length ≤ limit) ∧
      ∀ archive, FirstAttached log origin archive → ∀ as' rest t, s.run as' = some (rest, t) →
        FirstAttached (log ++ rest) origin archive := by
  have hk : s.Kept log := run_keeps Kept.after kept_empty h
  obtain ⟨slot, hf⟩ := hk.family ds origin hc
  obtain ⟨x, hx, hslot⟩ := (hf.handles handle).1 hm
  have hds : (s.catalog x).dictionaries = ds :=
    hf.dictionaries x (List.mem_of_getElem? hx) hslot
  have hattached : ((s.catalog x).archive = some ·) = FirstAttached log origin := by
    funext archive
    rw [catalog, hslot]
    exact propext (hf.archive_iff hk)
  have hreads : ∀ result queries, s.answer (.read handle request reply) = .read result queries ↔
      request.Reads ds (FirstAttached log origin) reply result queries := by
    intro result queries
    rw [← hds, ← hattached, ← Catalog.read_eq_iff]
    simp only [answer, hx, CatalogAnswer.read.injEq, Prod.ext_iff]
  refine ⟨decide_eq_true (hf.lt_length hm), ?_, hreads, ?_,
    fun archive ha as' rest t hrun => ha.run hk hrun⟩
  · simp only [answer, hx]
    exact ⟨_, _, rfl⟩
  · intro points queries limit hanswer hfit hmax h0
    exact ((hreads _ _).1 hanswer).length_le hmax h0 hfit

/-- Two samples in the archive `first`, and none in any other. -/
def twoSamples (query : ArchiveQuery String) : Except String (List Point) :=
  if query.archive = "first" then .ok [⟨0, 1⟩, ⟨1, 2⟩] else .ok []

/-- The log of two attachments, the first of them through a clone. -/
def attachedTwice : List (CatalogEntry String) :=
  [⟨.create [.avionics], .handle 0⟩, ⟨.clone 0, .handle 1⟩, ⟨.attach 1 "first", .done⟩,
    ⟨.attach 0 "second", .done⟩]

theorem attachedTwice_first : FirstAttached attachedTwice 0 "first" :=
  ⟨[⟨.create [.avionics], .handle 0⟩, ⟨.clone 0, .handle 1⟩], 1, _, rfl,
    MadeOf.created.cloned (by simp [attachedTwice]), by simp⟩

/-- A read asks the archive that was attached first, though through another handle. -/
theorem reads_run_first : ∃ s,
    ({} : Catalogs String).run (attachedTwice.map (·.action)) = some (attachedTwice, s) ∧
    s.answer (.read 0 ⟨"av", "altitude", ⟨0, 5⟩, some 1⟩ twoSamples) =
      .read (.ok (downsample 1 [⟨0, 1⟩, ⟨1, 2⟩])) [⟨"first", "av", "altitude", ⟨0, 5⟩⟩] ∧
    (downsample 1 [⟨0, 1⟩, ⟨1, 2⟩]).length ≤ 1 := by
  have hrun : ({} : Catalogs String).run (attachedTwice.map (·.action)) =
      some (attachedTwice, _) := rfl
  obtain ⟨-, -, hreads, hlength, -⟩ := reads_run hrun List.mem_cons_self .created
    ⟨"av", "altitude", ⟨0, 5⟩, some 1⟩ twoSamples
  have hpasses : HistoryRequest.Passes ⟨"av", "altitude", ⟨0, 5⟩, some 1⟩ [.avionics]
      (FirstAttached attachedTwice 0) "first" :=
    ⟨by decide, ⟨_, ⟨rfl, [], [], rfl, nofun⟩, by decide⟩, attachedTwice_first⟩
  have hread := (hreads _ _).2 (.downsampled hpasses rfl rfl (by decide) (by decide))
  refine ⟨_, hrun, hread, hlength _ _ 1 hread ?_ rfl (by decide)⟩
  intro query hquery all hall
  rw [List.mem_singleton.1 hquery] at hall
  cases hall
  decide

end Catalogs

end TelemetryRelay
