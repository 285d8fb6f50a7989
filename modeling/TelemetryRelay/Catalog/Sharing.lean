import TelemetryRelay.Catalog.Basic

/-!
# Catalogs in use by several

A catalog is read through handles. A handle can be cloned, and all clones share the dictionaries of
the catalog and the slot for its archive, which is filled once.

`Catalogs.allows` says when an action is possible, `Catalogs.answer` what it is answered and
`Catalogs.after` what it leaves. `Catalogs.run` makes actions one after the other and keeps a log of
them and of their answers.
-/

namespace TelemetryRelay

variable {α : Type}

/-- What an archive is asked. -/
structure ArchiveQuery (α : Type) where
  archive : α
  key : String
  measurement : String
  window : Window

/-- What is asked for a request. -/
def HistoryRequest.query (request : HistoryRequest) (archive : α) : ArchiveQuery α :=
  ⟨archive, request.key, request.measurement, request.window⟩

/-- What archives answer; the points that one holds change from time to time. -/
abbrev ArchiveAnswers (α : Type) := ArchiveQuery α → Except String (List Point)

/-- A handle on a catalog: its dictionaries, and the number of its slot. -/
structure CatalogHandle where
  dictionaries : List Dictionary
  slot : Nat

/-- Every handle there is and every slot, in the order in which they came. -/
structure Catalogs (α : Type) where
  handles : List CatalogHandle := []
  slots : List (Option α) := []

/-- One thing that is done with catalogs; handles are given by their place. -/
inductive CatalogAction (α : Type) where
  | create (dictionaries : List Dictionary)
  | clone (handle : Nat)
  | attach (handle : Nat) (archive : α)
  /-- A read, at a time at which archives answer by `reply`. -/
  | read (handle : Nat) (request : HistoryRequest) (reply : ArchiveAnswers α)

/-- What an action is answered. -/
inductive CatalogAnswer (α : Type) where
  /-- The place of the new handle. -/
  | handle (handle : Nat)
  | done
  /-- What a read gives, and what was asked for it. -/
  | read (result : Except CatalogError (List Point)) (queries : List (ArchiveQuery α))

/-- An action and its answer. -/
structure CatalogEntry (α : Type) where
  action : CatalogAction α
  answer : CatalogAnswer α

/-- Asks an archive, and notes what it was asked. -/
def ArchiveAnswers.ask (reply : ArchiveAnswers α) (archive : α) (key measurement : String)
    (window : Window) : StateM (List (ArchiveQuery α)) (Except String (List Point)) := do
  modify (· ++ [⟨archive, key, measurement, window⟩])
  return reply ⟨archive, key, measurement, window⟩

/-- **Reads archived samples**, and gives what was asked for it too. -/
def Catalog.read (c : Catalog α) (request : HistoryRequest) (reply : ArchiveAnswers α) :
    Except CatalogError (List Point) × List (ArchiveQuery α) :=
  (c.history reply.ask request).run []

namespace Catalogs

/-- The catalog that a handle gives access to. -/
def catalog (s : Catalogs α) (handle : CatalogHandle) : Catalog α :=
  ⟨handle.dictionaries, s.slots[handle.slot]?.join⟩

/-- Whether an action is possible now: its handle has to be there. -/
def allows (s : Catalogs α) : CatalogAction α → Bool
  | .create _ => true
  | .clone h | .attach h _ | .read h _ _ => h < s.handles.length

/-- **What an action is answered.** -/
def answer (s : Catalogs α) : CatalogAction α → CatalogAnswer α
  | .create _ | .clone _ => .handle s.handles.length
  | .attach _ _ => .done
  | .read h request reply =>
    match s.handles[h]? with
    | some handle =>
      let (result, queries) := (s.catalog handle).read request reply
      .read result queries
    | none => .done

/-- **What an action leaves.** -/
def after (s : Catalogs α) : CatalogAction α → Catalogs α
  | .create dictionaries =>
    { handles := s.handles ++ [⟨dictionaries, s.slots.length⟩], slots := s.slots ++ [none] }
  | .clone h => { s with handles := s.handles ++ s.handles[h]?.toList }
  | .attach h archive =>
    match s.handles[h]? with
    | some handle =>
      { s with slots := s.slots.set handle.slot ((s.catalog handle).attach archive).archive }
    | none => s
  | .read _ _ _ => s

/-- Makes actions one after the other; none if one of them is not possible. -/
def run (s : Catalogs α) :
    List (CatalogAction α) → Option (List (CatalogEntry α) × Catalogs α)
  | [] => some ([], s)
  | a :: rest =>
    if s.allows a then
      ((s.after a).run rest).map fun (log, t) => (⟨a, s.answer a⟩ :: log, t)
    else none

end Catalogs

end TelemetryRelay
