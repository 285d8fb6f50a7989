import TelemetryRelay.Decimal.Digits

/-!
# Dates and times

A moment is a date, a time of day, or both, with an offset from universal time where both are
given. `Moment.parse?` reads one and `Moment.text` writes it in its one form: a `T` before the
time, at most nine places of a second without trailing zeros, and `Z` in upper case.
-/

namespace TelemetryRelay.Toml

open Decimal (isDigit value)

/-- A day of the calendar. -/
structure Date where
  year : Nat
  month : Nat
  day : Nat
deriving DecidableEq, Repr

/-- Whether the year has a 29th of February. -/
def isLeapYear (year : Nat) : Bool := year % 4 == 0 && (year % 100 != 0 || year % 400 == 0)

/-- How many days a month has. -/
def daysInMonth (year month : Nat) : Nat :=
  if month = 2 then if isLeapYear year then 29 else 28
  else if month = 4 ∨ month = 6 ∨ month = 9 ∨ month = 11 then 30
  else 31

/-- Whether the calendar has the day. -/
def Date.isValid (d : Date) : Bool :=
  1 ≤ d.month && d.month ≤ 12 && 1 ≤ d.day && d.day ≤ daysInMonth d.year d.month

/-- A time of day. -/
structure Time where
  hour : Nat
  minute : Nat
  second : Nat
  /-- The places of the second as written. -/
  fraction : List Char := []
deriving DecidableEq, Repr

/-- Whether a clock can show the time; a minute may have a leap second. -/
def Time.isValid (t : Time) : Bool := t.hour ≤ 23 && t.minute ≤ 59 && t.second ≤ 60

/-- A difference from universal time. -/
inductive Offset where
  | zulu
  | shift (west : Bool) (hour minute : Nat)
deriving DecidableEq, Repr

/-- A date, a time, or both. -/
inductive Moment where
  | date (d : Date)
  | time (t : Time)
  | both (d : Date) (t : Time) (offset : Option Offset)
deriving DecidableEq, Repr

/-- Reads a number of a fixed count of digits. -/
def readFixed (count : Nat) (cs : List Char) : Option (Nat × List Char) :=
  let ds := cs.take count
  if ds.length = count ∧ ds.all isDigit then some (value ds, cs.drop count) else none

/-- Passes one character. -/
def pass? (c : Char) (cs : List Char) : Option (List Char) :=
  match cs with
  | d :: rest => if c = d then some rest else none
  | [] => none

/-- Reads a date. -/
def readDate (cs : List Char) : Option (Date × List Char) := do
  let (year, rest) ← readFixed 4 cs
  let (month, rest) ← readFixed 2 (← pass? '-' rest)
  let (day, rest) ← readFixed 2 (← pass? '-' rest)
  let d : Date := ⟨year, month, day⟩
  if d.isValid then some (d, rest) else none

/-- Reads a time of day. -/
def readTime (cs : List Char) : Option (Time × List Char) := do
  let (hour, rest) ← readFixed 2 cs
  let (minute, rest) ← readFixed 2 (← pass? ':' rest)
  let (second, rest) ← readFixed 2 (← pass? ':' rest)
  let (fraction, rest) ← match rest with
    | '.' :: more =>
      let places := more.takeWhile isDigit
      if places.isEmpty then none else some (places, more.drop places.length)
    | _ => some ([], rest)
  let t : Time := ⟨hour, minute, second, fraction⟩
  if t.isValid then some (t, rest) else none

/-- Reads hours and minutes of an offset whose sign has been passed. -/
def readShift (west : Bool) (cs : List Char) : Option (Offset × List Char) := do
  let (hour, rest) ← readFixed 2 cs
  let (minute, rest) ← readFixed 2 (← pass? ':' rest)
  if hour ≤ 23 ∧ minute ≤ 59 then some (.shift west hour minute, rest) else none

/-- Reads an offset, if one comes next. -/
def readOffset (cs : List Char) : Option (Option Offset × List Char) :=
  match cs with
  | [] => some (none, [])
  | c :: rest =>
    if c = 'Z' ∨ c = 'z' then some (some .zulu, rest)
    else if c = '+' then (readShift false rest).map fun (o, rest) => (some o, rest)
    else if c = '-' then (readShift true rest).map fun (o, rest) => (some o, rest)
    else some (none, cs)

/-- Reads what follows a date: nothing, or a time behind `T` or a space. -/
def readAfterDate (d : Date) (cs : List Char) : Option (Moment × List Char) :=
  match cs with
  | [] => some (.date d, [])
  | c :: rest =>
    if c = 'T' ∨ c = 't' ∨ c = ' ' then do
      let (t, rest) ← readTime rest
      let (offset, rest) ← readOffset rest
      return (.both d t offset, rest)
    else some (.date d, cs)

/-- Reads a text that is one moment. -/
def Moment.parse? (cs : List Char) : Option Moment := do
  let (moment, rest) ← match readDate cs with
    | some (d, rest) => readAfterDate d rest
    | none => (readTime cs).map fun (t, rest) => (.time t, rest)
  if rest.isEmpty then some moment else none

/-- A number with leading zeros up to `width` digits. -/
def padded (width n : Nat) : List Char :=
  let ds := Decimal.digits n
  List.replicate (width - ds.length) '0' ++ ds

/-- The text of a date. -/
def Date.chars (d : Date) : List Char :=
  padded 4 d.year ++ '-' :: padded 2 d.month ++ '-' :: padded 2 d.day

/-- The places of a second that are written. -/
def significantPlaces (fraction : List Char) : List Char :=
  ((fraction.take 9).reverse.dropWhile (· == '0')).reverse

/-- The text of a time. -/
def Time.chars (t : Time) : List Char :=
  let places := significantPlaces t.fraction
  padded 2 t.hour ++ ':' :: padded 2 t.minute ++ ':' :: padded 2 t.second ++
    if places.isEmpty then [] else '.' :: places

/-- The text of an offset; no difference has a plus sign. -/
def Offset.chars : Offset → List Char
  | .zulu => ['Z']
  | .shift west hour minute =>
    (if west ∧ (hour, minute) ≠ (0, 0) then '-' else '+') :: padded 2 hour ++ ':' :: padded 2 minute

/-- The text of a moment. -/
def Moment.text : Moment → String
  | .date d => String.ofList d.chars
  | .time t => String.ofList t.chars
  | .both d t offset =>
    String.ofList (d.chars ++ 'T' :: t.chars ++ ((offset.map Offset.chars).getD []))

end TelemetryRelay.Toml
