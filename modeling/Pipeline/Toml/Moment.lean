import Pipeline.Text.Digits

/-!
# Dates and times of TOML

A moment is a date, a time, or a date with a time and perhaps an offset.  Its
standard form has a `T` between date and time, upper-case letters, and at most nine
digits of a second without zeros at their end.
-/

namespace Pipeline.Toml

/-- A day of the calendar. -/
structure Date where
  year : Nat
  month : Nat
  day : Nat
  deriving DecidableEq, Repr

/-- A time of day. -/
structure Time where
  hour : Nat
  minute : Nat
  second : Nat
  nanosecond : Nat
  deriving DecidableEq, Repr

/-- How far a local time is ahead. -/
inductive Offset
  | zulu
  | minutes (n : Int)
  deriving DecidableEq, Repr

/-! ## Standard form -/

/-- A number with zeros in front. -/
def padded (width n : Nat) : String :=
  let ds := (toString n).toList
  String.ofList (List.replicate (width - ds.length) '0' ++ ds)

/-- The text of a date. -/
def Date.render (d : Date) : String :=
  padded 4 d.year ++ "-" ++ padded 2 d.month ++ "-" ++ padded 2 d.day

/-- The text of a time. -/
def Time.render (t : Time) : String :=
  let fraction := ((padded 9 t.nanosecond).toList.reverse.dropWhile (· = '0')).reverse
  padded 2 t.hour ++ ":" ++ padded 2 t.minute ++ ":" ++ padded 2 t.second ++
    (if fraction.isEmpty then "" else "." ++ String.ofList fraction)

/-- The text of an offset. -/
def Offset.render : Offset → String
  | .zulu => "Z"
  | .minutes n =>
    (if n < 0 then "-" else "+") ++ padded 2 (n.natAbs / 60) ++ ":" ++ padded 2 (n.natAbs % 60)

/-! ## Reading -/

/-- Read a number of exactly some digits. -/
def readFixed (width : Nat) (cs : List Char) : Option (Nat × List Char) :=
  let ds := cs.take width
  if ds.length = width ∧ ds.all Char.isDigit then some (Text.number 10 ds, cs.drop width) else none

/-- Read a number of two digits in a range. -/
def readTwo (low high : Nat) (cs : List Char) : Option (Nat × List Char) := do
  let (n, rest) ← readFixed 2 cs
  if low ≤ n ∧ n ≤ high then some (n, rest) else none

/-- Read one given character. -/
def readMark (mark : Char) : List Char → Option (List Char)
  | c :: rest => if c = mark then some rest else none
  | [] => none

/-- The number of days in a month. -/
def daysIn (year month : Nat) : Nat :=
  if month = 2 then
    if year % 4 = 0 ∧ (year % 100 ≠ 0 ∨ year % 400 = 0) then 29 else 28
  else if month = 4 ∨ month = 6 ∨ month = 9 ∨ month = 11 then 30
  else 31

/-- Read a date. -/
def readDate (cs : List Char) : Option (Date × List Char) := do
  let (year, rest) ← readFixed 4 cs
  let (month, rest) ← readTwo 1 12 (← readMark '-' rest)
  let (day, rest) ← readTwo 1 31 (← readMark '-' rest)
  if day ≤ daysIn year month then some (⟨year, month, day⟩, rest) else none

/-- Read the fraction of a second, if there is one; what is below a nanosecond is
dropped. -/
def readFractionOfSecond : List Char → Option (Nat × List Char)
  | '.' :: rest =>
    let ds := rest.takeWhile Char.isDigit
    if ds.isEmpty then none
    else
      let kept := ds.take 9
      some (Text.number 10 kept * Nat.pow 10 (9 - kept.length), rest.dropWhile Char.isDigit)
  | rest => some (0, rest)

/-- Read a time. -/
def readTime (cs : List Char) : Option (Time × List Char) := do
  let (hour, rest) ← readTwo 0 23 cs
  let (minute, rest) ← readTwo 0 59 (← readMark ':' rest)
  let (second, rest) ← readTwo 0 60 (← readMark ':' rest)
  let (nanosecond, rest) ← readFractionOfSecond rest
  some (⟨hour, minute, second, nanosecond⟩, rest)

/-- Read the hours and minutes of an offset. -/
def readOffsetMinutes (cs : List Char) : Option (Int × List Char) := do
  let (hour, rest) ← readTwo 0 23 cs
  let (minute, rest) ← readTwo 0 59 (← readMark ':' rest)
  some (hour * 60 + minute, rest)

/-- Read an offset, if there is one. -/
def readOffset : List Char → Option (Option Offset × List Char)
  | 'Z' :: rest | 'z' :: rest => some (some .zulu, rest)
  | '+' :: rest => do
    let (n, rest) ← readOffsetMinutes rest
    some (some (.minutes n), rest)
  | '-' :: rest => do
    let (n, rest) ← readOffsetMinutes rest
    some (some (.minutes (-n)), rest)
  | rest => some (none, rest)

/-- Whether a time starts here: two digits and a colon. -/
def startsTime : List Char → Bool
  | a :: b :: ':' :: _ => a.isDigit && b.isDigit
  | _ => false

/-- Whether a date starts here: four digits and a dash. -/
def startsDate : List Char → Bool
  | a :: b :: c :: d :: '-' :: _ => a.isDigit && b.isDigit && c.isDigit && d.isDigit
  | _ => false

/-- Read the time after a date, if there is one. -/
def readTimeAfterDate (date : String) : List Char → Option (String × List Char)
  | c :: rest =>
    if (c = 'T' ∨ c = 't' ∨ c = ' ') ∧ startsTime rest then do
      let (time, rest) ← readTime rest
      let (offset, rest) ← readOffset rest
      some (date ++ "T" ++ time.render ++ (offset.map Offset.render).getD "", rest)
    else some (date, c :: rest)
  | [] => some (date, [])

/-- Read a moment into its standard form, given that one starts here. -/
def readMoment (cs : List Char) : Option (String × List Char) :=
  if startsDate cs then do
    let (date, rest) ← readDate cs
    readTimeAfterDate date.render rest
  else do
    let (time, rest) ← readTime cs
    some (time.render, rest)

end Pipeline.Toml
