import AttrFederation.Json
import AttrFederation.Span
import AttrFederation.Text.Blank
import AttrFederation.Text.Numeral

/-!
# Times of day and instants

A time of day is a second of the day and a fraction; the fraction exceeds one second within a leap
second, which is written as second 60.  An instant is a day and a time of day.

* `ofHourMinute?` reads `HH:MM`, one or two digits each, with blanks before a number;
* `ofText?` reads `HH:MM` with optional seconds and fraction, and `toText` writes them;
* `Instant.since` is the signed distance of two instants in nanoseconds.
-/

namespace AttrFederation

/-! ## Times of day -/

/-- A time of day. -/
structure TimeOfDay where
  /-- The second of the day. -/
  second : Fin 86400
  /-- Nanoseconds since the second began; a second or more within a leap second. -/
  nanos : Fin 2000000000
deriving DecidableEq, Repr

namespace TimeOfDay

def hour (t : TimeOfDay) : Nat :=
  t.second.val / 3600

/-- The time lies in a leap second. -/
def inLeapSecond (t : TimeOfDay) : Bool :=
  nanosPerSecond ≤ t.nanos.val

/-- The time of an hour, minute, second and fraction; second 60 is the leap second. -/
def of? (hour minute second nanos : Nat) : Option TimeOfDay :=
  if hh : hour < 24 ∧ minute < 60 ∧ second ≤ 60 ∧ nanos < 1000000000 then
    if hs : second < 60 then
      some ⟨⟨hour * 3600 + minute * 60 + second, by omega⟩, ⟨nanos, by omega⟩⟩
    else some ⟨⟨hour * 3600 + minute * 60 + 59, by omega⟩, ⟨nanos + 1000000000, by omega⟩⟩
  else none

/-- A number of one or two digits after blanks, and the rest. -/
def takeField (cs : List Char) : Option (Nat × List Char) :=
  Text.takeNumber 2 (Text.trimStartChars cs)

/-- A two-digit field after blanks and a colon. -/
def takeColonField (cs : List Char) : Option (Nat × List Char) :=
  match Text.trimStartChars cs with
  | ':' :: rest => takeField rest
  | _ => none

/-- A time written as hour and minute: two numbers with a colon right after the first and nothing
after the second. -/
def ofHourMinute? (s : String) : Option TimeOfDay := do
  let (hour, rest) ← takeField s.toList
  let ':' :: rest := rest | none
  let (minute, rest) ← takeField rest
  if rest.isEmpty then of? hour minute 0 0 else none

/-- A fraction of a second after a point, in nanoseconds, and the rest; digits after the ninth do
not count. -/
def takeFraction (cs : List Char) : Option (Nat × List Char) :=
  match cs with
  | '.' :: digits =>
    match Text.spanDigits 9 digits with
    | ([], _) => none
    | (read, rest) =>
      some (Text.ofDigits read * Nat.pow 10 (9 - read.length), rest.dropWhile Char.isDigit)
  | _ => some (0, cs)

/-- The seconds and the fraction at the end of a time, if the rest of the text is just that. -/
def readSeconds? (cs : List Char) : Option (Nat × Nat) := do
  let (second, rest) ← takeColonField cs
  let (nanos, rest) ← takeFraction rest
  if rest.all Text.isBlank then some (second, nanos) else none

/-- A time written with optional seconds and fraction, blanks allowed before each sign and number
and at the end. -/
def ofText? (s : String) : Option TimeOfDay := do
  let (hour, rest) ← takeField s.toList
  let (minute, rest) ← takeColonField rest
  if rest.all Text.isBlank then of? hour minute 0 0
  else do
    let (second, nanos) ← readSeconds? rest
    of? hour minute second nanos

/-- A fraction of a second in thousandths, millionths or billionths, as many places as it needs. -/
def fractionText (nanos : Nat) : String :=
  if nanos = 0 then ""
  else if nanos % 1000000 = 0 then "." ++ Text.zeroPadded 3 (nanos / 1000000)
  else if nanos % 1000 = 0 then "." ++ Text.zeroPadded 6 (nanos / 1000)
  else "." ++ Text.zeroPadded 9 nanos

/-- A time as `HH:MM:SS` and its fraction. -/
def toText (t : TimeOfDay) : String :=
  let leap := if t.inLeapSecond then 1 else 0
  Text.zeroPadded 2 t.hour ++ ":" ++ Text.zeroPadded 2 (t.second.val / 60 % 60) ++ ":"
    ++ Text.zeroPadded 2 (t.second.val % 60 + leap) ++ fractionText (t.nanos.val % nanosPerSecond)

end TimeOfDay

/-! ## Instants -/

/-- A day, counted from some first day, and a time of that day. -/
structure Instant where
  /-- The number of the day. -/
  day : Int
  time : TimeOfDay
deriving DecidableEq, Repr

namespace Instant

/-- The beginning of the first day. -/
def first : Instant := ⟨0, ⟨0, 0⟩⟩

/-- The seconds of a time of day as seen from another: a leap second between the two counts. -/
def secondsApart (t u : TimeOfDay) : Int :=
  let apart : Int := (t.second.val : Int) - u.second.val
  if u.second.val < t.second.val then apart + (if u.inLeapSecond then 1 else 0)
  else if t.second.val < u.second.val then apart - (if t.inLeapSecond then 1 else 0)
  else apart

/-- The signed distance from one instant to another, in nanoseconds. -/
def since (a b : Instant) : Int :=
  ((a.day - b.day) * 86400 + secondsApart a.time b.time) * nanosPerSecond
    + ((a.time.nanos.val : Int) - b.time.nanos.val)

/-- The number of a date's day in the Gregorian calendar, counted from the first of March of the
year 0. -/
def dayNumber (year month day : Nat) : Int :=
  let y : Int := if 2 < month then year else (year : Int) - 1
  let m : Nat := (month + 9) % 12
  365 * y + y / 4 - y / 100 + y / 400 + ((153 * m + 2) / 5 : Nat) + ((day : Int) - 1)

/-- An instant written as `YYYY-MM-DDTHH:MM:SS` with an optional fraction. -/
def ofText? (s : String) : Option Instant := do
  let (date, time) ← Text.cutAtFirst 'T' s
  let [year, month, day] := Text.split '-' date | none
  let year ← (Text.readUInt32? year).map UInt32.toNat
  let month ← (Text.readUInt32? month).map UInt32.toNat
  let day ← (Text.readUInt32? day).map UInt32.toNat
  let time ← TimeOfDay.ofText? time
  some ⟨dayNumber year month day, time⟩

end Instant

end AttrFederation
