import StripeRecovery.Text.Blank
import StripeRecovery.Text.Json

/-!
Points in time, in the calendar that runs backwards and forwards without end, and their
text: `2024-01-02T03:04:05.678+00:00`. Reading is lenient: numbers may be short, white space
may stand in front of them, and the offset from universal time may be written in several ways.
-/
namespace StripeRecovery

/-- Seconds since 1970 in universal time, and nanoseconds; a leap second is told by
    nanoseconds of a whole second or more. -/
structure Timestamp where
  seconds : Int
  nanos : Nat
deriving DecidableEq, Repr

structure Date where
  year : Int
  month : Nat
  day : Nat
deriving DecidableEq, Repr

namespace Date

def isLeap (year : Int) : Bool := year % 4 == 0 && (year % 100 != 0 || year % 400 == 0)

def daysInMonth (year : Int) (month : Nat) : Nat :=
  if month = 2 then (if isLeap year then 29 else 28)
  else if month = 4 || month = 6 || month = 9 || month = 11 then 30
  else 31

def inRange (year : Int) : Bool := -262143 ≤ year && year ≤ 262142

def isValid (d : Date) : Bool :=
  inRange d.year && 1 ≤ d.month && d.month ≤ 12 && 1 ≤ d.day && d.day ≤ daysInMonth d.year d.month

/-- Days since 1970. Years are counted from March, so that the leap day ends them; 400 years
    have 146097 days. -/
def toDays (d : Date) : Int :=
  let year := if d.month ≤ 2 then d.year - 1 else d.year
  let cycle := year.fdiv 400
  let yearOfCycle := year - cycle * 400
  let month : Int := ((d.month + 9) % 12 : Nat)
  let dayOfYear := (153 * month + 2) / 5 + (d.day : Int) - 1
  cycle * 146097 + yearOfCycle * 365 + yearOfCycle / 4 - yearOfCycle / 100 + dayOfYear - 719468

def ofDays (days : Int) : Date :=
  let days := days + 719468
  let cycle := days.fdiv 146097
  let day := days - cycle * 146097
  let yearOfCycle := (day - day / 1460 + day / 36524 - day / 146096) / 365
  let dayOfYear := day - (365 * yearOfCycle + yearOfCycle / 4 - yearOfCycle / 100)
  let month := (5 * dayOfYear + 2) / 153
  let dayOfMonth := dayOfYear - (153 * month + 2) / 5 + 1
  let month := if month < 10 then month + 3 else month - 9
  let year := yearOfCycle + cycle * 400
  ⟨if month ≤ 2 then year + 1 else year, month.toNat, dayOfMonth.toNat⟩

end Date

namespace Timestamp

def readNumber (width : Nat) (cs : List Char) : Option (Nat × List Char) :=
  let digits := (cs.takeWhile Char.isDigit).take width
  if digits.isEmpty then none else some (Json.natOfDigits digits, cs.drop digits.length)

def readPair (cs : List Char) : Option (Nat × List Char) := readNumber 2 (skipWhite cs)

def readYear (cs : List Char) : Option (Int × List Char) :=
  match skipWhite cs with
  | '-' :: cs => (readNumber cs.length cs).map fun r => (-(r.1 : Int), r.2)
  | '+' :: cs => (readNumber cs.length cs).map fun r => ((r.1 : Int), r.2)
  | cs => (readNumber 4 cs).map fun r => ((r.1 : Int), r.2)

def expect (c : Char) (cs : List Char) : Option (List Char) :=
  match skipWhite cs with
  | d :: rest => if d = c then some rest else none
  | [] => none

def readDate (cs : List Char) : Option (Date × List Char) := do
  let (year, cs) ← readYear cs
  let (month, cs) ← readPair (← expect '-' cs)
  let (day, cs) ← readPair (← expect '-' cs)
  some (⟨year, month, day⟩, cs)

def readFraction : List Char → Option (Nat × List Char)
  | '.' :: cs => do
    let (n, rest) ← readNumber 9 cs
    let read := cs.length - rest.length
    some (n * Nat.pow 10 (9 - read), rest.dropWhile Char.isDigit)
  | cs => some (0, cs)

/-- The time of the day in seconds, and nanoseconds. Second 60 is a leap second. -/
def readTime (cs : List Char) : Option ((Nat × Nat) × List Char) := do
  let (hour, cs) ← readPair cs
  let (minute, cs) ← readPair (← expect ':' cs)
  let (second, cs) ← readPair (← expect ':' cs)
  let (nanos, cs) ← readFraction cs
  if hour < 24 && minute < 60 && second ≤ 60 then
    let leap := second == 60
    some ((hour * 3600 + minute * 60 + (if leap then 59 else second),
      if leap then 1000000000 + nanos else nanos), cs)
  else none

def readTwo : List Char → Option (Nat × List Char)
  | a :: b :: rest =>
    if a.isDigit && b.isDigit then some (Json.natOfDigits [a, b], rest) else none
  | _ => none

def readOffset (cs : List Char) : Option (Int × List Char) :=
  let signed (sign : Int) (cs : List Char) : Option (Int × List Char) := do
    let (hours, cs) ← readTwo cs
    let (minutes, cs) ← readTwo (cs.dropWhile fun c => c = ':' || isWhite c)
    if minutes < 60 && hours < 24 then some (sign * (hours * 3600 + minutes * 60 : Nat), cs)
    else none
  match skipWhite cs with
  | 'Z' :: cs => some (0, cs)
  | 'z' :: cs => some (0, cs)
  | '+' :: cs => signed 1 cs
  | '-' :: cs => signed (-1) cs
  | c :: cs =>
    if c.toNat = 0x2212 then signed (-1) cs
    else if ((c :: cs.take 2).map Char.toUpper) = ['U', 'T', 'C'] then some (0, cs.drop 2)
    else none
  | [] => none

def parse? (text : String) : Option Timestamp := do
  let (date, cs) ← readDate text.toList
  let cs ←
    match cs with
    | c :: rest => if c = 't' || c = 'T' || c = ' ' then some rest else none
    | [] => none
  let ((second, nanos), cs) ← readTime cs
  let (offset, cs) ← readOffset cs
  let seconds := date.toDays * 86400 + (second : Int) - offset
  if date.isValid && (skipWhite cs).isEmpty && Date.inRange (Date.ofDays (seconds.fdiv 86400)).year
  then some ⟨seconds, nanos⟩ else none

def padded (width n : Nat) : List Char :=
  let digits := Nat.toDigits 10 n
  List.replicate (width - digits.length) '0' ++ digits

def yearText (year : Int) : List Char :=
  if 0 ≤ year && year ≤ 9999 then padded 4 year.toNat
  else (if year < 0 then '-' else '+') :: padded 4 year.natAbs

def fractionText (nanos : Nat) : List Char :=
  if nanos = 0 then []
  else if nanos % 1000000 = 0 then '.' :: padded 3 (nanos / 1000000)
  else if nanos % 1000 = 0 then '.' :: padded 6 (nanos / 1000)
  else '.' :: padded 9 nanos

def text (t : Timestamp) (zone : String) : String :=
  let days := t.seconds.fdiv 86400
  let date := Date.ofDays days
  let second := (t.seconds - days * 86400).toNat
  let leap := 1000000000 ≤ t.nanos
  String.ofList (yearText date.year ++ '-' :: padded 2 date.month ++ '-' :: padded 2 date.day ++
    'T' :: padded 2 (second / 3600) ++ ':' :: padded 2 (second / 60 % 60) ++
    ':' :: padded 2 (second % 60 + if leap then 1 else 0) ++
    fractionText (if leap then t.nanos - 1000000000 else t.nanos)) ++ zone

def withOffset (t : Timestamp) : String := t.text "+00:00"

def withLetter (t : Timestamp) : String := t.text "Z"

end Timestamp
end StripeRecovery
