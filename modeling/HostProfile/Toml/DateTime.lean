import HostProfile.Settings.Setting
import HostProfile.Text.Reader

/-! Dates and times of TOML. No setting takes one, so each is kept as it is written. -/
namespace HostProfile.Toml

open Text

def isLeapYear (year : Nat) : Bool :=
  year % 4 == 0 && (year % 100 != 0 || year % 400 == 0)

def daysInMonth (year month : Nat) : Nat :=
  if month = 2 then if isLeapYear year then 29 else 28
  else if month = 4 || month = 6 || month = 9 || month = 11 then 30
  else 31

/-- Reads a number of `width` digits that lies between two others. -/
def bounded? (width low high : Nat) : Reader Nat := fun cs => do
  let digits := cs.take width
  if digits.length < width then none
  else do
    let n ← Reader.number? 10 digits
    if low ≤ n && n ≤ high then some (n, cs.drop width) else none

/-- Skips a year, a month and a day that the month has. -/
def skipDate? (cs : List Char) : Option (List Char) := do
  let (year, r) ← bounded? 4 0 9999 cs
  let r ← Reader.skip? ['-'] r
  let (month, r) ← bounded? 2 1 12 r
  let r ← Reader.skip? ['-'] r
  let (_, r) ← bounded? 2 1 (daysInMonth year month) r
  pure r

/-- Skips an hour and a minute. -/
def skipMinutes? (cs : List Char) : Option (List Char) := do
  let (_, r) ← bounded? 2 0 23 cs
  let r ← Reader.skip? [':'] r
  let (_, r) ← bounded? 2 0 59 r
  pure r

/-- Skips a time of day, which may have parts of a second. A minute may have a leap second. -/
def skipTime? (cs : List Char) : Option (List Char) := do
  let r ← skipMinutes? cs
  let r ← Reader.skip? [':'] r
  let (_, r) ← bounded? 2 0 60 r
  match r with
  | '.' :: rest =>
    let (places, rest) := Reader.run Char.isDigit rest
    pure (if places.isEmpty then r else rest)
  | _ => pure r

/-- Skips the difference to universal time, if it is there. -/
def skipOffset (cs : List Char) : List Char :=
  match cs with
  | 'Z' :: r => r
  | 'z' :: r => r
  | '+' :: r => (skipMinutes? r).getD cs
  | '-' :: r => (skipMinutes? r).getD cs
  | _ => cs

def separatesTime (c : Char) : Bool :=
  c == 'T' || c == 't' || c == ' '

/-- Skips a date, with or without a time and that with or without an offset, or a time alone. -/
def skipDateTime? (cs : List Char) : Option (List Char) :=
  match skipDate? cs with
  | none => skipTime? cs
  | some [] => some []
  | some (c :: r) =>
    if separatesTime c then some (((skipTime? r).map skipOffset).getD (c :: r)) else some (c :: r)

/-- The key that marks a table as a date or time. -/
def dateTimeKey : String := "$__toml_private_datetime"

/-- A date or time is a table that holds its text. -/
def dateTime? : Reader Setting := fun cs =>
  (skipDateTime? cs).map fun r =>
    (.table [(dateTimeKey, .text (.ofList (cs.take (cs.length - r.length))))], r)

end HostProfile.Toml
