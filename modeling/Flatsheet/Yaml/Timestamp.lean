import Flatsheet.Text.Digit
import Flatsheet.Text.Pattern

/-!
Points in time as YAML writes them: a date, or a date with a time of day and perhaps an offset.
-/

namespace Flatsheet.Yaml

structure TimeOfDay where
  hour : Nat
  minute : Nat
  second : Nat
  microsecond : Nat
  /-- The offset from universal time in minutes, if one is written. -/
  offset : Option Int
deriving DecidableEq, Repr

structure Timestamp where
  year : Nat
  month : Nat
  day : Nat
  time : Option TimeOfDay
deriving DecidableEq, Repr

namespace Timestamp

/-- A run of ASCII digits of which there are at least `least` and at most `most`. -/
def digits? (least most : Nat) (text : Text) : Option (Nat × Text) :=
  let run := (text.take most).takeWhile Char.isDigit
  if least ≤ run.length then some (decimalValue run, text.drop run.length) else none

/-- What stands between a date and a time of day. -/
def skipGap? : Text → Option Text
  | 'T' :: rest | 't' :: rest => some rest
  | text => (Text.run? (fun c => c == ' ' || c == '\t') text).map Prod.snd

/-- The microseconds of the digits after a point: the first six count. -/
def microseconds (digits : Text) : Nat :=
  decimalValue (digits.take 6 ++ List.replicate (6 - digits.length) '0')

def fraction : Text → Nat × Text
  | '.' :: text => (microseconds (text.takeWhile Char.isDigit), text.dropWhile Char.isDigit)
  | text => (0, text)

def offsetMinutes? (text : Text) : Option (Nat × Text) := do
  let (hours, rest) ← digits? 1 2 text
  match rest with
  | ':' :: minutes => do
      let (minutes, rest) ← digits? 2 2 minutes
      return (60 * hours + minutes, rest)
  | _ => return (60 * hours, rest)

/-- The offset that ends a time, after blanks; nothing may follow. -/
def offset? (text : Text) : Option (Option Int) :=
  if text = [] then some none
  else match text.dropWhile (fun c => c == ' ' || c == '\t') with
    | ['Z'] => some (some 0)
    | '+' :: text => do
        let (minutes, rest) ← offsetMinutes? text
        if rest = [] then return some (minutes : Int) else none
    | '-' :: text => do
        let (minutes, rest) ← offsetMinutes? text
        if rest = [] then return some (-minutes : Int) else none
    | _ => none

def timeOfDay? (text : Text) : Option TimeOfDay := do
  let (hour, rest) ← digits? 1 2 text
  let (minute, rest) ← Text.dropPrefix? [':'] rest >>= digits? 2 2
  let (second, rest) ← Text.dropPrefix? [':'] rest >>= digits? 2 2
  let (microsecond, rest) := fraction rest
  return ⟨hour, minute, second, microsecond, ← offset? rest⟩

def ofText? (text : Text) : Option Timestamp := do
  let (year, rest) ← digits? 4 4 text
  let (month, rest) ← Text.dropPrefix? ['-'] rest >>= digits? 1 2
  let (day, rest) ← Text.dropPrefix? ['-'] rest >>= digits? 1 2
  if rest = [] then return ⟨year, month, day, none⟩
  else return ⟨year, month, day, some (← skipGap? rest >>= timeOfDay?)⟩

/-- Whether a plain scalar is read as a timestamp. A date alone must have all its digits. -/
def isPlain (text : Text) : Bool :=
  match ofText? text with
  | some timestamp => timestamp.time.isSome || text.length == 10
  | none => false

inductive Error where
  | offset (minutes : Int)
  | year (value : Nat)
  | month
  | day
  | hour
  | minute
  | second
deriving DecidableEq, Repr

def isLeapYear (year : Nat) : Bool := (year % 4 == 0 && year % 100 != 0) || year % 400 == 0

def daysInMonth (year month : Nat) : Nat :=
  if month = 2 then (if isLeapYear year then 29 else 28)
  else if month = 4 ∨ month = 6 ∨ month = 9 ∨ month = 11 then 30
  else 31

/-- The minutes of a day. -/
def dayMinutes : Int := 1440

def checkOffset (time : Option TimeOfDay) : Except Error Unit :=
  match time >>= TimeOfDay.offset with
  | some minutes =>
      if -dayMinutes < minutes ∧ minutes < dayMinutes then .ok () else .error (.offset minutes)
  | none => .ok ()

def checkTime (time : TimeOfDay) : Except Error Unit :=
  if 23 < time.hour then .error .hour
  else if 59 < time.minute then .error .minute
  else if 59 < time.second then .error .second
  else .ok ()

/-- Refuses a timestamp that is no point in time. -/
def check (timestamp : Timestamp) : Except Error Unit := do
  checkOffset timestamp.time
  if timestamp.year = 0 then throw (.year 0)
  if timestamp.month < 1 ∨ 12 < timestamp.month then throw .month
  if timestamp.day < 1 ∨ daysInMonth timestamp.year timestamp.month < timestamp.day then throw .day
  timestamp.time.forM checkTime

/-- A number of minutes as messages write it: days, which round down, and seconds. -/
def showMinutes (minutes : Int) : Text :=
  let days := minutes.fdiv dayMinutes
  let seconds := (minutes - days * dayMinutes) * 60
  let parts := (if days = 0 then [] else ["days=".toList ++ Text.ofInt days]) ++
    (if seconds = 0 then [] else ["seconds=".toList ++ Text.ofInt seconds])
  "datetime.timedelta(".toList ++ (if parts = [] then ['0'] else Text.join ", " parts) ++ [')']

def Error.message : Error → Text
  | .offset minutes =>
      "offset must be a timedelta strictly between ".toList ++
        "-timedelta(hours=24) and timedelta(hours=24), not ".toList ++ showMinutes minutes ++ ['.']
  | .year value => "year ".toList ++ Text.ofNat value ++ " is out of range".toList
  | .month => "month must be in 1..12"
  | .day => "day is out of range for month"
  | .hour => "hour must be in 0..23"
  | .minute => "minute must be in 0..59"
  | .second => "second must be in 0..59"

def showOffset (minutes : Int) : Text :=
  if minutes = 0 then "datetime.timezone.utc"
  else "datetime.timezone(".toList ++ showMinutes minutes ++ [')']

/-- The timestamp as messages show it. Seconds and microseconds are left out where they are zero. -/
def shown (timestamp : Timestamp) : Text :=
  let date := [timestamp.year, timestamp.month, timestamp.day]
  match timestamp.time with
  | none => "datetime.date(".toList ++ Text.join ", " (date.map Text.ofNat) ++ [')']
  | some time =>
      let seconds :=
        if time.microsecond ≠ 0 then [time.second, time.microsecond]
        else if time.second ≠ 0 then [time.second]
        else []
      let parts := (date ++ [time.hour, time.minute] ++ seconds).map Text.ofNat
      let offset := (time.offset.map fun minutes => "tzinfo=".toList ++ showOffset minutes).toList
      "datetime.datetime(".toList ++ Text.join ", " (parts ++ offset) ++ [')']

end Timestamp

end Flatsheet.Yaml
