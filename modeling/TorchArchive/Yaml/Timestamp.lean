import TorchArchive.Datum
import TorchArchive.Fault

/-!
Timestamps: dates with or without a time of day. A time may name its distance from
universal time.
-/

namespace TorchArchive.Yaml

open TorchArchive

/-- A time of day. -/
structure TimeOfDay where
  hour : Nat
  minute : Nat
  second : Nat
  microsecond : Nat
  /-- The seconds by which the time is ahead of universal time, if it tells them. -/
  offset : Option Int

/-- A date, and a time if one is told. -/
structure Timestamp where
  year : Nat
  month : Nat
  day : Nat
  time : Option TimeOfDay

namespace Timestamp

/-! ## Reading -/

/-- Reads digits, as many as there are within the bounds. -/
private def digits? (least most : Nat) (text : List Char) : Option (Nat × List Char) :=
  let digits := (text.take most).takeWhile fun c => '0' ≤ c && c ≤ '9'
  if digits.length < least then none
  else some (natOfDigits digits, text.drop digits.length)

private def char? (wanted : Char) : List Char → Option (List Char)
  | c :: rest => if c = wanted then some rest else none
  | [] => none

private def isBlank (c : Char) : Bool := c == ' ' || c == '\t'

/-- Millionths of the digits of a fraction; digits behind the sixth do not count. -/
private def microseconds (digits : List Char) : Nat :=
  natOfDigits (digits ++ List.replicate 6 '0' |>.take 6)

/-- Reads what may follow a time: its distance from universal time. -/
private def offset? (text : List Char) : Option (Option Int) :=
  match text.dropWhile isBlank with
  | [] => if text.isEmpty then some none else none
  | ['Z'] => some (some 0)
  | sign :: rest => do
      if sign != '+' && sign != '-' then none
      else
        let (hours, rest) ← digits? 1 2 rest
        let minutes ←
          match rest with
          | [] => some 0
          | _ => do
              let (minutes, rest) ← digits? 2 2 (← char? ':' rest)
              if rest.isEmpty then some minutes else none
        let seconds : Int := 3600 * hours + 60 * minutes
        some (some (if sign == '-' then -seconds else seconds))

private def time? (text : List Char) : Option TimeOfDay := do
  let (hour, text) ← digits? 1 2 text
  let (minute, text) ← digits? 2 2 (← char? ':' text)
  let (second, text) ← digits? 2 2 (← char? ':' text)
  let (fraction, text) :=
    match text with
    | '.' :: rest => rest.span fun c => '0' ≤ c && c ≤ '9'
    | _ => ([], text)
  some ⟨hour, minute, second, microseconds fraction, ← offset? text⟩

/-- Reads a timestamp. -/
def read? (text : List Char) : Option Timestamp := do
  let (year, text) ← digits? 4 4 text
  let (month, text) ← digits? 1 2 (← char? '-' text)
  let (day, text) ← digits? 1 2 (← char? '-' text)
  match text with
  | [] => some ⟨year, month, day, none⟩
  | c :: rest =>
      if c == 'T' || c == 't' then some ⟨year, month, day, some (← time? rest)⟩
      else if isBlank c then
        some ⟨year, month, day, some (← time? (rest.dropWhile isBlank))⟩
      else none

/-- The length of a date whose month and day have two digits each. -/
private def dateLength : Nat := 10

/-- Whether a text without a tag is a timestamp. -/
def isWritten (text : List Char) : Bool :=
  match read? text with
  | some timestamp => timestamp.time.isSome || text.length == dateLength
  | none => false

/-! ## The calendar -/

private def isLeap (year : Nat) : Bool :=
  year % 4 == 0 && (year % 100 != 0 || year % 400 == 0)

private def monthLength (year month : Nat) : Nat :=
  if month == 2 then if isLeap year then 29 else 28
  else if month == 4 || month == 6 || month == 9 || month == 11 then 30
  else 31

private def daySeconds : Nat := 86400

private def isTime (time : TimeOfDay) : Bool :=
  time.hour < 24 && time.minute < 60 && time.second < 60 &&
    time.offset.all fun offset => offset.natAbs < daySeconds

/-- Whether the calendar has a timestamp. -/
def isValid (timestamp : Timestamp) : Bool :=
  let { year, month, day, time } := timestamp
  1 ≤ year && 1 ≤ month && month ≤ 12 && 1 ≤ day && day ≤ monthLength year month &&
    time.all isTime

/-! ## Written forms -/

private def listed (numbers : List Nat) : String :=
  Datum.commaSeparated (numbers.map toString)

/-- The written form of a distance from universal time. -/
private def writtenOffset (offset : Int) : String :=
  if offset == 0 then "datetime.timezone.utc"
  else
    let seconds := offset % daySeconds
    let parts :=
      (if offset < 0 then ["days=-1"] else []) ++
        (if seconds == 0 then [] else ["seconds=" ++ toString seconds])
    "datetime.timezone(datetime.timedelta(" ++ Datum.commaSeparated parts ++ "))"

private def writtenTime (date : List Nat) (time : TimeOfDay) : String :=
  let { hour, minute, second, microsecond, offset } := time
  let fine :=
    if microsecond != 0 then [second, microsecond]
    else if second != 0 then [second]
    else []
  "datetime.datetime(" ++ listed (date ++ [hour, minute] ++ fine) ++
    (match offset with
      | some offset => ", tzinfo=" ++ writtenOffset offset
      | none => "") ++ ")"

/-- A timestamp as data. -/
def datum (timestamp : Timestamp) : Datum :=
  let date := [timestamp.year, timestamp.month, timestamp.day]
  let object (name written : String) : Datum := .object name written (.str written)
  match timestamp.time with
  | none => object "date" ("datetime.date(" ++ listed date ++ ")")
  | some time => object "datetime" (writtenTime date time)

end Timestamp

end TorchArchive.Yaml
