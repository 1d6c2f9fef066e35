import DsService.Core.Stores
import DsService.Lib.Calendar

/-!
# Datetime texts

`parse_iso8601_utc` and `format_iso8601_utc` of `core/time-series.cpp`, with what they use of the
standard library: the flags of `std::chrono::parse` in its four formats and of `std::format`, and
the computation of a `system_clock` time point from fields and back. A time point is a signed count
of nanoseconds of 64 bits, and the computation wraps.

An `istringstream` is the list of the characters that are still to be read. A numeric flag reads its
digits as long as there are any, up to its width.
-/

namespace DsService

namespace Chrono

/-! ## Reading -/

/-- The decimal digits at the front, at most `n` of them, and the rest. -/
def digits : Nat → List Char → List Char × List Char
  | 0, cs => ([], cs)
  | _ + 1, [] => ([], [])
  | n + 1, c :: cs =>
      if c.isDigit then
        let (ds, rest) := digits n cs
        (c :: ds, rest)
      else ([], c :: cs)

/-- The number that a list of digits spells. -/
def number (ds : List Char) : Nat := ds.foldl (fun n c => 10 * n + (c.toNat - '0'.toNat)) 0

/-- From one to `n` digits. -/
def readUnsigned (n : Nat) (cs : List Char) : Option (Nat × List Char) :=
  match digits n cs with
  | ([], _) => none
  | (d :: ds, rest) => some (number (d :: ds), rest)

/-- Two digits. -/
def readTwo (cs : List Char) : Option (Nat × List Char) :=
  match digits 2 cs with
  | ([d₁, d₂], rest) => some (number [d₁, d₂], rest)
  | _ => none

/-- An optional sign, and whether it is a minus. -/
def readSign : List Char → Bool × List Char
  | '-' :: cs => (true, cs)
  | '+' :: cs => (false, cs)
  | cs => (false, cs)

/-- A number with the sign that was read before it. -/
def signed (negative : Bool) (n : Nat) : Int := if negative then -n else n

/-- `%Y`. -/
def readYear (cs : List Char) : Option (Int × List Char) := do
  let (negative, cs) := readSign cs
  let (year, cs) ← readUnsigned 4 cs
  return (signed negative year, cs)

/-- A character that the format has as itself. -/
def readChar (c : Char) : List Char → Option (List Char)
  | [] => none
  | c' :: cs => if c' = c then some cs else none

/-- `%S` at the precision of the clock: the seconds, and the nanoseconds of a fraction. -/
def readSeconds (cs : List Char) : Option ((Nat × Nat) × List Char) := do
  let (second, cs) ← readUnsigned 2 cs
  match cs with
  | '.' :: cs =>
      let (ds, cs) := digits 9 cs
      return ((second, number ds * 10 ^ (9 - ds.length)), cs)
  | cs => return ((second, 0), cs)

/-- The hours of an offset: `h[h]` for `%Ez`, `hh` for `%z`. -/
def readOffsetHours (extended : Bool) (cs : List Char) : Option (Nat × List Char) :=
  if extended then readUnsigned 2 cs else readTwo cs

/-- The minutes of an offset, which may be missing: `[:mm]` for `%Ez`, `[mm]` for `%z`. -/
def readOffsetMinutes (extended : Bool) : List Char → Option (Nat × List Char)
  | [] => some (0, [])
  | c :: cs =>
      if extended then if c = ':' then readTwo cs else some (0, c :: cs)
      else if c.isDigit then readTwo (c :: cs) else some (0, c :: cs)

/-- `%Ez`, which is `[+|-]h[h][:mm]`, or `%z`, which is `[+|-]hh[mm]`: the offset in minutes. -/
def readOffset (extended : Bool) (cs : List Char) : Option (Int × List Char) := do
  let (negative, cs) := readSign cs
  let (hours, cs) ← readOffsetHours extended cs
  let (minutes, cs) ← readOffsetMinutes extended cs
  return (signed negative (60 * hours + minutes), cs)

/-! ## Fields -/

/-- What a format reads. -/
structure Fields where
  year : Int
  month : Nat
  day : Nat
  hour : Nat
  minute : Nat
  second : Nat
  nanosecond : Nat
  /-- In minutes. -/
  offset : Int
deriving DecidableEq, Repr

/-- The date exists, and the time is one of the day. -/
def Fields.ok (f : Fields) : Bool :=
  Calendar.isDate f.year f.month f.day && f.hour < 24 && f.minute < 60 && f.second < 60

/-- How a format ends, after `%Y-%m-%dT%H:%M:%S`. -/
inductive Format where
  /-- `%Ez` -/
  | extended
  /-- `%z` -/
  | basic
  /-- `Z` -/
  | zulu
  /-- Nothing. -/
  | bare

/-- The end of a format. -/
def readZone : Format → List Char → Option (Int × List Char)
  | .extended, cs => readOffset true cs
  | .basic, cs => readOffset false cs
  | .zulu, cs => do
      let cs ← readChar 'Z' cs
      return (0, cs)
  | .bare, cs => some (0, cs)

/-- `std::chrono::parse`: the fields, and what is left of the stream. -/
def parse (fmt : Format) (cs : List Char) : Option (Fields × List Char) := do
  let (year, cs) ← readYear cs
  let cs ← readChar '-' cs
  let (month, cs) ← readUnsigned 2 cs
  let cs ← readChar '-' cs
  let (day, cs) ← readUnsigned 2 cs
  let cs ← readChar 'T' cs
  let (hour, cs) ← readUnsigned 2 cs
  let cs ← readChar ':' cs
  let (minute, cs) ← readUnsigned 2 cs
  let cs ← readChar ':' cs
  let ((second, nanosecond), cs) ← readSeconds cs
  let (offset, cs) ← readZone fmt cs
  let fields := ⟨year, month, day, hour, minute, second, nanosecond, offset⟩
  if fields.ok then some (fields, cs) else none

/-! ## Time points -/

/-- A signed count of 64 bits. -/
def wrap64 (x : Int) : Int := (x + 2 ^ 63) % 2 ^ 64 - 2 ^ 63

/-- The time of day in nanoseconds. -/
def Fields.timeOfDay (f : Fields) : Int :=
  ((f.hour * 60 + f.minute) * 60 + f.second) * 1000000000 + f.nanosecond

/-- `sys_days + time of day - offset`, in the 64 bits of a time point. -/
def Fields.timePoint (f : Fields) : Int :=
  let days := wrap64 (Calendar.daysSinceEpoch f.year f.month f.day * 86400000000000)
  let offset := wrap64 (f.offset * 60000000000)
  wrap64 (wrap64 (days + f.timeOfDay) - offset)

/-- The date and the time of day of a time point, at UTC. -/
def Fields.ofTimePoint (tp : Int) : Fields :=
  let (year, month, day) := Calendar.dateOf (tp / 86400000000000)
  let timeOfDay := (tp % 86400000000000).toNat
  { year, month, day
    hour := timeOfDay / 3600000000000
    minute := timeOfDay / 60000000000 % 60
    second := timeOfDay / 1000000000 % 60
    nanosecond := timeOfDay % 1000000000
    offset := 0 }

/-! ## Printing -/

/-- A number in decimal digits, `n` of them at least. -/
def decimal (n v : Nat) : List Char := (Nat.toDigits 10 v).leftpad n '0'

/-- `%Y`. -/
def printYear (y : Int) : List Char := (if y < 0 then ['-'] else []) ++ decimal 4 y.natAbs

/-- The fraction that `%S` prints at a precision of `p` digits, none at that of a second. -/
def printFraction (p nanosecond : Nat) : List Char :=
  if p = 0 then [] else '.' :: decimal p (nanosecond / 10 ^ (9 - p))

/-- `%Y-%m-%dT%H:%M:%S` at a precision of `p` digits. -/
def Fields.print (p : Nat) (f : Fields) : List Char :=
  printYear f.year ++ '-' :: (decimal 2 f.month ++ '-' :: (decimal 2 f.day ++ 'T' ::
    (decimal 2 f.hour ++ ':' :: (decimal 2 f.minute ++ ':' :: (decimal 2 f.second ++
      printFraction p f.nanosecond)))))

/-- `{:%Y-%m-%dT%H:%M:%S}Z` of a `sys_time` that counts `10 ^ p` ticks a second. -/
def printZulu (p : Nat) (ticks : Int) : String :=
  String.ofList ((Fields.ofTimePoint (ticks * 10 ^ (9 - p))).print p ++ ['Z'])

/-- What `std::ws` skips. -/
def isSpace (c : Char) : Bool := c.toNat == 32 || 9 ≤ c.toNat && c.toNat ≤ 13

end Chrono

open Chrono

/-- The fields that the first matching format reads, with nothing but whitespace after them. -/
def readIso8601 (s : String) : Option Fields :=
  [Format.extended, .basic, .zulu, .bare].findSome? fun fmt => do
    let (fields, rest) ← parse fmt s.toList
    if rest.all isSpace then some fields else none

def parseIso8601Utc (s : String) : Option Int := (readIso8601 s).map Fields.timePoint

/-- The comparison of `secs` with `tp` is made in the nanoseconds of `tp`. -/
def formatIso8601Utc (tp : Int) : String :=
  let secs := tp / 1000000000
  if wrap64 (secs * 1000000000) = tp then printZulu 0 secs
  else printZulu 6 (tp / 1000)

/-- The clock texts of the server, with `format_iso8601_utc` as the argument. -/
def chronoIso (format : Int → String) : Iso8601 := ⟨parseIso8601Utc, format⟩

end DsService
