import PowerShare.Number.Literal
import PowerShare.Number.Notation
import PowerShare.Toml.Token

/-!
# Dates and times of day

A `Moment` is a date, a time of day or both, and a distance from universal time only if it has
both. It is checked roughly: every month may have 31 days, and a day may have an hour 24. Nine
places of a second are kept.
-/

namespace PowerShare.Toml

open Reader

structure Date where
  year : Nat
  month : Nat
  day : Nat
  deriving DecidableEq

structure TimeOfDay where
  hour : Nat
  minute : Nat
  second : Nat
  nanosecond : Nat
  deriving DecidableEq

/-- The distance of a local time from universal time. -/
inductive Offset where
  | none
  | universal
  | fixed (hours : Int) (minutes : Nat)
  deriving DecidableEq

structure Moment where
  date? : Option Date
  time? : Option TimeOfDay
  offset : Offset := .none
  deriving DecidableEq

/-! ## 1. Reading -/

/-- So many decimal digits, behind the digits of the given value. -/
def decimalDigits : Nat → Nat → CharReader Nat
  | 0, value => pure value
  | count + 1, value => do
    match ← next? with
    | some c => if isDecimal c then decimalDigits count (value * 10 + (c.toNat - 48)) else refuse
    | none => refuse

/-- Takes this character, which has to be next. -/
def exactly (c : Char) : CharReader Unit := do
  if !(← eat c) then refuse

/-- A year, a month and a day with dashes between them. -/
def date : CharReader Date := do
  let year ← decimalDigits 4 0
  exactly '-'
  let month ← decimalDigits 2 0
  exactly '-'
  let day ← decimalDigits 2 0
  if month < 1 || 12 < month || day < 1 || 31 < day then refuse
  return ⟨year, month, day⟩

/-- The places behind a point as nanoseconds, if there is a point. -/
def nanoseconds : CharReader Nat := do
  if ← eat '.' then
    let places ← takeWhile isDecimal
    if places.isEmpty then refuse
    let kept := places.take 9
    return decimalValue kept * 10 ^ (9 - kept.length)
  else return 0

/-- Hours, minutes and seconds with colons between them. -/
def timeOfDay : CharReader TimeOfDay := do
  let hour ← decimalDigits 2 0
  exactly ':'
  let minute ← decimalDigits 2 0
  exactly ':'
  let second ← decimalDigits 2 0
  let nanosecond ← nanoseconds
  if 24 < hour || 59 < minute || 59 < second then refuse
  return ⟨hour, minute, second, nanosecond⟩

/-- A distance from universal time, if anything is left. -/
def offset : CharReader Offset := do
  match ← next? with
  | none => return .none
  | some c =>
    if c == 'Z' || c == 'z' then return .universal
    else if c == '+' || c == '-' then
      let hours ← decimalDigits 2 0
      exactly ':'
      let minutes ← decimalDigits 2 0
      return .fixed (if c == '-' then -hours else hours) minutes
    else refuse

/-- A time alone has its first colon in the third place. -/
def moment : CharReader Moment := do
  if (← upcoming 3).drop 2 == [':'] then return ⟨none, some (← timeOfDay), .none⟩
  let date ← date
  match ← peek? with
  | some c =>
    if c == 'T' || c == 't' || c == ' ' then
      advance
      let time ← timeOfDay
      return ⟨some date, some time, ← offset⟩
    else refuse
  | none => return ⟨some date, none, .none⟩

/-- The moment that a text spells. -/
def Moment.parse (text : List Char) : Except Refused Moment := moment.whole .malformed text

/-! ## 2. Writing -/

/-- A number with zeros in front of it up to the width. -/
def padded (width n : Nat) : List Char :=
  let digits := digitsOf n
  zeros (width - digits.length) ++ digits

def Date.text (d : Date) : List Char :=
  padded 4 d.year ++ '-' :: padded 2 d.month ++ '-' :: padded 2 d.day

/-- Places of a second that say nothing are left out. -/
def TimeOfDay.text (t : TimeOfDay) : List Char :=
  padded 2 t.hour ++ ':' :: padded 2 t.minute ++ ':' :: padded 2 t.second ++
    if t.nanosecond = 0 then []
    else '.' :: ((padded 9 t.nanosecond).reverse.dropWhile (· == '0')).reverse

def Offset.text : Offset → List Char
  | .none => []
  | .universal => ['Z']
  | .fixed hours minutes =>
    (if hours < 0 then '-' else '+') :: padded 2 hours.natAbs ++ ':' :: padded 2 minutes

def Moment.text (m : Moment) : List Char :=
  ((m.date?.map Date.text).getD []) ++ (if m.date?.isSome && m.time?.isSome then ['T'] else []) ++
    ((m.time?.map TimeOfDay.text).getD []) ++ m.offset.text

end PowerShare.Toml
