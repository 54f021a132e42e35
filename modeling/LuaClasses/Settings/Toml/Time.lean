import LuaClasses.Settings.Toml.Token

/-! Dates and times of TOML documents. They are read only to be written again in one fixed form. -/

namespace LuaClasses.Settings.Toml

structure Date where
  year : Nat
  month : Nat
  day : Nat
  deriving DecidableEq, Repr

structure Time where
  hour : Nat
  minute : Nat
  second : Nat
  nanosecond : Nat
  deriving DecidableEq, Repr

/-- How a time differs from universal time. -/
inductive Offset where
  | zero
  | minutes (ahead : Int)
  deriving DecidableEq, Repr

/-- A date, a time, or both; an offset only where both are. -/
structure Moment where
  date : Option Date
  time : Option Time
  offset : Option Offset
  deriving DecidableEq, Repr

namespace Moment

/-- A number of exactly so many decimal digits between two bounds, and what follows it. -/
def number? (width low high : Nat) (text : List Char) : Option (Nat × List Char) := do
  let digits := text.take width
  if digits.length < width then none
  let value ← numeral? 10 digits
  if low ≤ value && value ≤ high then some (value, text.drop width) else none

def expect? (char : Char) : List Char → Option (List Char)
  | head :: rest => if head = char then some rest else none
  | [] => none

def isLeapYear (year : Nat) : Bool := year % 4 = 0 && (year % 100 ≠ 0 || year % 400 = 0)

def daysInMonth (year month : Nat) : Nat :=
  if month = 2 then (if isLeapYear year then 29 else 28)
  else if [4, 6, 9, 11].contains month then 30
  else 31

def date? (text : List Char) : Option (Date × List Char) := do
  let (year, rest) ← number? 4 0 9999 text
  let (month, rest) ← number? 2 1 12 (← expect? '-' rest)
  let (day, rest) ← number? 2 1 (daysInMonth year month) (← expect? '-' rest)
  some (⟨year, month, day⟩, rest)

/-- The part of a second in billionths. Digits after the ninth do not count. -/
def fraction? (text : List Char) : Option (Nat × List Char) :=
  match text with
  | '.' :: rest => do
    let digits := rest.takeWhile Char.isDigit
    if digits.isEmpty then none
    let counted := digits.take 9
    let value ← numeral? 10 counted
    some (value * Nat.pow 10 (9 - counted.length), rest.drop digits.length)
  | _ => some (0, text)

def time? (text : List Char) : Option (Time × List Char) := do
  let (hour, rest) ← number? 2 0 23 text
  let (minute, rest) ← number? 2 0 59 (← expect? ':' rest)
  let (second, rest) ← number? 2 0 60 (← expect? ':' rest)
  let (nanosecond, rest) ← fraction? rest
  some (⟨hour, minute, second, nanosecond⟩, rest)

/-- The offset that a text is, if it is not empty. -/
def offset? (text : List Char) : Option (Option Offset) :=
  match text with
  | [] => some none
  | ['Z'] | ['z'] => some (some .zero)
  | sign :: rest => do
    let ahead : Int ← if sign = '+' then some 1 else if sign = '-' then some (-1) else none
    let (hour, rest) ← number? 2 0 23 rest
    let (minute, rest) ← number? 2 0 59 (← expect? ':' rest)
    if rest.isEmpty then some (some (.minutes (ahead * (hour * 60 + minute)))) else none

/-- The moment that a whole text writes. -/
def ofText? (text : List Char) : Option Moment :=
  match date? text with
  | some (date, []) => some ⟨some date, none, none⟩
  | some (date, delimiter :: rest) =>
    if ['T', 't', ' '].contains delimiter then do
      let (time, rest) ← time? rest
      some ⟨some date, some time, ← offset? rest⟩
    else none
  | none => do
    let (time, rest) ← time? text
    if rest.isEmpty then some ⟨none, some time, none⟩ else none

/-- A number with zeros before it up to a width. -/
def padded (width value : Nat) : String :=
  let digits := Nat.toDigits 10 value
  String.ofList (List.replicate (width - digits.length) '0' ++ digits)

def dateText (date : Date) : String :=
  padded 4 date.year ++ "-" ++ padded 2 date.month ++ "-" ++ padded 2 date.day

def timeText (time : Time) : String :=
  let fraction := ((padded 9 time.nanosecond).toList.reverse.dropWhile (· = '0')).reverse
  padded 2 time.hour ++ ":" ++ padded 2 time.minute ++ ":" ++ padded 2 time.second ++
    if fraction.isEmpty then "" else "." ++ String.ofList fraction

def offsetText : Offset → String
  | .zero => "Z"
  | .minutes ahead =>
    (if ahead < 0 then "-" else "+") ++ padded 2 (ahead.natAbs / 60) ++ ":" ++ padded 2 (ahead.natAbs % 60)

def text (moment : Moment) : String :=
  (moment.date.map dateText).getD "" ++
    (if moment.date.isSome && moment.time.isSome then "T" else "") ++
    (moment.time.map timeText).getD "" ++ (moment.offset.map offsetText).getD ""

end Moment
end LuaClasses.Settings.Toml
