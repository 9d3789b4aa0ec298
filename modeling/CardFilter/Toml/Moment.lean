import CardFilter.Toml.Number

/-!
# Dates and times of a TOML document

A document can say a day of the calendar, a time of day, or both; a day with a time can also say
how far its clock is from universal time. No setting is a moment, so this file only tells whether
one is well written: each reader gives what follows the part it reads, and
`CardFilter.Toml.isMoment` asks that nothing follows.
-/

namespace CardFilter.Toml

/-- The number that two decimal digits at the start write, and what follows them. -/
def readTwoDigits? : List Char → Option (Nat × List Char)
  | a :: b :: rest =>
    match digit? 10 a, digit? 10 b with
    | some m, some n => some (10 * m + n, rest)
    | _, _ => none
  | _ => none

/-- What follows the character `mark` at the start. -/
def skipMark? (mark : Char) : List Char → Option (List Char)
  | c :: rest => if c = mark then some rest else none
  | [] => none

/-! ### Days -/

/-- The year has a twenty-ninth of February. -/
def isLeapYear (year : Nat) : Bool :=
  year % 4 == 0 && (year % 100 != 0 || year % 400 == 0)

/-- The number of days in a month. -/
def daysInMonth (year month : Nat) : Nat :=
  if month = 2 then (if isLeapYear year then 29 else 28)
  else if month = 4 ∨ month = 6 ∨ month = 9 ∨ month = 11 then 30
  else 31

/-- What follows a day: four digits of the year, two of the month and two of the day in it. -/
def skipDay? (cs : List Char) : Option (List Char) := do
  let (century, rest) ← readTwoDigits? cs
  let (year, rest) ← readTwoDigits? rest
  let (month, rest) ← readTwoDigits? (← skipMark? '-' rest)
  let (day, rest) ← readTwoDigits? (← skipMark? '-' rest)
  if 1 ≤ month ∧ month ≤ 12 ∧ 1 ≤ day ∧ day ≤ daysInMonth (100 * century + year) month then
    some rest
  else none

/-- The characters are a day. -/
def isDay (cs : List Char) : Bool :=
  skipDay? cs == some []

/-! ### Times -/

/-- What follows an hour and a minute. -/
def skipClock? (cs : List Char) : Option (List Char) := do
  let (hour, rest) ← readTwoDigits? cs
  let (minute, rest) ← readTwoDigits? (← skipMark? ':' rest)
  if hour < 24 ∧ minute < 60 then some rest else none

/-- What follows a fraction of a second, where there is one. -/
def skipFraction? : List Char → Option (List Char)
  | '.' :: rest =>
    if (rest.takeWhile Char.isDigit).isEmpty then none else some (rest.dropWhile Char.isDigit)
  | rest => some rest

/-- What follows a time of day: an hour, a minute and perhaps a second. A minute may have a leap
second. -/
def skipTime? (cs : List Char) : Option (List Char) := do
  match ← skipClock? cs with
  | ':' :: rest =>
    let (second, rest) ← readTwoDigits? rest
    if second ≤ 60 then skipFraction? rest else none
  | rest => some rest

/-- How far a clock is from universal time, or nothing said of it. -/
def isOffset : List Char → Bool
  | [] => true
  | sign :: rest =>
    if sign = '+' ∨ sign = '-' then skipClock? rest == some []
    else (sign == 'Z' || sign == 'z') && rest.isEmpty

/-! ### Moments -/

/-- The mark between a day and a time. -/
def isDayEnd (c : Char) : Bool :=
  c == 'T' || c == 't' || c == ' '

/-- **The word is a day, a time of day, or a day with a time.** -/
def isMoment (cs : List Char) : Bool :=
  match skipDay? cs with
  | none => skipTime? cs == some []
  | some [] => true
  | some (c :: rest) => isDayEnd c && (skipTime? rest).any isOffset

end CardFilter.Toml
