import StackSwap.Text.Natural

namespace StackSwap.Toml.Moment

/-- A number of exactly so many digits, and the text behind it. -/
def number? (width : Nat) (chars : List Char) : Option (Nat × List Char) :=
  let digits := chars.take width
  if digits.length = width && digits.all Char.isDigit then
    some (Text.natural digits, chars.drop width)
  else none

def behind? (char : Char) : List Char → Option (List Char)
  | first :: rest => if first = char then some rest else none
  | [] => none

/-- A number of two digits, written again. -/
def twoDigits (number : Nat) : String :=
  if number < 10 then "0" ++ toString number else toString number

/-- How many days a month has. -/
def daysOf (year month : Nat) : Nat :=
  let isLeap := year % 4 = 0 && (year % 100 ≠ 0 || year % 400 = 0)
  if month = 2 then (if isLeap then 29 else 28)
  else if [4, 6, 9, 11].contains month then 30
  else 31

/-- Whether a text starts like a date: four digits and a hyphen. -/
def startsDate (chars : List Char) : Bool :=
  ((number? 4 chars).bind (fun found => behind? '-' found.2)).isSome

/-- Whether a text starts like a time of day: two digits and a colon. -/
def startsTime (chars : List Char) : Bool :=
  ((number? 2 chars).bind (fun found => behind? ':' found.2)).isSome

def date? (chars : List Char) : Option (String × List Char) := do
  let (year, rest) ← number? 4 chars
  let (month, rest) ← number? 2 (← behind? '-' rest)
  let (day, rest) ← number? 2 (← behind? '-' rest)
  if month < 1 ∨ 12 < month ∨ day < 1 ∨ daysOf year month < day then none
  return (String.ofList (chars.take 4) ++ "-" ++ twoDigits month ++ "-" ++ twoDigits day, rest)

/-- The decimals behind the seconds, if there are some. -/
def decimals? (chars : List Char) : Option (String × List Char) :=
  match chars with
  | '.' :: rest =>
    let digits := rest.takeWhile Char.isDigit
    if digits.isEmpty then none
    else
      let kept := ((digits.take 9).reverse.dropWhile (· == '0')).reverse
      some (if kept.isEmpty then "" else "." ++ String.ofList kept, rest.dropWhile Char.isDigit)
  | chars => some ("", chars)

def time? (chars : List Char) : Option (String × List Char) := do
  let (hour, rest) ← number? 2 chars
  let (minute, rest) ← number? 2 (← behind? ':' rest)
  let (second, rest) ← number? 2 (← behind? ':' rest)
  if 23 < hour ∨ 59 < minute ∨ 60 < second then none
  let (decimals, rest) ← decimals? rest
  return (twoDigits hour ++ ":" ++ twoDigits minute ++ ":" ++ twoDigits second ++ decimals, rest)

/-- An offset, if there is one. One of nothing is written with a plus sign. -/
def offset? (chars : List Char) : Option (String × List Char) :=
  match chars with
  | 'Z' :: rest | 'z' :: rest => some ("Z", rest)
  | sign :: rest =>
    if sign = '+' ∨ sign = '-' then do
      let (hours, rest) ← number? 2 rest
      let (minutes, rest) ← number? 2 (← behind? ':' rest)
      if 23 < hours ∨ 59 < minutes then none
      let sign := if hours + minutes = 0 then '+' else sign
      return (String.singleton sign ++ twoDigits hours ++ ":" ++ twoDigits minutes, rest)
    else some ("", chars)
  | [] => some ("", [])

/-- A point in time, of which the start is known to look like one. -/
def read? (chars : List Char) : Option (String × List Char) := do
  if !startsDate chars then return ← time? chars
  let (date, rest) ← date? chars
  match rest with
  | mark :: after =>
    if mark = 'T' ∨ mark = 't' ∨ mark = ' ' ∧ startsTime after then
      let (time, rest) ← time? after
      let (offset, rest) ← offset? rest
      return (date ++ "T" ++ time ++ offset, rest)
    else return (date, rest)
  | [] => return (date, [])

end StackSwap.Toml.Moment
