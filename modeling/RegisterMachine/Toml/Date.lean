import RegisterMachine.Toml.Scan

namespace RegisterMachine.Toml

-- Exactly so many digits, as a number.
def fixedDigits (count : Nat) : Scanner Nat := fun cs =>
  let digits := cs.take count
  if digits.length = count && digits.all Char.isDigit then
    some (number 10 digits, cs.drop count)
  else none

-- A given character.
def exactly (c : Char) : Scanner Unit
  | [] => none
  | first :: rest => if first = c then some ((), rest) else none

def isLeapYear (year : Nat) : Bool := year % 4 = 0 && (year % 100 ≠ 0 || year % 400 = 0)

def daysIn (year month : Nat) : Nat :=
  match month with
  | 2 => if isLeapYear year then 29 else 28
  | 4 | 6 | 9 | 11 => 30
  | _ => 31

-- `1979-05-27`.
def calendarDate : Scanner Unit := fun cs => do
  let (year, cs) ← fixedDigits 4 cs
  let ((), cs) ← exactly '-' cs
  let (month, cs) ← fixedDigits 2 cs
  let ((), cs) ← exactly '-' cs
  let (day, cs) ← fixedDigits 2 cs
  if 1 ≤ month ∧ month ≤ 12 ∧ 1 ≤ day ∧ day ≤ daysIn year month then some ((), cs) else none

-- `07:32:00`, with any number of digits behind a point.
def clockTime : Scanner Unit := fun cs => do
  let (hour, cs) ← fixedDigits 2 cs
  let ((), cs) ← exactly ':' cs
  let (minute, cs) ← fixedDigits 2 cs
  let ((), cs) ← exactly ':' cs
  let (second, cs) ← fixedDigits 2 cs
  if hour < 24 ∧ minute < 60 ∧ second < 60 then
    match cs with
    | '.' :: d :: rest => if d.isDigit then some ((), rest.dropWhile Char.isDigit) else some ((), cs)
    | _ => some ((), cs)
  else none

-- `Z`, or a sign and hours and minutes.
def zone : Scanner Unit
  | 'Z' :: rest => some ((), rest)
  | c :: rest =>
    if c = '+' || c = '-' then do
      let (hours, cs) ← fixedDigits 2 rest
      let ((), cs) ← exactly ':' cs
      let (minutes, cs) ← fixedDigits 2 cs
      if hours ≤ 24 ∧ minutes ≤ 60 then some ((), cs) else none
    else none
  | [] => none

-- A date, a time of day, or both with or without a zone. The `T` between date and time may be a
-- small letter or a blank, and the `Z` a small letter.
def isDate (cs : List Char) : Bool :=
  let cs := cs.map fun c => if c = 't' || c = ' ' then 'T' else if c = 'z' then 'Z' else c
  let complete : Option (Unit × List Char) → Bool
    | some ((), []) => true
    | _ => false
  let dateAndTime : Option (Unit × List Char) := do
    let ((), cs) ← calendarDate cs
    let ((), cs) ← exactly 'T' cs
    clockTime cs
  complete (calendarDate cs) || complete (clockTime cs) || complete dateAndTime ||
    complete (dateAndTime.bind fun (_, cs) => zone cs)

end RegisterMachine.Toml
