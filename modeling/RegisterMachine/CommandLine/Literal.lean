import RegisterMachine.Octets

namespace RegisterMachine.CommandLine

-- Why a text is no number.
inductive LiteralError where
  | malformed
  | outOfRange
deriving DecidableEq

def LiteralError.message : LiteralError → String
  | .malformed => "parse error"
  | .outOfRange => "value out of range"

-- A capital letter as the small one.
def lower (b : UInt8) : UInt8 := if 65 ≤ b ∧ b ≤ 90 then b + 32 else b

-- The value of a digit or letter.
def digitOf? (b : UInt8) : Option Nat :=
  if 48 ≤ b ∧ b ≤ 57 then some (b - 48).toNat
  else if 97 ≤ lower b ∧ lower b ≤ 122 then some ((lower b - 97).toNat + 10)
  else none

-- The base that the first characters announce, and the digits behind them: `0b`, `0o` and `0x` with
-- something behind, or a zero for octal.
def baseOf : Octets → Nat × Octets
  | 48 :: letter :: c :: rest =>
    if lower letter = 98 then (2, c :: rest)
    else if lower letter = 111 then (8, c :: rest)
    else if lower letter = 120 then (16, c :: rest)
    else (8, letter :: c :: rest)
  | 48 :: rest => (8, rest)
  | digits => (10, digits)

-- The number that digits spell, underscores left out. It is too large as soon as it passes `limit`,
-- whatever follows.
def accumulate (base limit : Nat) : (n : Nat) → Octets → Except LiteralError Nat
  | n, [] => .ok n
  | n, b :: rest =>
    if b = 95 then accumulate base limit n rest
    else match digitOf? b with
      | none => .error .malformed
      | some d =>
        if base ≤ d then .error .malformed
        else if limit ≤ base * n + d then .error .outOfRange
        else accumulate base limit (base * n + d) rest

-- What was last seen while the places of underscores are checked.
inductive Seen where
  | start
  | digit
  | underscore
  | other
deriving DecidableEq

-- Every underscore stands between digits. `isHex` lets letters count as digits.
def underscoresFit (isHex : Bool) : Seen → Octets → Bool
  | seen, [] => seen ≠ .underscore
  | seen, b :: rest =>
    if (48 ≤ b ∧ b ≤ 57) ∨ (isHex ∧ 97 ≤ lower b ∧ lower b ≤ 102) then
      underscoresFit isHex .digit rest
    else if b = 95 then seen = .digit && underscoresFit isHex .underscore rest
    else seen ≠ .underscore && underscoresFit isHex .other rest

-- The announcement of a base counts as a digit.
def underscoresFitAll : Octets → Bool
  | 48 :: letter :: rest =>
    if lower letter = 98 ∨ lower letter = 111 ∨ lower letter = 120 then
      underscoresFit (lower letter = 120) .digit rest
    else underscoresFit false .start (48 :: letter :: rest)
  | bytes => underscoresFit false .start bytes

-- A number of 64 bits without a sign.
def unsigned (bytes : Octets) : Except LiteralError Nat :=
  if bytes = [] then .error .malformed
  else do
    let (base, digits) := baseOf bytes
    let n ← accumulate base (Nat.pow 2 64) 0 digits
    if bytes.contains 95 ∧ !underscoresFitAll bytes then throw .malformed
    return n

-- A number of 64 bits with or without a sign.
def signed (bytes : Octets) : Except LiteralError Int := do
  let (negative, digits) :=
    match bytes with
    | 45 :: rest => (true, rest)
    | 43 :: rest => (false, rest)
    | _ => (false, bytes)
  let n ← unsigned digits
  if negative then
    if Nat.pow 2 63 < n then throw .outOfRange else return -n
  else
    if Nat.pow 2 63 ≤ n then throw .outOfRange else return n

-- A yes or no.
def truth (bytes : Octets) : Option Bool :=
  if (["1", "t", "T", "TRUE", "true", "True"].map octets).contains bytes then some true
  else if (["0", "f", "F", "FALSE", "false", "False"].map octets).contains bytes then some false
  else none

end RegisterMachine.CommandLine
