import RegisterMachine.Toml.Scan

namespace RegisterMachine.Toml

-- What the first characters of a number or date have shown it to be.
inductive Numeral where
  -- Digits only so far; it may still become anything but a number in another base.
  | digits
  -- An integer or a float.
  | decimal
  | float
  | date
deriving DecidableEq

-- How the next character changes that; `none` if it does not belong to the numeral.
def Numeral.next (kind : Numeral) (c : Char) : Option Numeral :=
  match kind with
  | .digits =>
    if c.isDigit then some .digits
    else if c = '-' || c = ':' then some .date
    else if c = '_' then some .decimal
    else if c = '.' || c = 'e' || c = 'E' then some .float
    else none
  | .decimal =>
    if c.isDigit || c = '_' then some .decimal
    else if c = '.' || c = 'e' || c = 'E' then some .float
    else none
  | .float =>
    if c.isDigit || "_.-+eE".toList.contains c then some .float else none
  | .date =>
    if c.isDigit || "-:Tt .Zz+".toList.contains c then some .date else none

-- The longest numeral in front, and what kind it is. `seen` is what was read of it, last character
-- first.
def Numeral.span (kind : Numeral) (seen : List Char) : List Char → Numeral × List Char × List Char
  | [] => (kind, seen.reverse, [])
  | c :: rest =>
    match kind.next c with
    | none => (kind, seen.reverse, c :: rest)
    | some next => next.span (c :: seen) rest

-- Every underscore stands between digits, and a digit comes last. Letters count as digits of a base.
def underscoresFit (accept : Bool) : List Char → Bool
  | [] => accept
  | c :: rest => (c ≠ '_' || accept) && underscoresFit (isHexDigit c) rest

-- Whether a sign and digits start with a zero that is not all there is.
def hasLeadingZero : List Char → Bool
  | '-' :: '0' :: _ :: _ => true
  | '+' :: '0' :: _ :: _ => true
  | '0' :: c :: _ => !(c = 'b' || c = 'o' || c = 'x')
  | _ => false

def withoutUnderscores (cs : List Char) : List Char := cs.filter (· ≠ '_')

-- The sign in front, and the rest.
def signed : List Char → Bool × List Char
  | '-' :: rest => (true, rest)
  | '+' :: rest => (false, rest)
  | cs => (false, cs)

-- The integer of 64 bits that a sign and digits of a base spell. More digits than there are bits are
-- too many, zeros in front aside.
def int64? (base : Nat) (negative : Bool) (digits : List Char) : Option Int :=
  let digits := digits.dropWhile (· = '0')
  if 64 < digits.length then none
  else
    let n : Int := number base digits
    let n := if negative then -n else n
    if -(Nat.pow 2 63 : Int) ≤ n ∧ n < (Nat.pow 2 63 : Int) then some n else none

-- The value of a decimal integer.
def integer (cs : List Char) : Option Int :=
  if underscoresFit false cs && !hasLeadingZero cs then
    let (negative, digits) := signed (withoutUnderscores cs)
    int64? 10 negative digits
  else none

-- The letters that announce another base.
def baseOf : Char → Option Nat
  | 'b' => some 2
  | 'o' => some 8
  | 'x' => some 16
  | _ => none

def isDigitOf (base : Nat) (c : Char) : Bool := isHexDigit c && digitValue c < base

-- The digits of a number in another base, the announcement already read.
def basedInteger (base : Nat) (cs : List Char) : Option (Int × List Char) :=
  if (cs.head?.map (isDigitOf base)).getD false then
    let isInside (c : Char) : Bool := isDigitOf base c || c = '_'
    let digits := cs.takeWhile isInside
    if underscoresFit false digits then do
      let n ← int64? base false (withoutUnderscores digits)
      return (n, cs.dropWhile isInside)
    else none
  else none

-- Every point has a digit behind it.
def pointsFit (afterPoint : Bool) : List Char → Bool
  | [] => !afterPoint
  | c :: rest => (!afterPoint || c.isDigit) && pointsFit (c = '.') rest

-- The parts of a float between points and exponent letters, empty ones left out.
def floatParts (part : List Char) : List Char → List (List Char)
  | [] => if part.isEmpty then [] else [part.reverse]
  | c :: rest =>
    if c = '.' || c = 'e' || c = 'E' then
      if part.isEmpty then floatParts [] rest else part.reverse :: floatParts [] rest
    else floatParts (c :: part) rest

-- Digits, and whether there is at least one.
def splitDigits (cs : List Char) : List Char × List Char :=
  (cs.takeWhile Char.isDigit, cs.dropWhile Char.isDigit)

-- The size of an exponent. Once it is beyond all floats further digits do not count.
def exponentSize (digits : List Char) : Nat :=
  digits.foldl (fun n c => if n < 10000 then 10 * n + digitValue c else n) 0

-- A sign, digits with a point somewhere, and an exponent. Gives the digits before and behind the
-- point and the exponent.
def floatFields (cs : List Char) : Option (List Char × List Char × Int) :=
  let (whole, rest) := splitDigits (signed cs).2
  let (fraction, rest) :=
    match rest with
    | '.' :: rest => splitDigits rest
    | _ => ([], rest)
  if whole.isEmpty && fraction.isEmpty then none
  else match rest with
    | [] => some (whole, fraction, 0)
    | c :: rest =>
      if c = 'e' || c = 'E' then
        let (negative, digits) := signed rest
        if digits.isEmpty || !digits.all Char.isDigit then none
        else
          let n : Int := exponentSize digits
          some (whole, fraction, if negative then -n else n)
      else none

-- The least number that rounds to no float: half a unit in the last place above the greatest.
def floatLimit : Nat := Nat.pow 2 1024 - Nat.pow 2 970

-- Whether there is a float for the digits before and behind the point and the exponent. The limit is
-- a whole number of 309 digits, so that only the digits before the point are compared, and only if
-- there are about as many.
def floatInRange (whole fraction : List Char) (exponent : Int) : Bool :=
  let digits := (whole ++ fraction).dropWhile (· = '0')
  let places : Int := digits.length - fraction.length + exponent
  let before := places.toNat
  digits.isEmpty || places < 300 ||
    (places < 320 &&
      number 10 (digits.take before) * Nat.pow 10 (before - digits.length) < floatLimit)

-- Whether the characters are a float that can be represented.
def isFloat (cs : List Char) : Bool :=
  let parts := floatParts [] cs
  if parts.all (underscoresFit false) && !(parts.head?.map hasLeadingZero).getD false &&
      pointsFit false cs then
    match floatFields (withoutUnderscores cs) with
    | none => false
    | some (whole, fraction, exponent) => floatInRange whole fraction exponent
  else false

end RegisterMachine.Toml
