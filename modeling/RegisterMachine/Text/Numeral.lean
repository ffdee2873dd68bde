namespace RegisterMachine.Text

-- The digits of `n` in a base up to sixteen, most significant first; zero is one digit.
def digits (base n : Nat) : List Char := Nat.toDigits base n

-- Zeros in front, up to `width` characters.
def padZeros (width : Nat) (cs : List Char) : List Char :=
  List.replicate (width - cs.length) '0' ++ cs

-- Characters in threes counted from the right, with `separator` between the groups.
def groupThrees (separator : Char) : List Char → List Char
  | [] => []
  | c :: rest =>
    if rest.length % 3 = 0 ∧ rest ≠ [] then c :: separator :: groupThrees separator rest
    else c :: groupThrees separator rest

-- The plain decimal text of an integer.
def decimal (n : Int) : String :=
  String.ofList (if n < 0 then '-' :: digits 10 n.natAbs else digits 10 n.natAbs)

-- The decimal text of an integer with its digits in groups of three.
def grouped (separator : Char) (n : Int) : String :=
  let groups := groupThrees separator (digits 10 n.natAbs)
  String.ofList (if n < 0 then '-' :: groups else groups)

-- The hexadecimal text of an integer, padded with zeros to `width`. The sign of a negative number
-- stands in front of the zeros and takes one place of the width.
def hex (width : Nat) (n : Int) : String :=
  String.ofList (if n < 0 then '-' :: padZeros (width - 1) (digits 16 n.natAbs)
    else padZeros width (digits 16 n.natAbs))

-- Blanks in front, up to `width` characters.
def alignRight (width : Nat) (text : String) : String :=
  String.ofList (List.replicate (width - text.length) ' ') ++ text

end RegisterMachine.Text
