import RegisterMachine.Octets
import RegisterMachine.Text.Numeral
import RegisterMachine.Text.Printable

namespace RegisterMachine.Text

-- The character that the bytes start with and how many of them it takes; `none` if they start with
-- no character.
def firstChar? (bytes : Octets) : Option (Char × Nat) :=
  [1, 2, 3, 4].findSome? fun count =>
    match (Octets.text? (bytes.take count)).map String.toList with
    | some [c] => some (c, count)
    | _ => none

-- A character between quotes, escaped unless it is printable.
def quoteChar (c : Char) : String :=
  match c with
  | '"' => "\\\""
  | '\\' => "\\\\"
  | '\x07' => "\\a"
  | '\x08' => "\\b"
  | '\x0c' => "\\f"
  | '\n' => "\\n"
  | '\r' => "\\r"
  | '\t' => "\\t"
  | '\x0b' => "\\v"
  | c =>
    if isPrintable c then String.ofList [c]
    else if c.toNat < 128 then "\\x" ++ hex 2 c.toNat
    else if c.toNat < 0x10000 then "\\u" ++ hex 4 c.toNat
    else "\\U" ++ hex 8 c.toNat

-- The bytes as quoted characters; one that is part of no character is shown by its number. Each step
-- takes at least one byte, so that `fuel` need not be more than their number.
def quoteChars : (fuel : Nat) → Octets → String
  | 0, _ => ""
  | _, [] => ""
  | fuel + 1, byte :: rest =>
    match firstChar? (byte :: rest) with
    | some (c, count) => quoteChar c ++ quoteChars fuel ((byte :: rest).drop count)
    | none => "\\x" ++ hex 2 byte.toNat ++ quoteChars fuel rest

-- The bytes between double quotes.
def quoted (bytes : Octets) : String := "\"" ++ quoteChars bytes.length bytes ++ "\""

end RegisterMachine.Text
