namespace RegisterMachine

-- A byte string. Image names, file contents and everything printed are octets: a file name need
-- not be UTF-8, and a message that quotes one keeps its bytes.
abbrev Octets := List UInt8

-- The UTF-8 bytes of a text.
def octets (text : String) : Octets := text.toUTF8.data.toList

namespace Octets

-- Whether the bytes are UTF-8: no stray or missing continuation byte, no overlong form, no
-- surrogate, nothing above U+10FFFF.
def isText (bytes : Octets) : Bool := (ByteArray.mk bytes.toArray).validateUTF8

-- The text that the bytes spell, if they are UTF-8.
def text? (bytes : Octets) : Option String := String.fromUTF8? (ByteArray.mk bytes.toArray)

-- The lowest `count` bytes of `value`, least significant first.
def littleEndian : (count : Nat) → (value : Nat) → Octets
  | 0, _ => []
  | count + 1, value => UInt8.ofNat value :: littleEndian count (value / 256)

-- The number whose bytes, least significant first, are given.
def fromLittleEndian : Octets → Nat
  | [] => 0
  | byte :: rest => byte.toNat + 256 * fromLittleEndian rest

-- The lowest `count` bytes of `value`, most significant first.
def bigEndian (count value : Nat) : Octets := (littleEndian count value).reverse

-- The number whose bytes, most significant first, are given.
def fromBigEndian (bytes : Octets) : Nat := fromLittleEndian bytes.reverse

@[simp]
theorem length_littleEndian (count value : Nat) : (littleEndian count value).length = count := by
  induction count generalizing value with
  | zero => rfl
  | succ count ih => simp [littleEndian, ih]

-- Lines written one after the other, each ended by a line feed that is not there yet.
def line (bytes : Octets) : Octets :=
  if bytes.getLast? = some 10 then bytes else bytes ++ [10]

-- The pieces between separators, at least one.
def split (separator : UInt8) (bytes : Octets) : List Octets :=
  bytes.foldr (fun b pieces =>
    if b = separator then [] :: pieces
    else match pieces with
      | [] => [[b]]
      | piece :: rest => (b :: piece) :: rest) [[]]

-- Pieces with a separator between neighbours.
def join (separator : Octets) (pieces : List Octets) : Octets := List.intercalate separator pieces

end Octets

end RegisterMachine
