import RegisterMachine.Octets

namespace RegisterMachine.Cbor

-- A CBOR data item. Arguments are below two to the 64.
inductive Item where
  | unsigned (n : Nat)
  -- Stands for `-1 - n`.
  | negative (n : Nat)
  | bytes (value : Octets)
  -- A text in one piece has one chunk; one of indefinite length may have any number.
  | text (chunks : List Octets)
  | array (items : List Item)
  | map (entries : List (Item × Item))
  | tag (number : Nat) (content : Item)
  | simple (n : Nat)
  -- The bit pattern of a number of `size` bytes.
  | float (size pattern : Nat)

-- The three high bits of an item's first byte.
inductive Major where
  | unsigned
  | negative
  | bytes
  | text
  | array
  | map
  | tag
  | simple
deriving DecidableEq

namespace Major

def code : Major → Nat
  | .unsigned => 0
  | .negative => 1
  | .bytes => 2
  | .text => 3
  | .array => 4
  | .map => 5
  | .tag => 6
  | .simple => 7

def ofCode : Nat → Major
  | 0 => .unsigned
  | 1 => .negative
  | 2 => .bytes
  | 3 => .text
  | 4 => .array
  | 5 => .map
  | 6 => .tag
  | _ => .simple

end Major

-- The first bytes of an item in their shortest form.
def head (major : Major) (argument : Nat) : Octets :=
  let first (info : Nat) : UInt8 := UInt8.ofNat (32 * major.code + info)
  if argument < 24 then [first argument]
  else if argument < Nat.pow 2 8 then first 24 :: Octets.bigEndian 1 argument
  else if argument < Nat.pow 2 16 then first 25 :: Octets.bigEndian 2 argument
  else if argument < Nat.pow 2 32 then first 26 :: Octets.bigEndian 4 argument
  else first 27 :: Octets.bigEndian 8 argument

-- The additional information that announces an argument of so many bytes.
def floatInfo : Nat → Nat
  | 2 => 25
  | 4 => 26
  | _ => 27

namespace Item

-- An integer of 64 bits and a sign.
def ofInt (n : Int) : Item := if n < 0 then .negative (-1 - n).toNat else .unsigned n.toNat

def ofBool (b : Bool) : Item := .simple (if b then 21 else 20)

mutual

-- Adds the encoding with definite lengths and shortest heads to what is already written.
def writeTo (written : Array UInt8) : Item → Array UInt8
  | .unsigned n => written ++ head .unsigned n
  | .negative n => written ++ head .negative n
  | .bytes value => written ++ head .bytes value.length ++ value
  | .text chunks => written ++ head .text chunks.flatten.length ++ chunks.flatten
  | .array items => writeItems (written ++ head .array items.length) items
  | .map entries => writeEntries (written ++ head .map entries.length) entries
  | .tag number content => writeTo (written ++ head .tag number) content
  | .simple n => written ++ head .simple n
  | .float size pattern =>
    written ++ (UInt8.ofNat (32 * Major.simple.code + floatInfo size) ::
      Octets.bigEndian size pattern)

def writeItems (written : Array UInt8) : List Item → Array UInt8
  | [] => written
  | item :: rest => writeItems (writeTo written item) rest

def writeEntries (written : Array UInt8) : List (Item × Item) → Array UInt8
  | [] => written
  | (key, value) :: rest => writeEntries (writeTo (writeTo written key) value) rest

end

def encode (item : Item) : Octets := (item.writeTo #[]).toList

end Item

end RegisterMachine.Cbor
