import RegisterMachine.Octets
import RegisterMachine.Text.Numeral

namespace RegisterMachine

-- How many bytes a machine word has.
inductive Width where
  | one
  | two
  | four
  | eight
deriving DecidableEq

def Width.bytes : Width → Nat
  | .one => 1
  | .two => 2
  | .four => 4
  | .eight => 8

-- A machine word's type: its width, and whether its patterns are read as two's complement.
structure WordType where
  width : Width
  signed : Bool
deriving DecidableEq

namespace WordType

def bytes (t : WordType) : Nat := t.width.bytes

def bits (t : WordType) : Nat := 8 * t.bytes

-- How many words of the type there are.
def patterns (t : WordType) : Nat := Nat.pow 2 t.bits

-- The name of a word type: `i` or `u`, then the number of bits.
def name : WordType → String
  | ⟨.one, true⟩ => "i8"
  | ⟨.two, true⟩ => "i16"
  | ⟨.four, true⟩ => "i32"
  | ⟨.eight, true⟩ => "i64"
  | ⟨.one, false⟩ => "u8"
  | ⟨.two, false⟩ => "u16"
  | ⟨.four, false⟩ => "u32"
  | ⟨.eight, false⟩ => "u64"

-- Every word type, in the order of the names.
def all : List WordType :=
  [⟨.two, true⟩, ⟨.four, true⟩, ⟨.eight, true⟩, ⟨.one, true⟩,
    ⟨.two, false⟩, ⟨.four, false⟩, ⟨.eight, false⟩, ⟨.one, false⟩]

-- The names accepted for a word type.
def names : List String := all.map name

def ofName? (text : Octets) : Option WordType := all.find? (octets ·.name == text)

end WordType

-- A word is its bit pattern. Signedness decides only how the pattern is read as a number, so
-- machines of one width share their registers, stack and memory contents bit for bit.
abbrev Word (t : WordType) := BitVec t.bits

namespace Word

variable {t : WordType}

-- The number that a pattern stands for.
def value (w : Word t) : Int := if t.signed then w.toInt else w.toNat

-- The pattern of a number, taken modulo two to the number of bits.
def ofInt (t : WordType) (n : Int) : Word t := BitVec.ofInt t.bits n

-- Whether a number is the value of some word of the type.
def Fits (t : WordType) (n : Int) : Prop := (ofInt t n).value = n

instance (t : WordType) (n : Int) : Decidable (Fits t n) :=
  inferInstanceAs (Decidable ((ofInt t n).value = n))

-- The word in 64 bits. The sign of a signed one is carried into the bits in front.
def extended (w : Word t) : UInt64 := ⟨if t.signed then w.signExtend 64 else w.setWidth 64⟩

-- The word that the lowest bits are.
def truncated (t : WordType) (bits : UInt64) : Word t := bits.toBitVec.setWidth t.bits

-- Little-endian encoding.
def toOctets (w : Word t) : Octets :=
  match t.width with
  | .one => [w.extended.toUInt8]
  | .two => Octets.littleEndian 2 w.extended.toUInt16.toNat
  | .four => Octets.littleEndian 4 w.extended.toUInt32.toNat
  | .eight => Octets.littleEndian 8 w.extended.toNat

-- The word encoded by the first bytes; missing bytes count as zero.
def ofOctets (t : WordType) (bytes : Octets) : Word t :=
  match t.width with
  | .one => truncated t (bytes.headD 0).toUInt64
  | .two => truncated t (UInt16.ofNat (Octets.fromLittleEndian (bytes.take 2))).toUInt64
  | .four => truncated t (UInt32.ofNat (Octets.fromLittleEndian (bytes.take 4))).toUInt64
  | .eight => truncated t (UInt64.ofNat (Octets.fromLittleEndian (bytes.take 8)))

@[simp]
theorem length_toOctets (w : Word t) : w.toOctets.length = t.bytes := by
  obtain ⟨width, signed⟩ := t
  cases width <;> rfl

-- All bits of a word. They are too many to be shifted to if there are 64 of them.
def mask (t : WordType) : UInt64 :=
  if 8 ≤ t.bytes then ~~~0 else (1 <<< UInt64.ofNat (8 * t.bytes)) - 1

-- The word read as an unsigned number of its width.
def toAddress (w : Word t) : UInt64 := w.extended &&& mask t

-- The word that holds an address, if the address fits its width.
def ofAddress? (t : WordType) (address : UInt64) : Option (Word t) :=
  if mask t < address then none else some (truncated t address)

-- Division that rounds toward zero. The least signed number divided by minus one wraps to itself.
def quotient (a b : Word t) : Word t := if t.signed then a.sdiv b else a.udiv b

-- What division toward zero leaves over; it has the sign of `a`.
def remainder (a b : Word t) : Word t := if t.signed then a.srem b else a.umod b

-- A buffer too short for a word of `need` bytes.
structure ShortBuffer where
  need : Nat
  size : Nat
deriving DecidableEq

def ShortBuffer.message (e : ShortBuffer) : String :=
  "runtime error: index out of range [" ++ Text.decimal (e.need - 1 : Nat) ++ "] with length " ++
    Text.decimal e.size

-- Writes a word over the first bytes of a buffer.
def put (buffer : Octets) (w : Word t) : Except ShortBuffer Octets :=
  if buffer.length < t.bytes then .error ⟨t.bytes, buffer.length⟩
  else .ok (w.toOctets ++ buffer.drop t.bytes)

-- Reads a word off the first bytes of a buffer.
def get (t : WordType) (buffer : Octets) : Except ShortBuffer (Word t) :=
  if buffer.length < t.bytes then .error ⟨t.bytes, buffer.length⟩
  else .ok (ofOctets t buffer)

end Word

end RegisterMachine
