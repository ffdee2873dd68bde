import RegisterMachine.Word
import RegisterMachine.Fault

namespace RegisterMachine

-- Bytes addressed by offset. Words are stored little-endian.
structure Memory where
  bytes : Array UInt8
deriving DecidableEq

namespace Memory

def zeros (size : Nat) : Memory := ⟨Array.replicate size 0⟩

def size (memory : Memory) : Nat := memory.bytes.size

def reset (memory : Memory) : Memory := zeros memory.size

-- Overwrites cells from `offset` on.
def overwrite (cells : Array UInt8) (offset : Nat) : Octets → Array UInt8
  | [] => cells
  | byte :: rest => overwrite (cells.setIfInBounds offset byte) (offset + 1) rest

-- Puts bytes into memory, as far as there are cells for them.
def put (memory : Memory) (offset : Nat) (bytes : Octets) : Memory :=
  ⟨overwrite memory.bytes offset bytes⟩

-- An access of `size` bytes must lie inside memory as a whole.
def check (memory : Memory) (address : UInt64) (size : Nat) : Except Cause Unit :=
  if address.toNat + size ≤ memory.size then .ok () else .error (.outOfBounds address size)

-- The `count` bytes from `address` on.
def read (memory : Memory) (address : UInt64) (count : Nat) : Except Cause Octets := do
  memory.check address count
  return (memory.bytes.extract address.toNat (address.toNat + count)).toList

-- Puts bytes into memory from `address` on.
def write (memory : Memory) (address : UInt64) (bytes : Octets) : Except Cause Memory := do
  memory.check address bytes.length
  return memory.put address.toNat bytes

def loadWord (t : WordType) (memory : Memory) (address : UInt32) : Except Cause (Word t) := do
  return Word.ofOctets t (← memory.read address.toUInt64 t.bytes)

def storeWord {t : WordType} (memory : Memory) (address : UInt32) (value : Word t) :
    Except Cause Memory :=
  memory.write address.toUInt64 value.toOctets

-- A signed offset in front of memory is reported as the address with the same 64 bits.
def readAt (memory : Memory) (offset : Int64) (count : Nat) : Except Cause Octets :=
  if offset < 0 then .error (.outOfBounds offset.toUInt64 count)
  else memory.read offset.toUInt64 count

-- Fills a buffer from `offset` on and tells how many bytes that were. A buffer that cannot be filled
-- is kept.
def readInto (memory : Memory) (offset : Int64) : EStateM Cause Octets Nat := do
  match memory.readAt offset (← get).length with
  | .error cause => throw cause
  | .ok bytes =>
    set bytes
    return bytes.length

def writeAt (memory : Memory) (offset : Int64) (bytes : Octets) : Except Cause Memory :=
  if offset < 0 then .error (.outOfBounds offset.toUInt64 bytes.length)
  else memory.write offset.toUInt64 bytes

end Memory

end RegisterMachine
