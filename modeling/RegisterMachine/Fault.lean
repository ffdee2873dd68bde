import RegisterMachine.Opcode
import RegisterMachine.Text.Message

namespace RegisterMachine

-- Why an instruction could not be carried out.
inductive Cause where
  -- The byte is assigned to no instruction.
  | invalidOpcode (code : UInt8)
  -- The program ends inside the instruction: it takes `need` bytes and `left` remain.
  | truncated (code : UInt8) (need left : Nat)
  | invalidRegister (id : UInt8)
  -- An access of `size` bytes from `address` on does not lie inside memory.
  | outOfBounds (address : UInt64) (size : Nat)
  | stackOverflow
  | stackUnderflow
  | divisionByZero
  -- The offset to come back to does not fit a word.
  | returnAddress
  | stepLimit
deriving DecidableEq

namespace Cause

def message : Cause → String
  | .invalidOpcode code => Text.say "opcode 0x%02x invalid" [.int code.toNat]
  | .truncated code need left =>
    if need ≤ 1 then Text.say "no instruction to fetch" []
    else
      Text.say "%v needs %d bytes, %d remain" [.text (Opcode.text code), .int need, .int left]
  | .invalidRegister id => Text.say "register r%d invalid" [.int id.toNat]
  | .outOfBounds address size =>
    Text.say "access of %d bytes at 0x%08x out of bounds" [.int size, .int address.toNat]
  | .stackOverflow => Text.say "stack overflow" []
  | .stackUnderflow => Text.say "stack underflow" []
  | .divisionByZero => Text.say "division by zero" []
  | .returnAddress => Text.say "return address exceeds word width" []
  | .stepLimit => Text.say "step limit exceeded" []

end Cause

-- Where and why a run failed: the offset of the failing instruction, its opcode byte if one was
-- fetched and zero otherwise, and the number of instructions completed before it.
structure Fault where
  offset : Int64
  code : UInt8
  steps : UInt64
  cause : Cause
deriving DecidableEq

def Fault.message (f : Fault) : String :=
  Text.say "pc 0x%04x %v: %v"
    [.int f.offset.toInt, .text (Opcode.text f.code), .text f.cause.message]

end RegisterMachine
