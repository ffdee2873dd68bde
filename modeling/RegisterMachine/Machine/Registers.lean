import RegisterMachine.Word
import RegisterMachine.Fault

namespace RegisterMachine

-- The general purpose registers, by id.
structure Registers (t : WordType) where
  values : Array (Word t)
deriving DecidableEq

namespace Registers

variable {t : WordType}

-- Register ids are one byte.
def limit : Nat := 256

def zeros (t : WordType) (count : Nat) : Registers t := ⟨Array.replicate count 0⟩

def check (registers : Registers t) (id : UInt8) : Except Cause Unit :=
  if id.toNat < registers.values.size then .ok () else .error (.invalidRegister id)

def read (registers : Registers t) (id : UInt8) : Except Cause (Word t) :=
  if h : id.toNat < registers.values.size then .ok registers.values[id.toNat]
  else .error (.invalidRegister id)

-- Sets a register; an id that names none changes nothing.
def put (registers : Registers t) (id : UInt8) (value : Word t) : Registers t :=
  ⟨registers.values.setIfInBounds id.toNat value⟩

def write (registers : Registers t) (id : UInt8) (value : Word t) :
    Except Cause (Registers t) := do
  registers.check id
  return registers.put id value

def reset (registers : Registers t) : Registers t := zeros t registers.values.size

end Registers

-- The sign class of a result. All three are clear when there is none.
structure Flags where
  zero : Bool
  negative : Bool
  positive : Bool
deriving DecidableEq

namespace Flags

def clear : Flags := ⟨false, false, false⟩

-- The sign class of a number: exactly one flag is set.
def ofInt (n : Int) : Flags := ⟨n == 0, n < 0, 0 < n⟩

-- Three letters, with a dash for a flag that is clear.
def text (flags : Flags) : String :=
  String.ofList [if flags.zero then 'z' else '-', if flags.negative then 'n' else '-',
    if flags.positive then 'p' else '-']

end Flags

end RegisterMachine
