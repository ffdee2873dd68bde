import RegisterMachine.Machine.State

namespace RegisterMachine

-- Something a machine does that may fail. A failure keeps the machine as it is at that moment, so
-- that an instruction leaves no partial effect only if it checks everything before it changes
-- anything.
abbrev ActionOn (t : WordType) (σ : Type) := EStateM Cause (Machine t σ)

abbrev Action (t : WordType) := ActionOn t Status

namespace Machine

variable {t : WordType} {σ : Type}

-- The outcome of an operation on one part of the machine.
def attempt {α : Type} : Except Cause α → ActionOn t σ α
  | .ok a => pure a
  | .error cause => throw cause

def checkRegister (id : UInt8) : ActionOn t σ Unit := do
  attempt ((← get).registers.check id)

def readRegister (id : UInt8) : ActionOn t σ (Word t) := do
  attempt ((← get).registers.read id)

def writeRegister (id : UInt8) (value : Word t) : ActionOn t σ Unit := do
  checkRegister id
  modify fun m => { m with registers := m.registers.put id value }

def pushWord (value : Word t) : ActionOn t σ Unit := do
  attempt (← get).stack.checkRoom
  modify fun m => { m with stack := m.stack.add value }

def popWord : ActionOn t σ (Word t) := do
  let value ← attempt (← get).stack.peek
  modify fun m => { m with stack := m.stack.drop }
  return value

def loadWord (address : UInt32) : ActionOn t σ (Word t) := do
  attempt ((← get).memory.loadWord t address)

def storeWord (address : UInt32) (value : Word t) : ActionOn t σ Unit := do
  attempt ((← get).memory.check address.toUInt64 t.bytes)
  modify fun m => { m with memory := m.memory.put address.toNat value.toOctets }

def setFlags (flags : Flags) : ActionOn t σ Unit := modify fun m => { m with flags }

-- Keeps a computed value: the flags show its sign class and the register holds it.
def setResult (dest : UInt8) (value : Word t) : ActionOn t σ Unit := do
  setFlags (.ofInt value.value)
  writeRegister dest value

def jump (pc : Int64) : ActionOn t σ Unit := modify fun m => { m with pc }

-- The value of a three register instruction.
def compute (op : Opcode) (a b : Word t) : Except Cause (Word t) :=
  match op with
  | .and => .ok (a &&& b)
  | .or => .ok (a ||| b)
  | .xor => .ok (a ^^^ b)
  | .add => .ok (a + b)
  | .sub => .ok (a - b)
  | .mult => .ok (a * b)
  | .div => if b = 0 then .error .divisionByZero else .ok (a.quotient b)
  | .mod => if b = 0 then .error .divisionByZero else .ok (a.remainder b)
  | _ => .ok 0

def arithmetic (op : Opcode) (i : Instruction t) : ActionOn t σ Unit := do
  checkRegister i.first
  let a ← readRegister i.second
  let b ← readRegister i.third
  setResult i.first (← attempt (compute op a b))

-- The offset that an address operand names.
def target (i : Instruction t) : Int64 := i.address.toUInt64.toInt64

-- Carries out an instruction; `next` is the offset of the one that follows it.
def execute [RunState σ] (i : Instruction t) (next : Int64) : ActionOn t σ Unit :=
  match Opcode.ofByte? i.code with
  | none => throw (.invalidOpcode i.code)
  | some op =>
    match op with
    | .nop => jump next
    | .mov => do
      writeRegister i.first i.value
      jump next
    | .ld => do
      checkRegister i.first
      writeRegister i.first (← loadWord i.address)
      jump next
    | .st => do
      storeWord i.address (← readRegister i.first)
      jump next
    | .and | .or | .xor | .add | .sub | .mult | .div | .mod => do
      arithmetic op i
      jump next
    | .not => do
      checkRegister i.first
      setResult i.first (~~~ (← readRegister i.second))
      jump next
    | .cmp => do
      let a ← readRegister i.first
      let b ← readRegister i.second
      setFlags (.ofInt (a - b : Word t).value)
      jump next
    | .inc => do
      setResult i.first ((← readRegister i.first) + 1)
      jump next
    | .dec => do
      setResult i.first ((← readRegister i.first) - 1)
      jump next
    | .pushreg => do
      pushWord (← readRegister i.first)
      jump next
    | .popreg => do
      checkRegister i.first
      writeRegister i.first (← popWord)
      jump next
    | .jmp => jump (target i)
    | .jmpz => do jump (if (← get).flags.zero then target i else next)
    | .jmpn => do jump (if (← get).flags.negative then target i else next)
    | .jmpp => do jump (if (← get).flags.positive then target i else next)
    | .call =>
      match Word.ofAddress? t next.toUInt64 with
      | none => throw .returnAddress
      | some address => do
        pushWord address
        jump (target i)
    | .ret => do jump (← popWord).toAddress.toInt64
    | .clf => do
      setFlags .clear
      jump next
    | .hlt => modify fun m => { m with status := RunState.halted }

end Machine

end RegisterMachine
