import RegisterMachine.Instruction
import RegisterMachine.Machine.Registers
import RegisterMachine.Machine.Stack
import RegisterMachine.Machine.Memory

namespace RegisterMachine

-- Why a machine does not go on: it was halted by its program, or it failed.
inductive Stop where
  | halted
  | fault (fault : Fault)
deriving DecidableEq

def Stop.message : Stop → String
  | .halted => Text.say "halted" []
  | .fault f => f.message

-- The run state. A machine that failed keeps its fault.
inductive Status where
  | running
  | halted
  | failed (fault : Fault)
deriving DecidableEq

namespace Status

def code : Status → Int
  | .running => 0
  | .halted => 1
  | .failed _ => 2

-- The text of a run state's number; numbers that stand for none are shown as such.
def textOfCode : Int → String
  | 0 => "running"
  | 1 => "halted"
  | 2 => "failed"
  | n => "State(" ++ Text.decimal n ++ ")"

def text (status : Status) : String := textOfCode status.code

def stop? : Status → Option Stop
  | .running => none
  | .halted => some .halted
  | .failed f => some (.fault f)

end Status

-- What a machine keeps as its run state: a status, or something that stands for one. What it keeps
-- of a fault differs.
class RunState (σ : Type) where
  running : σ
  halted : σ

@[default_instance]
instance : RunState Status := ⟨.running, .halted⟩

-- A machine for words of type `t`.
structure Machine (t : WordType) (σ : Type := Status) where
  registers : Registers t
  flags : Flags
  stack : Stack t
  memory : Memory
  program : Array UInt8
  pc : Int64
  -- Instructions completed since the program was loaded.
  steps : UInt64
  status : σ
  -- The most instructions a run may complete; zero for no limit.
  maxSteps : UInt64
  verbose : Bool
deriving DecidableEq

-- What is written down when a machine is verbose.
inductive Event (t : WordType) where
  | loaded (size : Nat)
  | fetched (pc : Int64) (instruction : Instruction t)
  | finished (status : Status) (steps : UInt64)
deriving DecidableEq

def Event.text {t : WordType} : Event t → String
  | .loaded size => "vm: load " ++ Text.decimal size ++ " bytes"
  | .fetched pc i => Text.hex 4 pc.toInt ++ ": " ++ i.text
  | .finished status steps =>
    "vm: " ++ status.text ++ " after " ++ Text.decimal steps.toNat ++ " steps"

-- Why no machine can be made.
inductive BuildError where
  | registerCount (count : Int)
  -- No register file, stack or memory has the size asked for.
  | registers
  | stack
  | memory
  -- No word type has the name.
  | unknownWord
deriving DecidableEq

def BuildError.message : BuildError → String
  | .registerCount count => "vm: register count " ++ Text.decimal count ++ " out of range"
  | .registers | .memory => "runtime error: makeslice: len out of range"
  | .stack => "runtime error: makeslice: cap out of range"
  | .unknownWord => "runtime error: invalid memory address or nil pointer dereference"

-- The most bytes that a host can be asked for at once.
def hostLimit : Nat := Nat.pow 2 48

-- Whether there can be so many things of the given size.
def isPossible (count : Int) (size : Nat) : Bool := 0 ≤ count && count * size ≤ hostLimit

-- A register file of any size from zero on.
def Registers.make (t : WordType) (count : Int) : Except BuildError (Registers t) :=
  if isPossible count t.bytes then .ok (Registers.zeros t count.toNat) else .error .registers

def Stack.make (t : WordType) (capacity : Int) : Except BuildError (Stack t) :=
  if isPossible capacity t.bytes then .ok (Stack.empty t capacity.toNat) else .error .stack

def Memory.make (size : Int) : Except BuildError Memory :=
  if isPossible size 1 then .ok (Memory.zeros size.toNat) else .error .memory

namespace Machine

variable {t : WordType}

-- The number of registers unless something else is asked for.
def defaultRegisters : Int := 4

-- A machine without a program. It counts as halted until one is loaded.
def make (t : WordType) (registers stack memory : Int) (maxSteps : UInt64) (verbose : Bool)
    (σ : Type := Status) [RunState σ] : Except BuildError (Machine t σ) := do
  if registers < 1 ∨ (Registers.limit : Int) < registers then
    throw (.registerCount registers)
  let registers ← Registers.make t registers
  let stack ← Stack.make t stack
  let memory ← Memory.make memory
  return {
    registers, stack, memory, maxSteps, verbose
    flags := .clear
    program := #[]
    pc := 0
    steps := 0
    status := RunState.halted }

-- Starts over with a program: everything but the sizes, the step limit and verbosity is reset.
def load {σ : Type} [RunState σ] (m : Machine t σ) (program : Array UInt8) : Machine t σ where
  registers := m.registers.reset
  flags := .clear
  stack := m.stack.reset
  memory := m.memory.reset
  program := program
  pc := 0
  steps := 0
  status := RunState.running
  maxSteps := m.maxSteps
  verbose := m.verbose

-- A row of the state dump.
def row (name value : String) : String := Text.alignRight 5 name ++ ": " ++ value ++ "\n"

-- The rows of the registers, the first of which has number `n`.
def registerRows (n : Nat) : List (Word t) → String
  | [] => ""
  | w :: rest => row ("r" ++ Text.decimal n) (Text.decimal w.value) ++ registerRows (n + 1) rest

-- The state as lines of text. Memory is left out.
def dump (m : Machine t) : String :=
  row "pc" (Text.hex 4 m.pc.toInt) ++ row "state" m.status.text ++
    row "steps" (Text.decimal m.steps.toNat) ++ row "flags" m.flags.text ++
    registerRows 0 m.registers.values.toList ++
    row "stack" ("[" ++ String.intercalate " " (m.stack.words.toList.map (Text.decimal ·.value)) ++
      "] " ++ Text.decimal m.stack.words.size ++ "/" ++ Text.decimal m.stack.capacity)

end Machine

end RegisterMachine
