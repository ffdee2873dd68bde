import RegisterMachine.Machine.Run

namespace RegisterMachine

-- The run state without the reason for it.
inductive Phase where
  | running
  | halted
  | failed
deriving DecidableEq

-- What a machine may store and answer as the reason for not going on. A fault wraps the reason that
-- it was made for, whatever this is.
inductive Reason where
  | halted
  | cause (cause : Cause)
  | fault (offset : Int64) (code : UInt8) (steps : UInt64) (reason : Reason)
deriving DecidableEq

-- Whether a reason is that the machine was halted, or wraps this.
def Reason.isHalted : Reason → Bool
  | .halted => true
  | .cause _ => false
  | .fault _ _ _ reason => reason.isHalted

-- The run state and the stored reason as fields of their own. Nothing but the machine's operations
-- sees to it that they go together.
structure Kept where
  phase : Phase
  reason : Option Reason
deriving DecidableEq

instance : RunState Kept where
  running := ⟨.running, none⟩
  halted := ⟨.halted, some .halted⟩

namespace Kept

variable {t : WordType}

-- One instruction: the machine after it, the opcode byte if it was fetched and what went wrong.
-- What a verbose machine writes down does not depend on the two fields and is left out.
def step (m : Machine t Kept) : Machine t Kept × UInt8 × Option Reason :=
  if m.limitReached then (m, 0, some (.cause .stepLimit))
  else
    let code := m.nextCode
    match Instruction.decode t m.program m.pc.toInt with
    | .error cause => (m, code, some (.cause cause))
    | .ok (i, size) =>
      match Machine.execute i (m.pc + Int64.ofNat size) m with
      | .error cause m => (m, code, some (.cause cause))
      | .ok () m => ({ m with steps := m.steps + 1 }, code, none)

-- A machine that does not run answers what it has stored. Whatever goes wrong in one that runs is
-- wrapped in a fault, which is stored and answered.
def tick (m : Machine t Kept) : Machine t Kept × Option Reason :=
  match m.status.phase with
  | .halted | .failed => (m, m.status.reason)
  | .running =>
    match step m with
    | (m', _, none) => (m', none)
    | (m', code, some reason) =>
      let fault := Reason.fault m.pc code m'.steps reason
      ({ m' with status := ⟨.failed, some fault⟩ }, some fault)

-- Ticks while the machine is in the running phase and nothing goes wrong, at most `fuel` times.
def runOn (fuel : Nat) (m : Machine t Kept) : Option (Machine t Kept × Option Reason) :=
  match m.status.phase with
  | .running =>
    match fuel with
    | 0 => none
    | fuel + 1 =>
      match tick m with
      | (m', none) => runOn fuel m'
      | (m', some reason) => some (m', some reason)
  | _ => some (m, none)

def run (fuel : Nat) (m : Machine t Kept) (program : Array UInt8) :
    Option (Machine t Kept × Option Reason) :=
  runOn fuel (m.load program)

end Kept

end RegisterMachine
