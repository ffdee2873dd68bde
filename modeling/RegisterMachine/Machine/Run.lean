import RegisterMachine.Machine.Execute

namespace RegisterMachine

-- How a tick or a run ended: the machine, why it would not go on if it did not, and what was
-- written down on the way.
structure Outcome (t : WordType) where
  machine : Machine t
  stop : Option Stop
  log : List (Event t)
deriving DecidableEq

namespace Machine

variable {t : WordType}

-- Whether the step limit leaves no further instruction.
def limitReached {σ : Type} (m : Machine t σ) : Bool := 0 < m.maxSteps && m.maxSteps ≤ m.steps

-- The opcode byte about to be fetched, zero if there is none.
def nextCode {σ : Type} (m : Machine t σ) : UInt8 :=
  if m.pc < 0 then 0 else m.program[m.pc.toInt.toNat]?.getD 0

-- What a verbose machine writes down.
def say (m : Machine t) (event : Event t) : List (Event t) := if m.verbose then [event] else []

-- The machine failed at the instruction at `offset`.
def fail (m : Machine t) (offset : Int64) (code : UInt8) (cause : Cause) (log : List (Event t)) :
    Outcome t :=
  let fault : Fault := ⟨offset, code, m.steps, cause⟩
  ⟨{ m with status := .failed fault }, some (.fault fault), log⟩

-- Fetches, decodes and executes one instruction. A machine that does not run only says why.
def tick (m : Machine t) : Outcome t :=
  match m.status with
  | .halted => ⟨m, some .halted, []⟩
  | .failed fault => ⟨m, some (.fault fault), []⟩
  | .running =>
    if m.limitReached then m.fail m.pc 0 .stepLimit []
    else match Instruction.decode t m.program m.pc.toInt with
      | .error cause => m.fail m.pc m.nextCode cause []
      | .ok (i, size) =>
        let pc := m.pc
        let log := m.say (.fetched pc i)
        match execute i (pc + Int64.ofNat size) m with
        | .error cause m => m.fail pc i.code cause log
        | .ok () m => ⟨{ m with steps := m.steps + 1 }, none, log⟩

-- Ticks a running machine until it stops, at most `fuel` times; `none` if that is too few.
def runOn (fuel : Nat) (m : Machine t) (log : Array (Event t)) : Option (Outcome t) :=
  match m.status with
  | .running =>
    match fuel with
    | 0 => none
    | fuel + 1 =>
      let result := m.tick
      let log := log ++ result.log
      match result.stop with
      | none => runOn fuel result.machine log
      | some stop => some ⟨result.machine, some stop, log.toList⟩
  | _ => some ⟨m, none, log.toList⟩

-- Loads a program and runs it to its end, which takes at most `fuel` ticks.
def run (fuel : Nat) (m : Machine t) (program : Array UInt8) : Option (Outcome t) := do
  let result ← runOn fuel (m.load program) (m.say (.loaded program.size)).toArray
  let log := result.log ++ result.machine.say (.finished result.machine.status result.machine.steps)
  return { result with log }

end Machine

end RegisterMachine
