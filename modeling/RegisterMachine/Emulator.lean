import RegisterMachine.Config
import RegisterMachine.Snapshot
import RegisterMachine.Machine.Run

namespace RegisterMachine

-- A machine with the image it runs and the configuration it was built from.
structure Emulator (t : WordType) where
  machine : Machine t
  config : Config
  -- The name of the image, for messages.
  name : Octets
  image : Array UInt8
  -- The machine is made as verbose as the emulator whenever the emulator resets or ticks it.
  verbose : Bool
deriving DecidableEq

-- Why an image did not run to its end.
inductive Trouble where
  | fault (fault : Fault)
  -- The host asked for the run to end.
  | canceled
  -- The image could not be read.
  | unreadable (reason : Octets)
deriving DecidableEq

def Trouble.message : Trouble → Octets
  | .fault f => octets f.message
  | .canceled => octets "context canceled"
  | .unreadable reason => reason

-- Trouble with the image of the given name.
structure RuntimeError where
  image : Octets
  trouble : Trouble
deriving DecidableEq

def RuntimeError.message (e : RuntimeError) : Octets :=
  Text.say "%v: %v" [.text e.image, .text e.trouble.message]

namespace Emulator

variable {t : WordType}

-- What is written down when an emulator is verbose.
inductive Event (t : WordType) where
  | machine (event : RegisterMachine.Event t)
  | reset (image : Octets) (size : Nat)
  | finished (image : Octets) (status : Status) (steps : UInt64)
deriving DecidableEq

def Event.text : Event t → Octets
  | .machine event => octets event.text
  | .reset image size =>
    octets "emulator: reset " ++ image ++ octets (" (" ++ Text.decimal size ++ " bytes)")
  | .finished image status steps =>
    octets "emulator: " ++ image ++
      octets (" " ++ status.text ++ " after " ++ Text.decimal steps.toNat ++ " steps")

-- An event takes several lines if the name of the image has line ends in it.
def Event.lines (event : Event t) : List Octets := event.text.split 10

-- How something done with an emulator ended.
structure Outcome (t : WordType) where
  emulator : Emulator t
  error : Option RuntimeError
  log : List (Event t)
deriving DecidableEq

-- An emulator for a configuration, which is not validated first.
def make (t : WordType) (config : Config) : Except BuildError (Emulator t) := do
  let machine ← Machine.make t config.registers config.stackCapacity config.memorySize
    config.maxSteps false
  return { machine, config, name := octets "-", image := #[], verbose := config.verbose }

def say (e : Emulator t) (event : Event t) : List (Event t) := if e.verbose then [event] else []

-- Puts the machine at the start of the image.
def reset (e : Emulator t) : Emulator t × List (Event t) :=
  let machine := { e.machine with verbose := e.verbose }
  ({ e with machine := machine.load e.image },
    e.say (.reset e.name e.image.size) ++
      (machine.say (.loaded e.image.size)).map .machine)

-- Takes a new image, unless it cannot be read.
def load (e : Emulator t) (source : Except Octets (Array UInt8)) : Outcome t :=
  match source with
  | .error reason => ⟨e, some ⟨e.name, .unreadable reason⟩, []⟩
  | .ok image =>
    let (e, log) := { e with image }.reset
    ⟨e, none, log⟩

-- Whether there is nothing more to do, and the outcome, after one tick of the machine. To halt is no
-- error.
def tick : Emulator t → Bool × Outcome t
  | ⟨machine, config, name, image, verbose⟩ =>
    let result := Machine.tick { machine with verbose }
    let e : Emulator t := ⟨result.machine, config, name, image, verbose⟩
    let log := result.log.map .machine
    match result.stop with
    | some .halted => (true, ⟨e, none, log⟩)
    | some (.fault fault) => (false, ⟨e, some ⟨name, .fault fault⟩, log⟩)
    | none => (e.machine.status != .running, ⟨e, none, log⟩)

-- How many ticks pass between two questions whether to go on.
def checkInterval : Int64 := 1024

-- A host is asked whether a run may go on. It agrees so many more times, or always. The answer is
-- what keeps the run from going on, if anything does.
def ask : (grants : Option Nat) → Option Trouble × Option Nat
  | none => (none, none)
  | some 0 => (some .canceled, some 0)
  | some (count + 1) => (none, some count)

-- Ticks until there is nothing more to do, something goes wrong or the host wants no more of it.
-- `n` is the number of the round; the host is asked in each round whose number the interval
-- divides, in front of the tick. There are at most `fuel` rounds; `none` if these are too few.
def rounds (fuel : Nat) (n : Int64) (done : Bool) (grants : Option Nat) (e : Emulator t)
    (log : Array (Event t)) : Option (Outcome t) :=
  if done then some ⟨e, none, log.toList⟩
  else
    match fuel with
    | 0 => none
    | fuel + 1 =>
      let (trouble, grants) := if n % checkInterval = 0 then ask grants else (none, grants)
      match trouble with
      | some trouble => some ⟨e, some ⟨e.name, trouble⟩, log.toList⟩
      | none =>
        let (done, result) := e.tick
        let log := log ++ result.log
        match result.error with
        | some error => some ⟨result.emulator, some error, log.toList⟩
        | none => rounds fuel (n + 1) done grants result.emulator log

-- Runs on until the program halts or fails, or the host ends the run. An interrupted machine can go
-- on later.
def run (fuel : Nat) (grants : Option Nat) (e : Emulator t) : Option (Outcome t) := do
  let result ← rounds fuel 0 false grants e #[]
  let machine := result.emulator.machine
  let last := result.emulator.say (.finished e.name machine.status machine.steps)
  return { result with log := result.log ++ last }

-- The state as lines of text.
def dump (e : Emulator t) : Octets :=
  octets " word: " ++ e.config.word ++ octets "\nimage: " ++ e.name ++
    octets ("\n" ++ e.machine.dump)

-- The state as it is kept in a file.
def snapshot (e : Emulator t) : Snapshot t where
  word := e.config.word
  image := e.name
  pc := e.machine.pc
  state := Int64.ofInt e.machine.status.code
  steps := e.machine.steps
  flags := e.machine.flags
  registers := e.machine.registers.values.toList
  stack := e.machine.stack.words.toList
  memory := e.machine.memory.bytes.toList
  fault :=
    match e.machine.status with
    | .failed fault => octets fault.message
    | _ => []

end Emulator

-- Where the snapshot of a finished run goes: nowhere, into a file, or into one that cannot be
-- written.
inductive Sink where
  | none
  | file
  | broken (reason : Octets)
deriving DecidableEq

-- What can be wrong when an image is run. Several things may be wrong at once.
inductive ImageError where
  | config (error : ConfigError)
  | runtime (error : RuntimeError)
  | unwritten (reason : Octets)
deriving DecidableEq

def ImageError.message : ImageError → Octets
  | .config e => e.message
  | .runtime e => e.message
  | .unwritten reason => reason

-- One line for each error.
def ImageError.messages (errors : List ImageError) : Octets :=
  Octets.join [10] (errors.map message)

-- All that a run of an image leaves behind.
structure Report where
  steps : UInt64
  errors : List ImageError
  -- The state dump.
  out : Octets
  -- The contents of the snapshot file.
  snapshot : Octets
  -- Line by line.
  log : List Octets
deriving DecidableEq

namespace Report

-- Nothing was run.
def refused (errors : List ImageError) : Report := ⟨0, errors, [], [], []⟩

-- The report on a finished run.
def ofOutcome {t : WordType} (sink : Sink) (log : List (Emulator.Event t))
    (result : Emulator.Outcome t) : Report where
  steps := result.emulator.machine.steps
  errors := (result.error.map ImageError.runtime).toList ++
    match sink with
    | .broken reason => [.unwritten reason]
    | _ => []
  out := result.emulator.dump
  snapshot :=
    match sink with
    | .file => result.emulator.snapshot.write
    | _ => []
  log := (log ++ result.log).flatMap (·.lines)

end Report

-- Builds the machine that a configuration describes and runs an image on it. `none` if the run takes
-- more than `fuel` ticks.
def runImage (fuel : Nat) (grants : Option Nat) (config : Config) (name : Octets)
    (source : Except Octets (Array UInt8)) (sink : Sink) : Except BuildError (Option Report) := do
  match config.validate with
  | [] =>
    match WordType.ofName? config.word with
    | none => throw .unknownWord
    | some t =>
      let e ← Emulator.make t config
      let loaded := { e with name }.load source
      match loaded.error with
      | some error => return some (.refused [.runtime error])
      | none => return (loaded.emulator.run fuel grants).map (Report.ofOutcome sink loaded.log)
  | errors => return some (.refused (errors.map .config))

end RegisterMachine
