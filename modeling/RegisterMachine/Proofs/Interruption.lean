import RegisterMachine.Emulator
import RegisterMachine.Proofs.WholeRun

namespace RegisterMachine

variable {t : WordType}

-- Two machines that a program cannot tell apart once it is loaded: the sizes and the step limit
-- agree.
structure Machine.Alike (a b : Machine t) : Prop where
  registers : a.registers.values.size = b.registers.values.size
  capacity : a.stack.capacity = b.stack.capacity
  memory : a.memory.size = b.memory.size
  maxSteps : a.maxSteps = b.maxSteps

theorem Machine.Alike.load_eq {a b : Machine t} (h : a.Alike b) (program : Array UInt8) :
    a.load program = (b.load program).speaking a.verbose := by
  simp only [Machine.load, Machine.speaking, Registers.reset, Stack.reset, Memory.reset,
    h.registers, h.capacity, h.memory, h.maxSteps]

-- All that is in a machine of possible sizes before anything is done to it.
theorem Machine.make_eq {registers stack memory : Int} {maxSteps : UInt64} {verbose : Bool}
    {m : Machine t} (h : Machine.make t registers stack memory maxSteps verbose = .ok m) :
    m = ⟨.zeros t registers.toNat, .clear, .empty t stack.toNat, .zeros memory.toNat, #[], 0, 0,
      .halted, maxSteps, verbose⟩ := by
  simp only [Machine.make, Registers.make, Stack.make, Memory.make, bind, Except.bind, pure,
    Except.pure] at h
  split_ifs at h
  cases h
  rfl

-- A machine that was made has the sizes and the limit that it was asked to have.
theorem Machine.make_sizes {registers stack memory : Int} {maxSteps : UInt64} {verbose : Bool}
    {m : Machine t} (h : Machine.make t registers stack memory maxSteps verbose = .ok m) :
    m.registers.values.size = registers.toNat ∧ m.stack.capacity = stack.toNat ∧
      m.memory.size = memory.toNat ∧ m.maxSteps = maxSteps := by
  rw [make_eq h]
  simp [Registers.zeros, Stack.empty, Memory.zeros, Memory.size]

-- What a run of an image answers whose machine ends like this.
def Status.trouble? (name : Octets) : Status → Option RuntimeError
  | .failed fault => some ⟨name, .fault fault⟩
  | .running | .halted => none

namespace Emulator

-- An emulator's machine is like any that is made from the same configuration.
theorem alike_of_make {config : Config} {e : Emulator t} {m : Machine t} {verbose : Bool}
    (he : Emulator.make t config = .ok e)
    (hm : Machine.make t config.registers config.stackCapacity config.memorySize config.maxSteps
      verbose = .ok m) : m.Alike e.machine := by
  rw [Emulator.make] at he
  cases hmachine : Machine.make t config.registers config.stackCapacity config.memorySize
      config.maxSteps false with
  | error error =>
    rw [hmachine] at he
    cases he
  | ok machine =>
    rw [hmachine] at he
    cases he
    obtain ⟨hregisters, hcapacity, hmemory, hmaxSteps⟩ := Machine.make_sizes hmachine
    obtain ⟨hregisters', hcapacity', hmemory', hmaxSteps'⟩ := Machine.make_sizes hm
    exact ⟨hregisters'.trans hregisters.symm, hcapacity'.trans hcapacity.symm,
      hmemory'.trans hmemory.symm, hmaxSteps'.trans hmaxSteps.symm⟩

-- The machine is as verbose as the emulator, so that a tick of the emulator is one of the machine.
def InStep (e : Emulator t) : Prop := e.machine.verbose = e.verbose

-- The emulator whose machine has made so many ticks.
def after (e : Emulator t) (n : Nat) : Emulator t := { e with machine := e.machine.after n }

theorem tick_machine_verbose (m : Machine t) : m.tick.machine.verbose = m.verbose := by
  have h := (Machine.tick_speaking m m.verbose).1
  rw [Machine.speaking_self] at h
  rw [h]
  rfl

theorem InStep.after {e : Emulator t} (h : e.InStep) (n : Nat) : (e.after n).InStep := by
  induction n generalizing e with
  | zero => exact h
  | succ n ih =>
    have hone : (e.after 1).InStep := (tick_machine_verbose e.machine).trans h
    exact ih hone

theorem tick_eq {e : Emulator t} (h : e.InStep) :
    e.tick =
      match e.machine.tick.stop with
      | some .halted => (true, ⟨e.after 1, none, e.machine.tick.log.map .machine⟩)
      | some (.fault fault) =>
        (false, ⟨e.after 1, some ⟨e.name, .fault fault⟩, e.machine.tick.log.map .machine⟩)
      | none =>
        ((e.after 1).machine.status != .running,
          ⟨e.after 1, none, e.machine.tick.log.map .machine⟩) := by
  obtain ⟨m, config, name, image, verbose⟩ := e
  obtain rfl : m.verbose = verbose := h
  simp only [tick]
  cases m.tick.stop with
  | none => rfl
  | some stop => cases stop <;> rfl

-- One tick of the emulator: there is nothing more to do if the machine has stopped, and the answer
-- is told by its run state. A stopped machine answers once more.
theorem tick_spec {e : Emulator t} (h : e.InStep) :
    ∃ done said,
      e.tick = (done, ⟨e.after 1, (e.after 1).machine.status.trouble? e.name, said⟩) ∧
      (done = true ↔ (e.after 1).machine.status = .halted) := by
  rw [tick_eq h]
  have hafter : (e.after 1).machine = e.machine.tick.machine := rfl
  cases hstatus : e.machine.status with
  | halted =>
    have hstopped : (e.after 1).machine.status = .halted := by
      rw [hafter, Machine.tick_halted hstatus, hstatus]
    simp [Machine.tick_halted hstatus, hstopped, Status.trouble?]
  | failed fault =>
    have hstopped : (e.after 1).machine.status = .failed fault := by
      rw [hafter, Machine.tick_failed hstatus, hstatus]
    simp [Machine.tick_failed hstatus, hstopped, Status.trouble?]
  | running =>
    have hstop := Machine.tick_stop_of_running hstatus
    rw [← hafter] at hstop
    cases hnext : (e.after 1).machine.status with
    | running | halted | failed fault =>
      rw [hnext, Status.failure?] at hstop
      simp [hstop, Status.trouble?]

theorem after_add (e : Emulator t) (a b : Nat) : (e.after a).after b = e.after (a + b) := by
  rw [after, after, after, Machine.after_add]

theorem after_of_stopped {e : Emulator t} (h : e.machine.status ≠ .running) (n : Nat) :
    e.after n = e := by
  rw [after, Machine.after_of_stopped h]

-- The counter of the ticks wraps around, but the interval divides the number of its values.
theorem ofNat_mod_checkInterval (i : Nat) :
    Int64.ofNat i % checkInterval = 0 ↔ i % 1024 = 0 := by
  have hinterval : checkInterval.toInt = 1024 := by decide
  have hdvd : (1024 : Int) ∣ (i : Int).bmod Int64.size ↔ (1024 : Int) ∣ i := by
    have hsize : ((Int64.size : Nat) : Int) = 2 ^ 64 := rfl
    rw [Int.bmod_def, hsize]
    split_ifs <;> omega
  rw [← Int64.toInt_inj, Int64.toInt_mod, hinterval, Int64.toInt_zero,
    ← Int.dvd_iff_tmod_eq_zero, Int64.toInt_ofNat', hdvd]
  omega

-- How many more ticks a host lets pass when `i` have been made, if it ever ends the run.
def ticksLeft (i : Nat) (grants : Option Nat) : Option Nat :=
  grants.map fun count => 1024 * count + (1024 - i % 1024) % 1024

-- What the host is asked and answers in front of a tick.
def question (i : Nat) (grants : Option Nat) : Option Trouble × Option Nat :=
  if Int64.ofNat i % checkInterval = 0 then ask grants else (none, grants)

-- The host ends the run exactly when no tick is left. Otherwise the tick that follows is one of
-- those that were left.
theorem question_cases (i : Nat) (grants : Option Nat) :
    ∃ grants',
      (question i grants = (some .canceled, grants') ∧ ticksLeft i grants = some 0) ∨
        (question i grants = (none, grants') ∧
          ticksLeft i grants = (ticksLeft (i + 1) grants').map (· + 1)) := by
  unfold question ticksLeft
  by_cases hasked : i % 1024 = 0
  · rw [if_pos ((ofNat_mod_checkInterval i).mpr hasked)]
    match grants with
    | none => exact ⟨none, .inr ⟨rfl, rfl⟩⟩
    | some 0 =>
      refine ⟨some 0, .inl ⟨rfl, ?_⟩⟩
      simp [hasked]
    | some (count + 1) =>
      refine ⟨some count, .inr ⟨rfl, ?_⟩⟩
      simp only [Option.map_some, Option.some.injEq]
      omega
  · rw [if_neg fun h => hasked ((ofNat_mod_checkInterval i).mp h)]
    refine ⟨grants, .inr ⟨rfl, ?_⟩⟩
    cases grants with
    | none => rfl
    | some count =>
      simp only [Option.map_some, Option.some.injEq]
      omega

-- How many ticks are made of those that are left, if there is fuel for so many.
def ticksMade (fuel : Nat) : Option Nat → Nat
  | none => fuel
  | some left => min fuel left

-- What a run comes to: the machine has made its ticks and has stopped, or the host has ended the
-- run, or there was too little fuel. A stopped machine is only noticed by a tick.
def runResult (fuel : Nat) (left : Option Nat) (e : Emulator t) (log : List (Event t)) :
    Option (Outcome t) :=
  let e' := e.after (ticksMade fuel left)
  if 0 < ticksMade fuel left ∧ e'.machine.status ≠ .running then
    some ⟨e', e'.machine.status.trouble? e.name, log⟩
  else if left.any (· < fuel) then some ⟨e', some ⟨e.name, .canceled⟩, log⟩
  else none

theorem ticksMade_succ (fuel : Nat) (left : Option Nat) :
    ticksMade (fuel + 1) (left.map (· + 1)) = 1 + ticksMade fuel left := by
  cases left <;> simp only [ticksMade, Option.map_none, Option.map_some] <;> omega

theorem runResult_succ_of_stopped {e : Emulator t} (h : (e.after 1).machine.status ≠ .running)
    (fuel : Nat) (left : Option Nat) (log : List (Event t)) :
    runResult (fuel + 1) (left.map (· + 1)) e log =
      some ⟨e.after 1, (e.after 1).machine.status.trouble? e.name, log⟩ := by
  have hend : e.after (1 + ticksMade fuel left) = e.after 1 := by
    rw [← after_add, after_of_stopped h]
  rw [runResult, ticksMade_succ, hend, if_pos ⟨by omega, h⟩]

theorem runResult_succ_of_running {e : Emulator t} (h : (e.after 1).machine.status = .running)
    (fuel : Nat) (left : Option Nat) (log : List (Event t)) :
    runResult (fuel + 1) (left.map (· + 1)) e log = runResult fuel left (e.after 1) log := by
  have hleft : (left.map (· + 1)).any (· < fuel + 1) = left.any (· < fuel) := by
    cases left <;> simp
  have hname : (e.after 1).name = e.name := rfl
  rw [runResult, runResult, ticksMade_succ, hleft, ← after_add, hname]
  -- with no tick left the machine runs, so that there is nothing to report yet
  by_cases hzero : ticksMade fuel left = 0
  · have hrunning : ((e.after 1).after (ticksMade fuel left)).machine.status = .running := by
      rw [hzero]
      exact h
    simp [hrunning]
  · have hpos : 0 < 1 + ticksMade fuel left ∧ 0 < ticksMade fuel left := by omega
    simp only [hpos, true_and]

section Rounds

variable {fuel i : Nat} {grants grants' : Option Nat} {e e' : Emulator t} {done : Bool}
  {log : Array (Event t)} {said : List (Event t)}

theorem rounds_done (fuel : Nat) (n : Int64) (grants : Option Nat) (e : Emulator t)
    (log : Array (Event t)) : rounds fuel n true grants e log = some ⟨e, none, log.toList⟩ := by
  cases fuel <;> rfl

theorem rounds_of_refused {trouble : Trouble} (h : question i grants = (some trouble, grants')) :
    rounds (fuel + 1) (.ofNat i) false grants e log =
      some ⟨e, some ⟨e.name, trouble⟩, log.toList⟩ := by
  rw [question] at h
  simp only [rounds, Bool.false_eq_true, if_false, h]

theorem rounds_of_error {error : RuntimeError} (h : question i grants = (none, grants'))
    (htick : e.tick = (done, ⟨e', some error, said⟩)) :
    rounds (fuel + 1) (.ofNat i) false grants e log =
      some ⟨e', some error, (log ++ said).toList⟩ := by
  rw [question] at h
  simp only [rounds, Bool.false_eq_true, if_false, h, htick]

theorem rounds_of_tick (h : question i grants = (none, grants'))
    (htick : e.tick = (done, ⟨e', none, said⟩)) :
    rounds (fuel + 1) (.ofNat i) false grants e log =
      rounds fuel (.ofNat (i + 1)) done grants' e' (log ++ said) := by
  rw [question] at h
  have hnext : Int64.ofNat i + 1 = Int64.ofNat (i + 1) := (Int64.ofNat_add i 1).symm
  simp only [rounds, Bool.false_eq_true, if_false, h, htick, hnext]

end Rounds

-- The rounds of a run from any tick on, by induction on the fuel. What they come to depends only on
-- the ticks that the host leaves.
theorem rounds_spec (fuel i : Nat) (grants : Option Nat) {e : Emulator t} (log : Array (Event t))
    (h : e.InStep) :
    ∃ log', rounds fuel (.ofNat i) false grants e log =
      runResult fuel (ticksLeft i grants) e log' := by
  induction fuel generalizing i grants e log with
  | zero =>
    refine ⟨[], ?_⟩
    have hmade : ticksMade 0 (ticksLeft i grants) = 0 := by
      cases ticksLeft i grants <;> simp [ticksMade]
    simp [rounds, runResult, hmade]
  | succ fuel ih =>
    obtain ⟨grants', ⟨hasked, hleft⟩ | ⟨hasked, hleft⟩⟩ := question_cases i grants
    · refine ⟨log.toList, ?_⟩
      rw [rounds_of_refused hasked, hleft]
      simp [runResult, ticksMade, after]
    · obtain ⟨done, said, htick, hdone⟩ := tick_spec h
      rw [hleft]
      cases hstatus : (e.after 1).machine.status with
      | running =>
        have hgoing : done = false := by simpa [hstatus] using hdone
        rw [hstatus, hgoing] at htick
        obtain ⟨log', hrest⟩ := ih (i + 1) grants' (log ++ said) (h.after 1)
        refine ⟨log', ?_⟩
        rw [rounds_of_tick hasked htick, hrest, runResult_succ_of_running hstatus]
      | halted =>
        have hover : done = true := hdone.mpr hstatus
        rw [hstatus, hover] at htick
        refine ⟨(log ++ said).toList, ?_⟩
        rw [rounds_of_tick hasked htick, rounds_done,
          runResult_succ_of_stopped (by simp [hstatus]), hstatus]
        rfl
      | failed fault =>
        rw [hstatus] at htick
        refine ⟨(log ++ said).toList, ?_⟩
        rw [rounds_of_error hasked htick, runResult_succ_of_stopped (by simp [hstatus]), hstatus]
        rfl

theorem run_eq_runResult (fuel : Nat) (grants : Option Nat) {e : Emulator t} (h : e.InStep) :
    ∃ log, e.run fuel grants = runResult fuel (grants.map (1024 * ·)) e log := by
  obtain ⟨log, hrounds⟩ := rounds_spec fuel 0 grants #[] h
  have hleft : ticksLeft 0 grants = grants.map (1024 * ·) := by
    simp [ticksLeft]
  have hrun : e.run fuel grants = (runResult fuel (grants.map (1024 * ·)) e log).bind _ :=
    congrArg (Option.bind · _) (hleft ▸ hrounds)
  rw [hrun]
  cases hresult : runResult fuel (grants.map (1024 * ·)) e log with
  | none =>
    refine ⟨log, ?_⟩
    rw [hresult]
    rfl
  | some result =>
    simp only [runResult] at hresult ⊢
    split_ifs at hresult ⊢ <;> cases hresult <;> exact ⟨_, rfl⟩

-- What a run answers that the host ends after so many intervals: it was canceled unless the machine
-- has stopped and a tick has told so.
def grantedError (name : Octets) (count : Nat) (status : Status) : Option RuntimeError :=
  if 0 < count ∧ status ≠ .running then status.trouble? name else some ⟨name, .canceled⟩

theorem grantedError_eq_canceled_iff (name : Octets) (count : Nat) (status : Status) :
    grantedError name count status = some ⟨name, .canceled⟩ ↔ count = 0 ∨ status = .running := by
  rw [grantedError]
  by_cases hdone : 0 < count ∧ status ≠ .running
  · rw [if_pos hdone]
    constructor
    · intro htrouble
      cases status <;> simp [Status.trouble?] at htrouble
    · rintro (hzero | hrunning)
      · omega
      · exact absurd hrunning hdone.2
  · rw [if_neg hdone]
    refine ⟨fun _ => ?_, fun _ => rfl⟩
    by_cases hzero : count = 0
    · exact .inl hzero
    · exact .inr (by_contra fun hstopped => hdone ⟨Nat.pos_of_ne_zero hzero, hstopped⟩)

theorem run_granted {fuel count : Nat} (hfuel : 1024 * count < fuel) {e : Emulator t}
    (h : e.InStep) :
    ∃ log, e.run fuel (some count) = some
      ⟨e.after (1024 * count),
        grantedError e.name count (e.after (1024 * count)).machine.status, log⟩ := by
  obtain ⟨log, hrun⟩ := run_eq_runResult fuel (some count) h
  have hmade : ticksMade fuel (some (1024 * count)) = 1024 * count := Nat.min_eq_right hfuel.le
  have hpos : 0 < 1024 * count ↔ 0 < count := by omega
  refine ⟨log, hrun.trans ?_⟩
  rw [Option.map_some, runResult, hmade, grantedError]
  simp only [hpos, Option.any_some, hfuel, decide_true, if_true]
  split_ifs <;> rfl

-- A run that the host never ends answers if and only if the machine stops within so many ticks, at
-- least one of which is made.
theorem run_endless (fuel : Nat) {e : Emulator t} (h : e.InStep) :
    ∃ log, e.run fuel none =
      if 0 < fuel ∧ (e.after fuel).machine.status ≠ .running then
        some ⟨e.after fuel, (e.after fuel).machine.status.trouble? e.name, log⟩
      else none := run_eq_runResult fuel none h

-- The emulator after runs one after the other, each of which the host ends after its own number of
-- intervals.
def interrupted (fuel : Nat) : List Nat → Emulator t → Option (Emulator t)
  | [], e => some e
  | count :: rest, e => do
    let result ← e.run fuel (some count)
    interrupted fuel rest result.emulator

theorem interrupted_eq {fuel : Nat} {grants : List Nat}
    (hfuel : ∀ count ∈ grants, 1024 * count < fuel) {e : Emulator t} (h : e.InStep) :
    interrupted fuel grants e = some (e.after (1024 * grants.sum)) := by
  induction grants generalizing e with
  | nil => rfl
  | cons count rest ih =>
    obtain ⟨log, hrun⟩ := run_granted (hfuel count List.mem_cons_self) h
    rw [interrupted, hrun]
    change interrupted fuel rest (e.after (1024 * count)) = _
    rw [ih (fun other hother => hfuel other (List.mem_cons_of_mem count hother)) (h.after _),
      after_add, List.sum_cons, Nat.mul_add]

-- A loaded emulator is in step, and its machine is at the start of the image.
theorem load_inStep (e : Emulator t) (image : Array UInt8) :
    (e.load (.ok image)).emulator.InStep := rfl

theorem load_machine {e : Emulator t} {m : Machine t} (h : m.Alike e.machine)
    (image : Array UInt8) :
    (e.load (.ok image)).emulator.machine = (m.load image).speaking e.verbose := by
  rw [h.load_eq image]
  rfl

-- What one run that the host ends does to an emulator.
theorem run_granted_cases {fuel count : Nat} (hfuel : 1024 * count < fuel) {e : Emulator t}
    (h : e.InStep) :
    ∃ result, e.run fuel (some count) = some result ∧
      (result.error = some ⟨e.name, .canceled⟩ ↔
        count = 0 ∨ (e.machine.after (1024 * count)).status = .running) ∧
      (result.error = some ⟨e.name, .canceled⟩ →
        (∀ j < 1024 * count, (e.machine.after j).tick.stop = none) ∧
        result.emulator = { e with machine := e.machine.after (1024 * count) }) ∧
      (0 < count → e.machine.status = .halted → result.emulator = e ∧ result.error = none) ∧
      (0 < count → ∀ fault, e.machine.status = .failed fault →
        result.emulator = e ∧ result.error = some ⟨e.name, .fault fault⟩) := by
  obtain ⟨log, hrun⟩ := run_granted hfuel h
  have hcanceled := grantedError_eq_canceled_iff e.name count
    (e.after (1024 * count)).machine.status
  refine ⟨_, hrun, hcanceled, ?_, ?_, ?_⟩
  · intro hc
    refine ⟨?_, rfl⟩
    intro j hj
    obtain rfl | hrunning := hcanceled.mp hc
    · omega
    · exact Machine.tick_stop_of_after_running hrunning hj
  · intro hcount hhalted
    have hstay := after_of_stopped (e := e) (by simp [hhalted]) (1024 * count)
    simp [hstay, hcount, hhalted, grantedError, Status.trouble?]
  · intro hcount fault hfailed
    have hstay := after_of_stopped (e := e) (by simp [hfailed]) (1024 * count)
    simp [hstay, hcount, hfailed, grantedError, Status.trouble?]

-- However many ticks a loaded emulator has made, the run that goes to the end comes to where the
-- machine's own run ends.
theorem run_endless_of_run {e : Emulator t} {m : Machine t} {image : Array UInt8}
    (halike : m.Alike e.machine) (made : Nat) {ticks : Nat} {finished : RegisterMachine.Outcome t}
    (hfinished : m.run ticks image = some finished) :
    let e' := (e.load (.ok image)).emulator.after made
    (∃ bound, ∀ fuel ≥ bound, (e'.run fuel none).isSome) ∧
      ∀ fuel result, e'.run fuel none = some result →
        result.emulator.machine = { finished.machine with verbose := e.verbose } ∧
        result.error = finished.machine.status.trouble? e.name := by
  intro e'
  obtain ⟨hstopped, hmachine, -⟩ := Machine.run_spec hfinished
  have hstep : e'.InStep := (load_inStep e image).after made
  have hafter (n : Nat) : (e'.after n).machine =
      ((m.load image).after (made + n)).speaking e.verbose := by
    rw [after_add, after, load_machine halike, Machine.after_speaking]
  constructor
  · refine ⟨ticks + 1, fun fuel hfuel => ?_⟩
    obtain ⟨log, hrun⟩ := run_endless fuel hstep
    have hend : (e'.after fuel).machine.status ≠ .running := by
      rw [hafter, Machine.speaking_status,
        Machine.after_eq_of_stopped hstopped (by omega : ticks ≤ made + fuel)]
      exact hstopped
    rw [hrun, if_pos ⟨by omega, hend⟩, Option.isSome_some]
  · intro fuel result hresult
    obtain ⟨log, hrun⟩ := run_endless fuel hstep
    rw [hrun] at hresult
    split_ifs at hresult with hdone
    cases hresult
    -- both runs have stopped, so the longer one has gone on with the machine of the shorter one
    have hsame : (m.load image).after (made + fuel) = finished.machine := by
      rw [hmachine]
      have hdone' : ((m.load image).after (made + fuel)).status ≠ .running := by
        rw [← Machine.speaking_status _ e.verbose, ← hafter]
        exact hdone.2
      obtain hle | hle := Nat.le_total ticks (made + fuel)
      · exact Machine.after_eq_of_stopped hstopped hle
      · exact (Machine.after_eq_of_stopped hdone' hle).symm
    have hend : (e'.after fuel).machine = finished.machine.speaking e.verbose := by
      rw [hafter, hsame]
    exact ⟨hend, by rw [hend]; rfl⟩

-- Interruptions are transparent: whatever runs the host has cut short, each has only made ticks of
-- the machine, and the run that goes to the end comes to the end of the uninterrupted run.
theorem interruption_transparent (e : Emulator t) (m : Machine t) (image : Array UInt8)
    (grants : List Nat) (fuel : Nat) (halike : m.Alike e.machine)
    (hfuel : ∀ count ∈ grants, 1024 * count < fuel) :
    ∃ e', interrupted fuel grants (e.load (.ok image)).emulator = some e' ∧
      (∀ count, 1024 * count < fuel → ∃ result, e'.run fuel (some count) = some result ∧
        (result.error = some ⟨e.name, .canceled⟩ ↔
          count = 0 ∨ (e'.machine.after (1024 * count)).status = .running) ∧
        (result.error = some ⟨e.name, .canceled⟩ →
          (∀ j < 1024 * count, (e'.machine.after j).tick.stop = none) ∧
          result.emulator = { e' with machine := e'.machine.after (1024 * count) }) ∧
        (0 < count → e'.machine.status = .halted → result.emulator = e' ∧ result.error = none) ∧
        (0 < count → ∀ fault, e'.machine.status = .failed fault →
          result.emulator = e' ∧ result.error = some ⟨e.name, .fault fault⟩)) ∧
      (∀ ticks finished, m.run ticks image = some finished →
        (∃ bound, ∀ fuel' ≥ bound, (e'.run fuel' none).isSome) ∧
        ∀ fuel' result, e'.run fuel' none = some result →
          result.emulator.machine = { finished.machine with verbose := e.verbose } ∧
          ((finished.stop = none ∧ result.error = none) ∨
            ∃ fault, finished.stop = some (.fault fault) ∧
              result.error = some ⟨e.name, .fault fault⟩)) := by
  have hstep := load_inStep e image
  refine ⟨_, interrupted_eq hfuel hstep, ?_, ?_⟩
  · intro count hcount
    exact run_granted_cases hcount (hstep.after _)
  · intro ticks finished hfinished
    obtain ⟨hbound, hend⟩ := run_endless_of_run halike (1024 * grants.sum) hfinished
    refine ⟨hbound, ?_⟩
    intro fuel' result hresult
    obtain ⟨hmachine, herror⟩ := hend fuel' result hresult
    refine ⟨hmachine, ?_⟩
    obtain ⟨hstopped, hfinal, hstop⟩ := Machine.run_spec hfinished
    rw [← hfinal] at hstopped hstop
    cases hstatus : finished.machine.status with
    | running => exact absurd hstatus hstopped
    | halted =>
      rw [hstatus] at hstop herror
      exact .inl ⟨hstop, herror⟩
    | failed fault =>
      rw [hstatus] at hstop herror
      exact .inr ⟨fault, hstop, herror⟩

-- Three registers of one byte. The word type is named by the bytes of `i8`.
def small : Config where
  word := [0x69, 0x38]
  registers := 3
  stackCapacity := 2
  memorySize := 4
  maxSteps := 0
  verbose := true

-- Counts a register up and divides by one that holds zero, in the second of three runs.
theorem interruption_transparent_small :
    ∃ (e : Emulator ⟨.one, true⟩) (m : Machine ⟨.one, true⟩),
      Emulator.make ⟨.one, true⟩ small = .ok e ∧
      Machine.make ⟨.one, true⟩ 3 2 4 0 false = .ok m ∧ m.Alike e.machine ∧
      ∃ e', interrupted 2000 [0, 1, 0]
          (e.load (.ok #[0x0e, 0, 0x0c, 1, 0, 2])).emulator = some e' ∧
        ∃ fuel result, e'.run fuel none = some result ∧
          result.error = some ⟨e.name, .fault ⟨2, 0x0c, 1, .divisionByZero⟩⟩ := by
  have he : Emulator.make ⟨.one, true⟩ small = .ok _ := rfl
  have hm : Machine.make ⟨.one, true⟩ 3 2 4 0 false = .ok _ := rfl
  have halike := alike_of_make he hm
  refine ⟨_, _, he, hm, halike, ?_⟩
  obtain ⟨e', he', -, hlast⟩ := interruption_transparent _ _ #[0x0e, 0, 0x0c, 1, 0, 2] [0, 1, 0]
    2000 halike (by decide)
  refine ⟨e', he', ?_⟩
  obtain ⟨⟨bound, hbound⟩, hend⟩ := hlast 2 _ rfl
  obtain ⟨result, hresult⟩ := Option.isSome_iff_exists.mp (hbound bound (Nat.le_refl _))
  refine ⟨bound, result, hresult, ?_⟩
  obtain ⟨-, ⟨hstop, -⟩ | ⟨fault, hstop, herror⟩⟩ := hend bound result hresult
  · cases hstop
  · cases hstop
    exact herror

end Emulator

end RegisterMachine
