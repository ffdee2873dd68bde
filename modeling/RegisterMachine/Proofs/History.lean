import RegisterMachine.Proofs.Atomicity
import RegisterMachine.Proofs.Interruption
import RegisterMachine.Proofs.Resources
import RegisterMachine.Proofs.Sweep

namespace RegisterMachine

variable {t : WordType}

-- The sizes that a machine is made with.
structure Sizes where
  registers : Nat
  stack : Nat
  memory : Nat
deriving DecidableEq

-- What a machine of the given sizes can fail for, kind by kind.
def Cause.Possible (t : WordType) (sizes : Sizes) : Cause → Prop
  | .invalidOpcode code => Opcode.ofByte? code = none
  | .truncated code need left =>
    left < need ∧ (need = 1 ∨ ∃ op, Opcode.ofByte? code = some op ∧ need = op.size t.bytes)
  | .invalidRegister id => sizes.registers ≤ id.toNat
  | .outOfBounds address size => size = t.bytes ∧ sizes.memory < address.toNat + size
  | .stackOverflow => True
  | .stackUnderflow => True
  | .divisionByZero => True
  | .returnAddress => True
  | .stepLimit => True

namespace Flags

-- There is no result, or the flags are the sign class of a word.
def Shows (t : WordType) (flags : Flags) : Prop :=
  flags = .clear ∨ ∃ w : Word t, flags = .ofInt w.value

theorem Shows.count_le_one {flags : Flags} (h : flags.Shows t) :
    [flags.zero, flags.negative, flags.positive].count true ≤ 1 := by
  rcases h with rfl | ⟨w, rfl⟩
  · decide
  · rcases lt_trichotomy w.value 0 with hneg | hzero | hpos
    · simp [ofInt, hneg, hneg.ne, hneg.le]
    · simp [ofInt, hzero]
    · simp [ofInt, hpos, hpos.ne', hpos.le]

theorem Shows.negative_eq_false {flags : Flags} (h : flags.Shows t) (ht : t.signed = false) :
    flags.negative = false := by
  rcases h with rfl | ⟨w, rfl⟩
  · rfl
  · simp [ofInt, Word.value, ht]

end Flags

namespace Registers

@[simp]
theorem size_put (registers : Registers t) (id : UInt8) (value : Word t) :
    (registers.put id value).values.size = registers.values.size := by
  simp [put]

theorem size_write (registers : Registers t) (id : UInt8) (value : Word t) :
    ((registers.write id value).toOption.getD registers).values.size = registers.values.size := by
  unfold write check
  split_ifs
  · exact size_put _ _ _
  · rfl

@[simp]
theorem size_reset (registers : Registers t) :
    registers.reset.values.size = registers.values.size := by
  simp [reset, zeros]

end Registers

namespace Stack

-- There are no more words than there is room for.
def Fits (stack : Stack t) (capacity : Nat) : Prop :=
  stack.capacity = capacity ∧ stack.words.size ≤ capacity

theorem Fits.push {stack : Stack t} {capacity : Nat} (h : stack.Fits capacity) (value : Word t) :
    ((stack.push value).toOption.getD stack).Fits capacity := by
  obtain ⟨hcapacity, hsize⟩ := h
  unfold Stack.push checkRoom isFull
  by_cases hfull : stack.capacity ≤ stack.words.size
  · rw [decide_eq_true hfull]
    exact ⟨hcapacity, hsize⟩
  · rw [decide_eq_false hfull]
    refine ⟨hcapacity, ?_⟩
    show (stack.words.push value).size ≤ capacity
    rw [Array.size_push]
    omega

theorem Fits.pop {stack : Stack t} {capacity : Nat} (h : stack.Fits capacity) :
    ((stack.pop.map Prod.snd).toOption.getD stack).Fits capacity := by
  obtain ⟨hcapacity, hsize⟩ := h
  unfold Stack.pop
  cases stack.peek with
  | error cause => exact ⟨hcapacity, hsize⟩
  | ok value =>
    refine ⟨hcapacity, ?_⟩
    show stack.words.pop.size ≤ capacity
    rw [Array.size_pop]
    omega

end Stack

namespace Memory

@[simp]
theorem size_put (memory : Memory) (offset : Nat) (bytes : Octets) :
    (memory.put offset bytes).size = memory.size := by
  simp [put, size]

theorem size_write (memory : Memory) (address : UInt64) (bytes : Octets) :
    ((memory.write address bytes).toOption.getD memory).size = memory.size := by
  unfold write check
  split_ifs
  · exact size_put _ _ _
  · rfl

theorem size_writeAt (memory : Memory) (offset : Int64) (bytes : Octets) :
    ((memory.writeAt offset bytes).toOption.getD memory).size = memory.size := by
  unfold writeAt
  split_ifs
  · rfl
  · exact size_write _ _ _

@[simp]
theorem size_reset (memory : Memory) : memory.reset.size = memory.size := by
  simp [reset, zeros, size]

end Memory

namespace Machine

def sizes {σ : Type} (m : Machine t σ) : Sizes :=
  ⟨m.registers.values.size, m.stack.capacity, m.memory.size⟩

-- What can be done to a machine. Looking at one of its parts is left out, as it gives no machine
-- back.
inductive Operation (t : WordType) where
  | load (program : Array UInt8)
  | tick
  | run (fuel : Nat) (program : Array UInt8)
  | execute (i : Instruction t) (next : Int64)
  | writeRegister (id : UInt8) (value : Word t)
  | resetRegisters
  | push (value : Word t)
  | pop
  | resetStack
  | storeWord (address : UInt32) (value : Word t)
  | writeAt (offset : Int64) (bytes : Octets)
  | resetMemory
  | setMaxSteps (maxSteps : UInt64)
  | setVerbose (verbose : Bool)

namespace Operation

-- The machine after an operation, which a refused one leaves as it is; none if a run does not end
-- within its number of ticks.
def apply (m : Machine t) : Operation t → Option (Machine t)
  | .load program => some (m.load program)
  | .tick => some m.tick.machine
  | .run fuel program => (m.run fuel program).map (·.machine)
  | .execute i next =>
    match Machine.execute i next m with
    | .ok () m' => some m'
    | .error _ m' => some m'
  | .writeRegister id value =>
    some { m with registers := (m.registers.write id value).toOption.getD m.registers }
  | .resetRegisters => some { m with registers := m.registers.reset }
  | .push value => some { m with stack := (m.stack.push value).toOption.getD m.stack }
  | .pop => some { m with stack := (m.stack.pop.map Prod.snd).toOption.getD m.stack }
  | .resetStack => some { m with stack := m.stack.reset }
  | .storeWord address value =>
    some { m with memory := (m.memory.storeWord address value).toOption.getD m.memory }
  | .writeAt offset bytes =>
    some { m with memory := (m.memory.writeAt offset bytes).toOption.getD m.memory }
  | .resetMemory => some { m with memory := m.memory.reset }
  | .setMaxSteps maxSteps => some { m with maxSteps }
  | .setVerbose verbose => some { m with verbose }

-- The operations that put a machine at the start of a program.
def isStart : Operation t → Bool
  | .load _ | .run _ _ => true
  | _ => false

end Operation

-- The machines that come from one of the given sizes by any number of operations.
inductive Reachable (registers stack memory : Int) : Machine t → Prop where
  | make {maxSteps : UInt64} {verbose : Bool} {m : Machine t}
      (h : make t registers stack memory maxSteps verbose = .ok m) :
      Reachable registers stack memory m
  | apply {m m' : Machine t} (operation : Operation t) (hm : Reachable registers stack memory m)
      (h : operation.apply m = some m') : Reachable registers stack memory m'

-- What every operation keeps.
structure Invariant (sizes : Sizes) (m : Machine t) : Prop where
  registers : m.registers.values.size = sizes.registers
  stack : m.stack.Fits sizes.stack
  memory : m.memory.size = sizes.memory
  flags : m.flags.Shows t
  fault : ∀ fault, m.status = .failed fault → fault.cause.Possible t sizes

variable {sizes : Sizes} {m : Machine t}

theorem Invariant.sizes_eq (h : m.Invariant sizes) : m.sizes = sizes := by
  rw [Machine.sizes, h.registers, h.stack.1, h.memory]

theorem effect_flags (op : Opcode) (i : Instruction t) (next : Int64) (m : Machine t) :
    (m.effect op i next).flags = m.flags ∨ (m.effect op i next).flags.Shows t := by
  cases op
  case clf => exact .inr (.inl rfl)
  case cmp | and | or | xor | add | sub | mult | div | mod | not | inc | dec =>
    exact .inr (.inr ⟨_, rfl⟩)
  all_goals exact .inl rfl

-- A word is added only where there is room for it.
theorem effect_fits {op : Opcode} {i : Instruction t} {next : Int64} {capacity : Nat}
    (hrefusal : m.refusal? op i next = none) (hstack : m.stack.Fits capacity) :
    (m.effect op i next).stack.Fits capacity := by
  have hobstacle : m.obstacle? op i next = none := by
    rw [refusal?] at hrefusal
    split at hrefusal
    · cases hrefusal
    · exact hrefusal
  obtain ⟨hcapacity, hsize⟩ := hstack
  cases op
  case pushreg | call =>
    simp only [obstacle?] at hobstacle
    split_ifs at hobstacle with hfull
    refine ⟨hcapacity, ?_⟩
    simp only [effect, Stack.add, Array.size_push]
    omega
  case popreg | ret =>
    refine ⟨hcapacity, ?_⟩
    simp only [effect, Stack.drop, Array.size_pop]
    omega
  all_goals exact ⟨hcapacity, hsize⟩

theorem Invariant.effect (h : m.Invariant sizes) {op : Opcode} {i : Instruction t} {next : Int64}
    (hrefusal : m.refusal? op i next = none) : (m.effect op i next).Invariant sizes where
  registers := by
    rw [← h.registers]
    cases op <;> simp [Machine.effect, settle]
  stack := effect_fits hrefusal h.stack
  memory := by
    rw [← h.memory]
    cases op <;> simp [Machine.effect, settle]
  flags := by
    rcases effect_flags op i next m with hsame | hshows
    · rw [hsame]
      exact h.flags
    · exact hshows
  fault := by
    intro fault hfault
    rcases effect_status op i next m with hsame | hhalted
    · exact h.fault fault (hsame ▸ hfault)
    · rw [hhalted] at hfault
      cases hfault

theorem refusal?_possible {op : Opcode} {i : Instruction t} {next : Int64} {cause : Cause}
    (h : m.refusal? op i next = some cause) : cause.Possible t m.sizes := by
  rw [refusal?] at h
  split at h
  · rename_i id hid
    cases h
    have hinvalid := List.find?_some hid
    simpa [Cause.Possible, Machine.sizes] using hinvalid
  · cases op
    case ld | st =>
      simp only [obstacle?] at h
      split_ifs at h with hout
      cases h
      refine ⟨rfl, ?_⟩
      rw [UInt32.toNat_toUInt64]
      exact hout
    case div | mod | pushreg | popreg | ret | call =>
      simp only [obstacle?] at h
      split_ifs at h <;> cases h <;> trivial
    all_goals cases h

theorem decode_error_possible {program : Array UInt8} {pc : Int} {cause : Cause} (sizes : Sizes)
    (h : Instruction.decode t program pc = .error cause) : cause.Possible t sizes := by
  rcases Instruction.decode_error h with ⟨code, hcode, rfl⟩ | ⟨code, need, left, hleft, hneed, rfl⟩
  · exact hcode
  · exact ⟨hleft, hneed⟩

theorem verdict_error_possible {code : UInt8} {cause : Cause}
    (h : m.verdict = .error (code, cause)) : cause.Possible t m.sizes := by
  obtain hlimit | ⟨hlimit, found, hdecode⟩ | ⟨hlimit, op, i, hdecode, hop⟩ := m.fetch_cases
  · rw [verdict_limitReached hlimit] at h
    cases h
    trivial
  · rw [verdict_decode_error hlimit hdecode] at h
    cases h
    exact decode_error_possible _ hdecode
  · rw [verdict_decode_ok hlimit hdecode hop] at h
    cases hrefusal : m.refusal? op i (m.following op) with
    | none =>
      rw [hrefusal] at h
      cases h
    | some found =>
      rw [hrefusal] at h
      cases h
      exact refusal?_possible hrefusal

theorem Invariant.tick (h : m.Invariant sizes) : m.tick.machine.Invariant sizes := by
  cases hstatus : m.status with
  | halted =>
    rw [tick_halted hstatus]
    exact h
  | failed fault =>
    rw [tick_failed hstatus]
    exact h
  | running =>
    cases hverdict : m.verdict with
    | error failure =>
      obtain ⟨log, htick⟩ := tick_of_verdict_error hstatus hverdict
      have hpossible := verdict_error_possible hverdict
      rw [h.sizes_eq] at hpossible
      rw [htick]
      refine { h with fault := ?_ }
      intro fault hfault
      cases hfault
      exact hpossible
    | ok read =>
      obtain ⟨-, -, -, hrefusal⟩ := verdict_ok hverdict
      rw [tick_of_verdict_ok hstatus hverdict]
      exact { h.effect hrefusal with }

theorem Invariant.after (h : m.Invariant sizes) (n : Nat) : (m.after n).Invariant sizes := by
  induction n generalizing m with
  | zero => exact h
  | succ n ih => exact ih h.tick

theorem Invariant.load (h : m.Invariant sizes) (program : Array UInt8) :
    (m.load program).Invariant sizes where
  registers := (Registers.size_reset _).trans h.registers
  stack := ⟨h.stack.1, Nat.zero_le _⟩
  memory := (Memory.size_reset _).trans h.memory
  flags := .inl rfl
  fault := by
    intro fault hfault
    cases hfault

-- One step of a history.
theorem Invariant.apply (h : m.Invariant sizes) {operation : Operation t} {m' : Machine t}
    (happly : operation.apply m = some m') : m'.Invariant sizes := by
  cases operation <;> simp only [Operation.apply, Option.some.injEq] at happly
  case load program => exact happly ▸ h.load program
  case tick => exact happly ▸ h.tick
  case run fuel program =>
    obtain ⟨result, hrun, rfl⟩ := Option.map_eq_some_iff.mp happly
    rw [(run_spec hrun).2.1]
    exact (h.load program).after fuel
  case execute i next =>
    cases hexecute : Machine.execute i next m with
    | ok _ m'' =>
      simp only [hexecute, Option.some.injEq] at happly
      subst happly
      obtain ⟨op, -, hrefusal, rfl⟩ := execute_ok hexecute
      exact h.effect hrefusal
    | error cause m'' =>
      simp only [hexecute, Option.some.injEq] at happly
      rw [← happly, execute_error hexecute]
      exact h
  case writeRegister id value =>
    exact happly ▸ { h with registers := (Registers.size_write _ id value).trans h.registers }
  case resetRegisters =>
    exact happly ▸ { h with registers := (Registers.size_reset _).trans h.registers }
  case push value => exact happly ▸ { h with stack := h.stack.push value }
  case pop => exact happly ▸ { h with stack := h.stack.pop }
  case resetStack => exact happly ▸ { h with stack := ⟨h.stack.1, Nat.zero_le _⟩ }
  case storeWord address value =>
    exact happly ▸ { h with memory := (Memory.size_write _ _ value.toOctets).trans h.memory }
  case writeAt offset bytes =>
    exact happly ▸ { h with memory := (Memory.size_writeAt _ offset bytes).trans h.memory }
  case resetMemory => exact happly ▸ { h with memory := (Memory.size_reset _).trans h.memory }
  case setMaxSteps maxSteps => exact happly ▸ { h with }
  case setVerbose verbose => exact happly ▸ { h with }

theorem make_bounds {registers stack memory : Int} {maxSteps : UInt64} {verbose : Bool}
    (h : make t registers stack memory maxSteps verbose = .ok m) :
    (1 ≤ registers ∧ registers ≤ 256) ∧ (0 ≤ stack ∧ stack * t.bytes ≤ hostLimit) ∧
      0 ≤ memory ∧ memory ≤ hostLimit := by
  simp only [make, Registers.make, Stack.make, Memory.make, bind, Except.bind, pure,
    Except.pure] at h
  split_ifs at h with hregisters hcount hstack hmemory
  simp only [isPossible, Bool.and_eq_true, decide_eq_true_eq, Registers.limit] at *
  omega

theorem make_invariant {registers stack memory : Int} {maxSteps : UInt64} {verbose : Bool}
    (h : make t registers stack memory maxSteps verbose = .ok m) :
    m.Invariant ⟨registers.toNat, stack.toNat, memory.toNat⟩ := by
  obtain ⟨hregisters, hstack, hmemory, -⟩ := make_sizes h
  obtain rfl := make_eq h
  exact ⟨hregisters, ⟨hstack, Nat.zero_le _⟩, hmemory, .inl rfl, by simp⟩

variable {registers stack memory : Int}

theorem Reachable.bounds (h : Reachable registers stack memory m) :
    (1 ≤ registers ∧ registers ≤ 256) ∧ (0 ≤ stack ∧ stack * t.bytes ≤ hostLimit) ∧
      0 ≤ memory ∧ memory ≤ hostLimit := by
  induction h with
  | make h => exact make_bounds h
  | apply operation hm h ih => exact ih

theorem Reachable.invariant (h : Reachable registers stack memory m) :
    m.Invariant ⟨registers.toNat, stack.toNat, memory.toNat⟩ := by
  induction h with
  | make h => exact make_invariant h
  | apply operation hm h ih => exact ih.apply h

-- Nothing but a start sets a stopped machine going again.
theorem isStart_of_running {operation : Operation t} {m' : Machine t}
    (happly : operation.apply m = some m') (hstopped : m.status ≠ .running)
    (hrunning : m'.status = .running) : operation.isStart = true := by
  cases operation <;> simp only [Operation.apply, Option.some.injEq] at happly
  case load | run => rfl
  case tick =>
    rw [← happly, tick_of_stopped hstopped] at hrunning
    exact absurd hrunning hstopped
  case execute i next =>
    cases hexecute : Machine.execute i next m with
    | ok _ m'' =>
      simp only [hexecute, Option.some.injEq] at happly
      subst happly
      obtain ⟨op, -, -, rfl⟩ := execute_ok hexecute
      rcases effect_status op i next m with hsame | hhalted
      · exact absurd (hsame ▸ hrunning) hstopped
      · rw [hhalted] at hrunning
        cases hrunning
    | error cause m'' =>
      simp only [hexecute, Option.some.injEq] at happly
      rw [← happly, execute_error hexecute] at hrunning
      exact absurd hrunning hstopped
  all_goals
    subst happly
    exact absurd hrunning hstopped

end Machine

end RegisterMachine
