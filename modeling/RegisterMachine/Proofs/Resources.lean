import RegisterMachine.Proofs.WholeRun

namespace RegisterMachine

variable {t : WordType}

-- Causes that a machine with more room might not have met.
def Cause.isShortage : Cause → Bool
  | .invalidRegister _ | .stackOverflow | .outOfBounds _ _ => true
  | _ => false

-- How much more one machine has than another: registers, words on the stack, bytes of memory.
structure Room where
  registers : Nat
  stack : Nat
  memory : Nat

namespace Registers

-- More registers behind those that are there; they hold zero.
def extended (registers : Registers t) (count : Nat) : Registers t :=
  ⟨registers.values ++ Array.replicate count 0⟩

theorem value_extended {registers : Registers t} {id : UInt8}
    (h : id.toNat < registers.values.size) (count : Nat) :
    (registers.extended count).value id = registers.value id := by
  simp [extended, value, Array.getD_eq_getD_getElem?, Array.getElem?_append_left h]

theorem put_extended {registers : Registers t} {id : UInt8}
    (h : id.toNat < registers.values.size) (count : Nat) (value : Word t) :
    (registers.extended count).put id value = (registers.put id value).extended count := by
  simp only [put, extended, Array.setIfInBounds_append_left h]

theorem firstInvalid?_eq_none_iff {registers : Registers t} {ids : List UInt8} :
    registers.firstInvalid? ids = none ↔ ∀ id ∈ ids, id.toNat < registers.values.size := by
  simp [firstInvalid?]

theorem firstInvalid?_extended {registers : Registers t} {ids : List UInt8}
    (h : registers.firstInvalid? ids = none) (count : Nat) :
    (registers.extended count).firstInvalid? ids = none := by
  rw [firstInvalid?_eq_none_iff] at h ⊢
  intro id hid
  have hlt := h id hid
  simp only [extended, Array.size_append]
  omega

end Registers

namespace Memory

def extended (memory : Memory) (count : Nat) : Memory :=
  ⟨memory.bytes ++ Array.replicate count 0⟩

theorem size_extended (memory : Memory) (count : Nat) :
    (memory.extended count).size = memory.size + count := by
  simp [extended, size]

@[simp]
theorem size_overwrite (cells : Array UInt8) (offset : Nat) (bytes : Octets) :
    (overwrite cells offset bytes).size = cells.size := by
  induction bytes generalizing cells offset with
  | nil => rfl
  | cons byte rest ih => rw [overwrite, ih, Array.size_setIfInBounds]

theorem overwrite_append {cells : Array UInt8} {offset : Nat} {bytes : Octets}
    (h : offset + bytes.length ≤ cells.size) (more : Array UInt8) :
    overwrite (cells ++ more) offset bytes = overwrite cells offset bytes ++ more := by
  induction bytes generalizing cells offset with
  | nil => rfl
  | cons byte rest ih =>
    rw [List.length_cons] at h
    rw [overwrite, overwrite, Array.setIfInBounds_append_left (by omega)]
    apply ih
    rw [Array.size_setIfInBounds]
    omega

theorem put_extended {memory : Memory} {offset : Nat} {bytes : Octets}
    (h : offset + bytes.length ≤ memory.size) (count : Nat) :
    (memory.extended count).put offset bytes = (memory.put offset bytes).extended count := by
  simp only [put, extended, overwrite_append h]

theorem extract_extended {memory : Memory} {start stop : Nat} (h : stop ≤ memory.size)
    (count : Nat) :
    (memory.extended count).bytes.extract start stop = memory.bytes.extract start stop := by
  have hnone : stop - memory.bytes.size = 0 := Nat.sub_eq_zero_of_le h
  simp only [extended, Array.extract_append, hnone]
  simp

end Memory

namespace Machine

def enlarged (m : Machine t) (room : Room) (verbose : Bool) : Machine t :=
  { m with
    registers := m.registers.extended room.registers
    stack := { m.stack with capacity := m.stack.capacity + room.stack }
    memory := m.memory.extended room.memory
    verbose }

theorem hasRoom_enlarged {m : Machine t} (h : ¬m.stack.capacity ≤ m.stack.words.size)
    (room : Room) (verbose : Bool) :
    ¬(m.enlarged room verbose).stack.capacity ≤ (m.enlarged room verbose).stack.words.size := by
  simp only [enlarged]
  omega

theorem refusal?_eq_none {op : Opcode} {i : Instruction t} {next : Int64} {m : Machine t}
    (h : m.refusal? op i next = none) :
    (∀ id ∈ i.registerIds op, id.toNat < m.registers.values.size) ∧
      m.obstacle? op i next = none := by
  rw [refusal?] at h
  cases hids : m.registers.firstInvalid? (i.registerIds op) with
  | some id =>
    rw [hids] at h
    cases h
  | none =>
    rw [hids] at h
    exact ⟨Registers.firstInvalid?_eq_none_iff.mp hids, h⟩

theorem obstacle?_enlarged {op : Opcode} {i : Instruction t} {next : Int64} {m : Machine t}
    (hids : ∀ id ∈ i.registerIds op, id.toNat < m.registers.values.size)
    (h : ∀ cause, m.obstacle? op i next = some cause → cause.isShortage = false)
    (room : Room) (verbose : Bool) :
    (m.enlarged room verbose).obstacle? op i next = m.obstacle? op i next := by
  cases op
  case ld | st =>
    simp only [obstacle?] at h ⊢
    have hinside : ¬m.memory.size < i.address.toNat + t.bytes := by
      intro hout
      have hnot := h (.outOfBounds i.address.toUInt64 t.bytes) (if_pos hout)
      cases hnot
    have hinside' : ¬(m.enlarged room verbose).memory.size < i.address.toNat + t.bytes := by
      rw [enlarged, Memory.size_extended]
      omega
    rw [if_neg hinside, if_neg hinside']
  case div | mod =>
    have hthird := Registers.value_extended (hids i.third (.tail _ (.tail _ (.head _))))
      room.registers
    simp only [obstacle?, enlarged, hthird]
  case pushreg =>
    simp only [obstacle?] at h ⊢
    have hroom : ¬m.stack.capacity ≤ m.stack.words.size := by
      intro hfull
      have hnot := h .stackOverflow (if_pos hfull)
      cases hnot
    rw [if_neg hroom, if_neg (hasRoom_enlarged hroom room verbose)]
  case call =>
    simp only [obstacle?] at h ⊢
    by_cases haddress : t.patterns ≤ next.toUInt64.toNat
    · rw [if_pos haddress, if_pos haddress]
    · have hroom : ¬m.stack.capacity ≤ m.stack.words.size := by
        intro hfull
        have hnot := h .stackOverflow (by rw [if_neg haddress, if_pos hfull])
        cases hnot
      rw [if_neg haddress, if_neg haddress, if_neg hroom,
        if_neg (hasRoom_enlarged hroom room verbose)]
  all_goals rfl

theorem refusal?_enlarged {op : Opcode} {i : Instruction t} {next : Int64} {m : Machine t}
    (h : ∀ cause, m.refusal? op i next = some cause → cause.isShortage = false)
    (room : Room) (verbose : Bool) :
    (m.enlarged room verbose).refusal? op i next = m.refusal? op i next := by
  cases hids : m.registers.firstInvalid? (i.registerIds op) with
  | some id =>
    have hnot := h (.invalidRegister id) (by rw [refusal?, hids])
    cases hnot
  | none =>
    have hids' : (m.enlarged room verbose).registers.firstInvalid? (i.registerIds op) = none :=
      Registers.firstInvalid?_extended hids room.registers
    simp only [refusal?, hids, hids'] at h ⊢
    exact obstacle?_enlarged (Registers.firstInvalid?_eq_none_iff.mp hids) h room verbose

theorem result_enlarged {op : Opcode} {i : Instruction t} {m : Machine t} {room : Room}
    {verbose : Bool}
    (hvalue : ∀ id ∈ i.registerIds op,
      (m.enlarged room verbose).registers.value id = m.registers.value id) :
    (m.enlarged room verbose).result op i = m.result op i := by
  cases op
  case and | or | xor | add | sub | mult | div | mod =>
    simp only [result, hvalue i.second (.tail _ (.head _)),
      hvalue i.third (.tail _ (.tail _ (.head _)))]
  case not => simp only [result, hvalue i.second (.tail _ (.head _))]
  case inc | dec => simp only [result, hvalue i.first (.head _)]
  all_goals rfl

-- An instruction that nothing stands in the way of does the same on a machine with more room, and
-- leaves what is new alone.
theorem effect_enlarged {op : Opcode} {i : Instruction t} {next : Int64} {m : Machine t}
    (h : m.refusal? op i next = none) (room : Room) (verbose : Bool) :
    (m.enlarged room verbose).effect op i next = (m.effect op i next).enlarged room verbose := by
  obtain ⟨hids, hobstacle⟩ := refusal?_eq_none h
  have hvalue (id : UInt8) (hid : id ∈ i.registerIds op) :
      (m.enlarged room verbose).registers.value id = m.registers.value id :=
    Registers.value_extended (hids id hid) room.registers
  have hput (id : UInt8) (hid : id ∈ i.registerIds op) (value : Word t) :
      (m.enlarged room verbose).registers.put id value =
        (m.registers.put id value).extended room.registers :=
    Registers.put_extended (hids id hid) room.registers value
  cases op
  case nop | jmp | jmpz | jmpn | jmpp | call | ret | clf | hlt => rfl
  case mov | popreg =>
    simp only [effect, hput i.first (.head _)]
    rfl
  case ld =>
    have hinside : i.address.toNat + t.bytes ≤ m.memory.size := by
      simpa [obstacle?] using hobstacle
    have hbytes : (m.enlarged room verbose).memory.bytes.extract i.address.toNat
          (i.address.toNat + t.bytes) =
        m.memory.bytes.extract i.address.toNat (i.address.toNat + t.bytes) :=
      Memory.extract_extended hinside room.memory
    simp only [effect, hbytes, hput i.first (.head _)]
    rfl
  case st =>
    have hinside : i.address.toNat + (m.registers.value i.first).toOctets.length ≤
        m.memory.size := by
      simpa [obstacle?] using hobstacle
    have hstored : (m.enlarged room verbose).memory.put i.address.toNat
          (m.registers.value i.first).toOctets =
        (m.memory.put i.address.toNat (m.registers.value i.first).toOctets).extended
          room.memory :=
      Memory.put_extended hinside room.memory
    simp only [effect, hvalue i.first (.head _), hstored]
    rfl
  case and | or | xor | add | sub | mult | div | mod | not | inc | dec =>
    simp only [effect, settle, result_enlarged hvalue, hput i.first (.head _)]
    rfl
  case cmp =>
    simp only [effect, hvalue i.first (.head _), hvalue i.second (.tail _ (.head _))]
    rfl
  case pushreg =>
    simp only [effect, hvalue i.first (.head _)]
    rfl

-- The next tick does not fail for a lack of room.
def HasRoom (m : Machine t) : Prop :=
  ∀ code cause, m.status = .running → m.verdict = .error (code, cause) → cause.isShortage = false

theorem verdict_enlarged {m : Machine t} (hrun : m.status = .running) (h : m.HasRoom)
    (room : Room) (verbose : Bool) : (m.enlarged room verbose).verdict = m.verdict := by
  obtain hlimit | ⟨hlimit, cause, hdecode⟩ | ⟨hlimit, op, i, hdecode, hop⟩ := m.fetch_cases
  · rw [verdict_limitReached hlimit, verdict_limitReached (m := m.enlarged room verbose) hlimit]
  · rw [verdict_decode_error hlimit hdecode,
      verdict_decode_error (m := m.enlarged room verbose) hlimit hdecode]
    rfl
  · have hverdict := verdict_decode_ok hlimit hdecode hop
    have hrefusal : ∀ cause, m.refusal? op i (m.following op) = some cause →
        cause.isShortage = false := by
      intro cause hcause
      rw [hcause] at hverdict
      exact h _ _ hrun hverdict
    rw [hverdict, verdict_decode_ok (m := m.enlarged room verbose) hlimit hdecode hop,
      show (m.enlarged room verbose).following op = m.following op from rfl,
      refusal?_enlarged hrefusal]

theorem tick_enlarged {m : Machine t} (h : m.HasRoom) (room : Room) (verbose : Bool) :
    (m.enlarged room verbose).tick.machine = m.tick.machine.enlarged room verbose := by
  refine (tick_related (R := fun a b => b = a.enlarged room verbose) rfl rfl rfl rfl ?_ ?_).1
  · intro code cause hrun hverdict
    exact ⟨(verdict_enlarged hrun h room verbose).trans hverdict, fun fault => rfl⟩
  · intro op i hrun hverdict
    obtain ⟨-, -, -, hrefusal⟩ := verdict_ok hverdict
    refine ⟨i, (verdict_enlarged hrun h room verbose).trans hverdict, ?_⟩
    rw [complete, show (m.enlarged room verbose).following op = m.following op from rfl,
      effect_enlarged hrefusal]
    rfl

theorem after_enlarged {m : Machine t} {n : Nat} (h : ∀ j < n, (m.after j).HasRoom) (room : Room)
    (verbose : Bool) :
    (m.enlarged room verbose).after n = (m.after n).enlarged room verbose := by
  refine after_related (R := fun a b => b = a.enlarged room verbose) ?_ rfl h
  rintro a b rfl hroom
  exact tick_enlarged hroom room verbose

-- A run that does not end for a lack of room has had room all the time.
theorem hasRoom_of_after {m : Machine t} {n : Nat}
    (h : ∀ fault, (m.after n).status = .failed fault → fault.cause.isShortage = false) :
    ∀ j < n, (m.after j).HasRoom := by
  intro j hj code cause hrun hverdict
  obtain ⟨fault, hfailed, rfl⟩ := failed_of_verdict_error hj hrun hverdict
  exact h fault hfailed

def surplus (small big : Machine t) : Room where
  registers := big.registers.values.size - small.registers.values.size
  stack := big.stack.capacity - small.stack.capacity
  memory := big.memory.size - small.memory.size

structure Contains (big small : Machine t) : Prop where
  registers : small.registers.values.size ≤ big.registers.values.size
  stack : small.stack.capacity ≤ big.stack.capacity
  memory : small.memory.size ≤ big.memory.size
  maxSteps : big.maxSteps = small.maxSteps

theorem load_enlarged {small big : Machine t} (h : big.Contains small) (program : Array UInt8) :
    big.load program = (small.load program).enlarged (small.surplus big) big.verbose := by
  simp only [load, enlarged, surplus, Registers.reset, Registers.zeros, Registers.extended,
    Stack.reset, Stack.empty, Memory.reset, Memory.zeros, Memory.extended,
    Array.replicate_append_replicate, Nat.add_sub_cancel' h.registers,
    Nat.add_sub_cancel' h.stack, Nat.add_sub_cancel' h.memory, h.maxSteps]

theorem after_sizes (n : Nat) (m : Machine t) :
    (m.after n).registers.values.size = m.registers.values.size ∧
      (m.after n).memory.size = m.memory.size := by
  have hcomplete (m : Machine t) (op : Opcode) (i : Instruction t) :
      ((m.complete op i).registers.values.size, (m.complete op i).memory.size) =
        (m.registers.values.size, m.memory.size) := by
    cases op <;> simp [complete, effect, settle, Registers.put, Memory.put, Memory.size]
  exact Prod.mk.inj (after_unchanged (fun m => (m.registers.values.size, m.memory.size))
    (fun _ _ => rfl) hcomplete n m)

-- More room never changes a run that did not run out of it: the run ends in the same way, with the
-- same machine but for zeros in all that is new.
theorem more_room_same_run (small big : Machine t) (hcontains : big.Contains small)
    (program : Array UInt8) (fuel : Nat) (result : Outcome t)
    (hrun : small.run fuel program = some result)
    (hroom : ∀ fault, result.stop = some (.fault fault) → fault.cause.isShortage = false) :
    ∃ result', big.run fuel program = some result' ∧ result'.stop = result.stop ∧
      result'.machine = result.machine.enlarged (small.surplus big) big.verbose ∧
      result.machine.registers.values.size = small.registers.values.size ∧
      result.machine.memory.size = small.memory.size := by
  obtain ⟨hstopped, hmachine, hstop⟩ := run_spec hrun
  have hfaults : ∀ fault, ((small.load program).after fuel).status = .failed fault →
      fault.cause.isShortage = false := by
    intro fault hfault
    rw [hfault] at hstop
    exact hroom fault hstop
  have hafter := after_enlarged (hasRoom_of_after hfaults) (small.surplus big) big.verbose
  rw [← load_enlarged hcontains, ← hmachine] at hafter
  rw [← hmachine] at hstopped hstop
  obtain ⟨log, hbig⟩ := run_eq fuel big program
  have hstopped' : (result.machine.enlarged (small.surplus big) big.verbose).status ≠ .running :=
    hstopped
  rw [hafter, if_neg hstopped'] at hbig
  have hsizes := after_sizes fuel (small.load program)
  rw [← hmachine] at hsizes
  refine ⟨_, hbig, hstop.symm, rfl, hsizes.1.trans ?_, hsizes.2.trans ?_⟩
  · simp [load, Registers.reset, Registers.zeros]
  · simp [load, Memory.reset, Memory.zeros, Memory.size]

def sized (registers stack memory : Nat) : Machine ⟨.one, true⟩ where
  registers := .zeros _ registers
  flags := .clear
  stack := .empty _ stack
  memory := .zeros memory
  program := #[]
  pc := 0
  steps := 0
  status := .halted
  maxSteps := 0
  verbose := false

-- Stores a register, saves and restores it and then returns although nothing was called.
def roundabout : Array UInt8 := #[0x01, 0, 5, 0x03, 0, 0, 0, 0, 0, 0x10, 0, 0x11, 0, 0x17]

theorem more_room_same_run_roundabout :
    ∃ result result', (sized 1 1 1).run 5 roundabout = some result ∧
      result.stop = some (.fault ⟨13, 0x17, 4, .stackUnderflow⟩) ∧
      (sized 2 3 4).run 5 roundabout = some result' ∧
      result'.stop = some (.fault ⟨13, 0x17, 4, .stackUnderflow⟩) ∧
      result'.machine.registers.values = result.machine.registers.values ++ #[0] := by
  have hrun : (sized 1 1 1).run 5 roundabout = some _ := rfl
  have hcontains : (sized 2 3 4).Contains (sized 1 1 1) :=
    ⟨by decide, by decide, by decide, rfl⟩
  obtain ⟨result', hrun', hstop, hmachine, -, -⟩ :=
    more_room_same_run _ _ hcontains _ _ _ hrun <| by
      intro fault hfault
      cases hfault
      rfl
  exact ⟨_, result', hrun, rfl, hrun', hstop, by rw [hmachine]; rfl⟩

end Machine

end RegisterMachine
