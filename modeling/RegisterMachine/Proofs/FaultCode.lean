import RegisterMachine.Proofs.CallReturn
import RegisterMachine.Proofs.Resources
import RegisterMachine.Proofs.StepBudget
import RegisterMachine.Proofs.Sweep

namespace RegisterMachine

variable {t : WordType}

-- The byte of a program at an offset, zero where the program has none.
def byteAt (program : Array UInt8) (offset : Int64) : UInt8 :=
  if 0 ≤ offset.toInt ∧ offset.toInt < program.size then program.getD offset.toInt.toNat 0 else 0

theorem Instruction.cause_ne_stepLimit {program : Array UInt8} {pc : Int} {cause : Cause}
    (h : decode t program pc = .error cause) : cause ≠ .stepLimit := by
  obtain ⟨code, -, rfl⟩ | ⟨code, need, left, -, -, rfl⟩ := decode_error h
  · exact nofun
  · exact nofun

namespace Machine

theorem obstacle?_ne_stepLimit (op : Opcode) (i : Instruction t) (next : Int64) (m : Machine t) :
    m.obstacle? op i next ≠ some .stepLimit := by
  cases op
  case ld | st | div | mod | pushreg | popreg | ret | call =>
    simp only [obstacle?]
    split_ifs <;> simp
  all_goals simp [obstacle?]

theorem refusal?_ne_stepLimit (op : Opcode) (i : Instruction t) (next : Int64) (m : Machine t) :
    m.refusal? op i next ≠ some .stepLimit := by
  unfold refusal?
  split
  · exact nofun
  · exact obstacle?_ne_stepLimit op i next m

theorem nextCode_eq_byteAt (m : Machine t) : m.nextCode = byteAt m.program m.pc := by
  have hneg : m.pc < 0 ↔ m.pc.toInt < 0 := Int64.lt_iff_toInt_lt
  simp only [nextCode, byteAt, hneg]
  by_cases hinside : 0 ≤ m.pc.toInt ∧ m.pc.toInt < m.program.size
  · rw [if_neg (by omega), if_pos hinside, Array.getD_eq_getD_getElem?]
  · rw [if_neg hinside]
    split_ifs with hpc
    · rfl
    · rw [Array.getElem?_eq_none (by omega)]
      rfl

-- A running machine fails because its limit leaves it no instruction, because it cannot read one,
-- or because the one that it has read is refused. Only then something was written down.
theorem tick_fault_cases {m : Machine t} {fault : Fault} (hrun : m.status = .running)
    (h : m.tick.stop = some (.fault fault)) :
    (m.limitReached = true ∧ fault = ⟨m.pc, 0, m.steps, .stepLimit⟩ ∧ m.tick.log = []) ∨
    (∃ cause, m.limitReached = false ∧
      Instruction.decode t m.program m.pc.toInt = .error cause ∧
      fault = ⟨m.pc, m.nextCode, m.steps, cause⟩ ∧ m.tick.log = []) ∨
    (∃ op i cause, m.limitReached = false ∧
      Instruction.decode t m.program m.pc.toInt = .ok (i, op.size t.bytes) ∧
      Opcode.ofByte? i.code = some op ∧ m.refusal? op i (m.following op) = some cause ∧
      fault = ⟨m.pc, m.nextCode, m.steps, cause⟩ ∧ m.tick.log = m.say (.fetched m.pc i)) := by
  obtain hlimit | ⟨hlimit, cause, hdecode⟩ | ⟨hlimit, op, i, hdecode, hop⟩ := m.fetch_cases
  · rw [tick_limitReached hrun hlimit] at h ⊢
    cases h
    exact .inl ⟨hlimit, rfl, rfl⟩
  · rw [tick_decode_error hrun hlimit hdecode] at h ⊢
    cases h
    exact .inr (.inl ⟨cause, hlimit, hdecode, rfl, rfl⟩)
  · rw [tick_decode_ok hrun hlimit hdecode hop] at h ⊢
    cases hrefusal : m.refusal? op i (m.following op) with
    | none =>
      rw [hrefusal] at h
      cases h
    | some cause =>
      rw [hrefusal] at h
      cases h
      refine .inr (.inr ⟨op, i, cause, hlimit, hdecode, hop, hrefusal, ?_, rfl⟩)
      rw [nextCode_of_decode hdecode]

-- A fault has the opcode byte at its offset, unless it comes from the step limit: the limit is
-- looked at before the byte.
theorem tick_fault_code {m : Machine t} {fault : Fault} (hrun : m.status = .running)
    (h : m.tick.stop = some (.fault fault)) :
    fault.offset = m.pc ∧ (fault.cause = .stepLimit → fault.code = 0) ∧
      (fault.cause ≠ .stepLimit → fault.code = byteAt m.program m.pc) := by
  obtain ⟨-, rfl, -⟩ | ⟨cause, -, hdecode, rfl, -⟩ | ⟨op, i, cause, -, -, -, hrefusal, rfl, -⟩ :=
    tick_fault_cases hrun h
  · exact ⟨rfl, fun _ => rfl, fun hne => absurd rfl hne⟩
  · have hne : cause ≠ .stepLimit := Instruction.cause_ne_stepLimit hdecode
    exact ⟨rfl, fun heq => absurd heq hne, fun _ => m.nextCode_eq_byteAt⟩
  · have hne : cause ≠ .stepLimit := by
      rintro rfl
      exact refusal?_ne_stepLimit op i (m.following op) m hrefusal
    exact ⟨rfl, fun heq => absurd heq hne, fun _ => m.nextCode_eq_byteAt⟩

-- A fault names the byte at its offset exactly if the machine did not run into its step limit, or
-- if that byte is zero or is not there.
theorem fault_names_instruction_iff (m : Machine t) (hrun : m.status = .running) (fault : Fault)
    (h : m.tick.stop = some (.fault fault)) :
    fault.code = byteAt m.program fault.offset ↔
      fault.cause ≠ .stepLimit ∨ byteAt m.program fault.offset = 0 := by
  obtain ⟨hoffset, hlimit, hother⟩ := tick_fault_code hrun h
  rw [hoffset]
  by_cases hcause : fault.cause = .stepLimit
  · rw [hlimit hcause, eq_comm]
    simp [hcause]
  · simp [hcause, hother hcause]

-- About to fail at a byte that is assigned to no instruction, with steps to spare.
def astrayByte : Machine ⟨.one, true⟩ :=
  (((sized 4 8 16).budgeted 2).load #[0x00, 0xf0, 0xff]).after 1

theorem fault_names_instruction_iff_astrayByte :
    astrayByte.status = .running ∧
      ∃ fault, astrayByte.tick.stop = some (.fault fault) ∧ fault.cause ≠ .stepLimit ∧
        fault.code = byteAt astrayByte.program fault.offset := by
  have hrun : astrayByte.status = .running := by decide +kernel
  have hstop : astrayByte.tick.stop = some (.fault ⟨1, 0xf0, 1, .invalidOpcode 0xf0⟩) := by
    decide +kernel
  have hcause : Cause.invalidOpcode 0xf0 ≠ .stepLimit := nofun
  exact ⟨hrun, _, hstop, hcause,
    (fault_names_instruction_iff astrayByte hrun _ hstop).mpr (.inl hcause)⟩

-- One up and then a jump. The limit of one step ends the run in front of the jump.
def overrun : Machine ⟨.one, true⟩ :=
  (((sized 4 8 16).budgeted 1).load #[0x0e, 0, 0x12, 0, 0, 0, 0]).after 1

-- The fault has the offset of the jump, but the opcode byte of an instruction that does nothing.
theorem step_limit_misnames_jump :
    overrun.status = .running ∧ overrun.tick.stop = some (.fault ⟨2, 0, 1, .stepLimit⟩) ∧
      byteAt overrun.program 2 = 0x12 := by
  decide +kernel

end Machine

end RegisterMachine
