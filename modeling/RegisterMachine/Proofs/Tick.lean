import RegisterMachine.Proofs.Effect

namespace RegisterMachine

variable {t : WordType}

namespace Instruction

@[simp]
theorem setOperand_code (i : Instruction t) (bytes : Octets) (operand : Operand) :
    (i.setOperand bytes operand).code = i.code := by
  cases operand <;> rfl

@[simp]
theorem setOperands_code (i : Instruction t) (operands : List Operand) (bytes : Octets) :
    (i.setOperands operands bytes).code = i.code := by
  induction operands generalizing i bytes with
  | nil => rfl
  | cons operand rest ih => simp [setOperands, ih]

-- What is read has an assigned opcode byte, the one in the program, and the size of that opcode.
theorem decode_ok {program : Array UInt8} {pc : Int} {i : Instruction t} {size : Nat}
    (h : decode t program pc = .ok (i, size)) :
    ∃ op, Opcode.ofByte? i.code = some op ∧ size = op.size t.bytes ∧
      program[pc.toNat]? = some i.code ∧
      i = (blank t i.code).setOperands op.operands
        (program.extract (pc.toNat + 1) (pc.toNat + size)).toList := by
  unfold decode at h
  split at h
  · cases h
  · split at h
    · cases h
    · rename_i code hcode
      split at h
      · cases h
      · rename_i op hop
        simp only at h
        split at h
        · cases h
        · cases h
          have hi : ((blank t code).setOperands op.operands
              (program.extract (pc.toNat + 1) (pc.toNat + op.size t.bytes)).toList).code = code :=
            setOperands_code _ _ _
          refine ⟨op, ?_, rfl, ?_, ?_⟩
          · rw [hi, hop]
          · rw [hi, hcode]
          · rw [hi]

end Instruction

theorem Opcode.size_le (t : WordType) (op : Opcode) : op.size t.bytes ≤ 10 := by
  have hbytes := t.bytes_le
  cases op <;> simp only [size, operands, Operand.size, List.foldl_cons, List.foldl_nil] <;> omega

theorem toNat_toUInt64_of_nonneg {n : Int64} (h : 0 ≤ n.toInt) :
    n.toUInt64.toNat = n.toInt.toNat := by
  have hbits : n.toInt = n.toBitVec.toInt := rfl
  have hnat : n.toUInt64.toNat = n.toBitVec.toNat := rfl
  have hlt := n.toBitVec.isLt
  rw [hbits, BitVec.toInt_eq_toNat_cond] at h ⊢
  split at h
  · rename_i hc
    rw [if_pos hc]
    omega
  · omega

namespace Machine

-- The machine after so many ticks, whatever they answer.
def after : Nat → Machine t → Machine t
  | 0, m => m
  | n + 1, m => after n m.tick.machine

@[simp]
theorem after_zero (m : Machine t) : m.after 0 = m := rfl

theorem after_succ (n : Nat) (m : Machine t) : m.after (n + 1) = m.tick.machine.after n := rfl

theorem after_add (a b : Nat) (m : Machine t) : m.after (a + b) = (m.after a).after b := by
  induction a generalizing m with
  | zero => rw [Nat.zero_add, after_zero]
  | succ a ih => rw [Nat.succ_add, after_succ, after_succ, ih]

theorem after_succ_eq_tick (n : Nat) (m : Machine t) :
    m.after (n + 1) = (m.after n).tick.machine := by
  rw [after_add]
  rfl

-- A machine on which ticks do nothing stays as it is.
theorem after_of_tick_machine {m : Machine t} (h : m.tick.machine = m) (n : Nat) :
    m.after n = m := by
  induction n with
  | zero => rfl
  | succ n ih => rw [after_succ, h, ih]

theorem tick_halted {m : Machine t} (h : m.status = .halted) : m.tick = ⟨m, some .halted, []⟩ := by
  simp only [tick, h]

theorem tick_failed {m : Machine t} {fault : Fault} (h : m.status = .failed fault) :
    m.tick = ⟨m, some (.fault fault), []⟩ := by
  simp only [tick, h]

-- The offset that follows an instruction of the given opcode.
def following (m : Machine t) (op : Opcode) : Int64 := m.pc + Int64.ofNat (op.size t.bytes)

-- Read without a sign, the following offset is the exact sum, even where it is no offset any more.
theorem toNat_following {m : Machine t} (op : Opcode) (h : 0 ≤ m.pc.toInt) :
    (m.following op).toUInt64.toNat = m.pc.toInt.toNat + op.size t.bytes := by
  have hpc : m.pc.toInt < 2 ^ 63 := m.pc.toInt_lt
  have hsize := Opcode.size_le t op
  have hadd : (m.following op).toUInt64 =
      m.pc.toUInt64 + (Int64.ofNat (op.size t.bytes)).toUInt64 := rfl
  have hofNat : (Int64.ofNat (op.size t.bytes)).toUInt64.toNat = op.size t.bytes % 2 ^ 64 := rfl
  rw [hadd, UInt64.toNat_add, toNat_toUInt64_of_nonneg h, hofNat]
  omega

-- What is left of a machine when the instruction has been carried out and counted.
def complete (m : Machine t) (op : Opcode) (i : Instruction t) : Machine t :=
  { m.effect op i (m.following op) with steps := m.steps + 1 }

theorem effect_steps (op : Opcode) (i : Instruction t) (next : Int64) (m : Machine t) :
    (m.effect op i next).steps = m.steps := by
  cases op <;> rfl

theorem tick_limitReached {m : Machine t} (hrun : m.status = .running)
    (hlimit : m.limitReached = true) : m.tick = m.fail m.pc 0 .stepLimit [] := by
  simp only [tick, hrun, hlimit, if_true]

theorem tick_decode_error {m : Machine t} {cause : Cause} (hrun : m.status = .running)
    (hlimit : m.limitReached = false)
    (hdecode : Instruction.decode t m.program m.pc.toInt = .error cause) :
    m.tick = m.fail m.pc m.nextCode cause [] := by
  simp only [tick, hrun, hlimit, hdecode, Bool.false_eq_true, if_false]

theorem tick_decode_ok {m : Machine t} {op : Opcode} {i : Instruction t}
    (hrun : m.status = .running) (hlimit : m.limitReached = false)
    (hdecode : Instruction.decode t m.program m.pc.toInt = .ok (i, op.size t.bytes))
    (hop : Opcode.ofByte? i.code = some op) :
    m.tick =
      match m.refusal? op i (m.following op) with
      | some cause => m.fail m.pc i.code cause (m.say (.fetched m.pc i))
      | none => ⟨m.complete op i, none, m.say (.fetched m.pc i)⟩ := by
  simp only [tick, hrun, hlimit, hdecode, Bool.false_eq_true, if_false]
  rw [show m.pc + Int64.ofNat (op.size t.bytes) = m.following op from rfl,
    execute_eq_outcome hop, outcome]
  cases m.refusal? op i (m.following op) with
  | some cause => rfl
  | none => simp only [complete, effect_steps]

-- A tick finds its limit reached, or no instruction to read, or one that it can try to carry out.
theorem fetch_cases (m : Machine t) :
    m.limitReached = true ∨
    (m.limitReached = false ∧
      ∃ cause, Instruction.decode t m.program m.pc.toInt = .error cause) ∨
    (m.limitReached = false ∧
      ∃ op i, Instruction.decode t m.program m.pc.toInt = .ok (i, op.size t.bytes) ∧
        Opcode.ofByte? i.code = some op) := by
  cases hlimit : m.limitReached with
  | true => exact .inl rfl
  | false =>
    cases hdecode : Instruction.decode t m.program m.pc.toInt with
    | error cause => exact .inr (.inl ⟨rfl, cause, rfl⟩)
    | ok read =>
      obtain ⟨i, size⟩ := read
      obtain ⟨op, hop, rfl, -, -⟩ := Instruction.decode_ok hdecode
      exact .inr (.inr ⟨rfl, op, i, rfl, hop⟩)

-- What the next tick of a running machine comes to: the instruction that it carries out, or the
-- opcode byte and the cause with which it fails.
def verdict (m : Machine t) : Except (UInt8 × Cause) (Opcode × Instruction t) :=
  if m.limitReached then .error (0, .stepLimit)
  else
    match Instruction.decode t m.program m.pc.toInt with
    | .error cause => .error (m.nextCode, cause)
    | .ok (i, _) =>
      match Opcode.ofByte? i.code with
      | none => .error (i.code, .invalidOpcode i.code)
      | some op =>
        match m.refusal? op i (m.following op) with
        | some cause => .error (i.code, cause)
        | none => .ok (op, i)

theorem verdict_limitReached {m : Machine t} (hlimit : m.limitReached = true) :
    m.verdict = .error (0, .stepLimit) := by
  simp only [verdict, hlimit, if_true]

theorem verdict_decode_error {m : Machine t} {cause : Cause} (hlimit : m.limitReached = false)
    (hdecode : Instruction.decode t m.program m.pc.toInt = .error cause) :
    m.verdict = .error (m.nextCode, cause) := by
  simp only [verdict, hlimit, hdecode, Bool.false_eq_true, if_false]

theorem verdict_decode_ok {m : Machine t} {op : Opcode} {i : Instruction t}
    (hlimit : m.limitReached = false)
    (hdecode : Instruction.decode t m.program m.pc.toInt = .ok (i, op.size t.bytes))
    (hop : Opcode.ofByte? i.code = some op) :
    m.verdict =
      match m.refusal? op i (m.following op) with
      | some cause => .error (i.code, cause)
      | none => .ok (op, i) := by
  simp only [verdict, hlimit, hdecode, hop, Bool.false_eq_true, if_false]

theorem tick_of_verdict_error {m : Machine t} {code : UInt8} {cause : Cause}
    (hrun : m.status = .running) (h : m.verdict = .error (code, cause)) :
    ∃ log, m.tick = m.fail m.pc code cause log := by
  obtain hlimit | ⟨hlimit, cause', hdecode⟩ | ⟨hlimit, op, i, hdecode, hop⟩ := m.fetch_cases
  · rw [verdict_limitReached hlimit] at h
    cases h
    exact ⟨_, tick_limitReached hrun hlimit⟩
  · rw [verdict_decode_error hlimit hdecode] at h
    cases h
    exact ⟨_, tick_decode_error hrun hlimit hdecode⟩
  · have htick := tick_decode_ok hrun hlimit hdecode hop
    rw [verdict_decode_ok hlimit hdecode hop] at h
    cases hrefusal : m.refusal? op i (m.following op) with
    | none =>
      rw [hrefusal] at h
      cases h
    | some cause =>
      rw [hrefusal] at h htick
      cases h
      exact ⟨_, htick⟩

theorem verdict_ok {m : Machine t} {op : Opcode} {i : Instruction t}
    (h : m.verdict = .ok (op, i)) :
    m.limitReached = false ∧
      Instruction.decode t m.program m.pc.toInt = .ok (i, op.size t.bytes) ∧
      Opcode.ofByte? i.code = some op ∧ m.refusal? op i (m.following op) = none := by
  obtain hlimit | ⟨hlimit, cause, hdecode⟩ | ⟨hlimit, op', i', hdecode, hop⟩ := m.fetch_cases
  · rw [verdict_limitReached hlimit] at h
    cases h
  · rw [verdict_decode_error hlimit hdecode] at h
    cases h
  · rw [verdict_decode_ok hlimit hdecode hop] at h
    cases hrefusal : m.refusal? op' i' (m.following op') with
    | none =>
      rw [hrefusal] at h
      cases h
      exact ⟨hlimit, hdecode, hop, hrefusal⟩
    | some cause =>
      rw [hrefusal] at h
      cases h

theorem tick_of_verdict_ok {m : Machine t} {op : Opcode} {i : Instruction t}
    (hrun : m.status = .running) (h : m.verdict = .ok (op, i)) :
    m.tick = ⟨m.complete op i, none, m.say (.fetched m.pc i)⟩ := by
  obtain ⟨hlimit, hdecode, hop, hrefusal⟩ := verdict_ok h
  rw [tick_decode_ok hrun hlimit hdecode hop, hrefusal]

-- All that a tick of a running machine can do: the machine fails as a whole, or an instruction is
-- read, finds nothing in its way and is carried out as a whole.
theorem tick_cases {m : Machine t} (hrun : m.status = .running) :
    (∃ code cause log, m.tick = m.fail m.pc code cause log) ∨
    (∃ op i, m.limitReached = false ∧
      Instruction.decode t m.program m.pc.toInt = .ok (i, op.size t.bytes) ∧
      Opcode.ofByte? i.code = some op ∧ m.refusal? op i (m.following op) = none ∧
      m.tick = ⟨m.complete op i, none, m.say (.fetched m.pc i)⟩) := by
  cases h : m.verdict with
  | error failure =>
    obtain ⟨log, hfail⟩ := tick_of_verdict_error hrun h
    exact .inl ⟨_, _, log, hfail⟩
  | ok read =>
    obtain ⟨hlimit, hdecode, hop, hrefusal⟩ := verdict_ok h
    exact .inr ⟨_, _, hlimit, hdecode, hop, hrefusal, tick_of_verdict_ok hrun h⟩

-- A tick that answers nothing has carried out an instruction.
theorem tick_success {m : Machine t} (h : m.tick.stop = none) :
    ∃ op i, m.status = .running ∧
      Instruction.decode t m.program m.pc.toInt = .ok (i, op.size t.bytes) ∧
      Opcode.ofByte? i.code = some op ∧ m.refusal? op i (m.following op) = none ∧
      m.tick.machine = m.complete op i := by
  cases hstatus : m.status with
  | halted =>
    rw [tick_halted hstatus] at h
    cases h
  | failed fault =>
    rw [tick_failed hstatus] at h
    cases h
  | running =>
    obtain ⟨code, cause, log, hfail⟩ | ⟨op, i, -, hdecode, hop, hrefusal, htick⟩ :=
      tick_cases hstatus
    · rw [hfail] at h
      cases h
    · exact ⟨op, i, rfl, hdecode, hop, hrefusal, by rw [htick]⟩

-- A tick that does not succeed leaves everything but the run state.
theorem tick_of_stop {m : Machine t} (h : m.tick.stop ≠ none) :
    ∃ status, m.tick.machine = { m with status } := by
  cases hstatus : m.status with
  | halted => exact ⟨m.status, by rw [tick_halted hstatus]⟩
  | failed fault => exact ⟨m.status, by rw [tick_failed hstatus]⟩
  | running =>
    obtain ⟨code, cause, log, hfail⟩ | ⟨op, i, -, -, -, -, htick⟩ := tick_cases hstatus
    · exact ⟨_, by rw [hfail]; rfl⟩
    · rw [htick] at h
      exact absurd rfl h

end Machine

end RegisterMachine
