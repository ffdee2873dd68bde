import RegisterMachine.Proofs.Codec

namespace RegisterMachine

variable {t : WordType}

-- How many operands of an opcode are registers. They stand in front of the others.
def Opcode.registerCount (op : Opcode) : Nat :=
  (op.operands.filter (·.kind = .register)).length

namespace Machine

-- The byte at the program counter.
def opcodeByte (m : Machine t) : UInt8 := m.program.getD m.pc.toInt.toNat 0

-- So many bytes of the program, from a place behind the program counter on.
def bytesAt (m : Machine t) (place count : Nat) : Octets :=
  (m.program.toList.drop (m.pc.toInt.toNat + place)).take count

-- The registers that the instruction at the program counter names, one byte each.
def registersAt (m : Machine t) (op : Opcode) : List UInt8 := m.bytesAt 1 op.registerCount

-- The address that it names, in the four bytes behind the registers.
def addressAt (m : Machine t) (op : Opcode) : Nat :=
  Octets.fromLittleEndian (m.bytesAt (1 + op.registerCount) 4)

-- The last rule: what the operation itself needs.
def operationRule? (m : Machine t) (op : Opcode) : Option Cause :=
  match op with
  | .ld | .st =>
    if m.memory.size < m.addressAt op + t.bytes then
      some (.outOfBounds (UInt64.ofNat (m.addressAt op)) t.bytes)
    else none
  | .div | .mod =>
    if m.registers.value ((m.registersAt op).getD 2 0) = 0 then some .divisionByZero else none
  | .pushreg => if m.stack.capacity ≤ m.stack.words.size then some .stackOverflow else none
  | .popreg | .ret => if m.stack.words.size = 0 then some .stackUnderflow else none
  | .call =>
    if (2 ^ (8 * t.bytes) - 1 : Int) < m.pc.toInt + 5 then some .returnAddress
    else if m.stack.capacity ≤ m.stack.words.size then some .stackOverflow
    else none
  | _ => none

-- The rules for an instruction that lies in the program as a whole: the first register operand that
-- names no register comes before anything else.
def operandRule? (m : Machine t) (op : Opcode) : Option Cause :=
  match (m.registersAt op).find? fun id => m.registers.values.size ≤ id.toNat with
  | some id => some (.invalidRegister id)
  | none => m.operationRule? op

-- Why a running machine cannot go on, if it cannot: the first rule that applies decides. Only the
-- machine's parts and the bytes of its program are looked at.
def rule? (m : Machine t) : Option Cause :=
  if 0 < m.maxSteps ∧ m.maxSteps ≤ m.steps then some .stepLimit
  else if m.pc.toInt < 0 ∨ m.program.size ≤ m.pc.toInt then some (.truncated 0 1 0)
  else
    match Opcode.ofByte? m.opcodeByte with
    | none => some (.invalidOpcode m.opcodeByte)
    | some op =>
      let left := m.program.size - m.pc.toInt.toNat
      if left < op.size t.bytes then some (.truncated m.opcodeByte (op.size t.bytes) left)
      else m.operandRule? op

theorem take_bytesAt (m : Machine t) {place count total : Nat} (h : count ≤ total) :
    (m.bytesAt place total).take count = m.bytesAt place count := by
  rw [bytesAt, List.take_take, Nat.min_eq_left h, bytesAt]

theorem drop_bytesAt (m : Machine t) (place skip total : Nat) :
    (m.bytesAt place total).drop skip = m.bytesAt (place + skip) (total - skip) := by
  simp only [bytesAt, List.drop_take, List.drop_drop, Nat.add_assoc]

-- The register operands of an instruction are the first of its bytes.
theorem registerIds_eq_take (i : Instruction t) (op : Opcode) :
    i.registerIds op = (op.operands.flatMap i.operandOctets).take op.registerCount := by
  cases op <;> rfl

theorem registerCount_le_size (op : Opcode) : op.registerCount ≤ op.size t.bytes - 1 := by
  cases op <;> simp [Opcode.registerCount, Opcode.operands, Opcode.size, Operand.kind, Operand.size]

-- The operands that were read are the ones that stand in the program.
theorem registerIds_eq_registersAt {m : Machine t} {i : Instruction t} {op : Opcode}
    (hbytes : op.operands.flatMap i.operandOctets = m.bytesAt 1 (op.size t.bytes - 1)) :
    i.registerIds op = m.registersAt op := by
  rw [registerIds_eq_take, hbytes, take_bytesAt m (registerCount_le_size op), registersAt]

theorem address_eq_addressAt {m : Machine t} {i : Instruction t} {op : Opcode}
    (hop : op = .ld ∨ op = .st)
    (hbytes : op.operands.flatMap i.operandOctets = m.bytesAt 1 (op.size t.bytes - 1)) :
    i.address.toNat = m.addressAt op := by
  have hfield : (op.operands.flatMap i.operandOctets).drop op.registerCount =
      Octets.littleEndian 4 i.address.toNat := by
    obtain rfl | rfl := hop <;> rfl
  have hrest : op.size t.bytes - 1 - op.registerCount = 4 := by
    obtain rfl | rfl := hop <;> rfl
  rw [hbytes, drop_bytesAt, hrest] at hfield
  rw [addressAt, hfield, Octets.fromLittleEndian_littleEndian]
  exact (Nat.mod_eq_of_lt i.address.toNat_lt).symm

theorem third_eq_registersAt {m : Machine t} {i : Instruction t} {op : Opcode}
    (hop : op = .div ∨ op = .mod)
    (hbytes : op.operands.flatMap i.operandOctets = m.bytesAt 1 (op.size t.bytes - 1)) :
    i.third = (m.registersAt op).getD 2 0 := by
  rw [← registerIds_eq_registersAt hbytes]
  obtain rfl | rfl := hop <;> rfl

-- The offset to come back to is compared as a number of its own, not as one of 64 bits.
theorem returnAddress_iff {m : Machine t} (hpc : 0 ≤ m.pc.toInt) :
    t.patterns ≤ (m.following .call).toUInt64.toNat ↔
      (2 ^ (8 * t.bytes) - 1 : Int) < m.pc.toInt + 5 := by
  have hsize : Opcode.call.size t.bytes = 5 := rfl
  have hcast : ((2 ^ (8 * t.bytes) : Nat) : Int) = 2 ^ (8 * t.bytes) := by norm_cast
  rw [toNat_following .call hpc, hsize, t.patterns_eq]
  omega

-- What stands in the way of an instruction that was read from the program is what the rules say of
-- the program's bytes.
theorem refusal?_eq_operandRule? {m : Machine t} {i : Instruction t} {op : Opcode}
    (hpc : 0 ≤ m.pc.toInt)
    (hbytes : op.operands.flatMap i.operandOctets = m.bytesAt 1 (op.size t.bytes - 1)) :
    m.refusal? op i (m.following op) = m.operandRule? op := by
  have hobstacle : m.obstacle? op i (m.following op) = m.operationRule? op := by
    cases op
    case ld | st =>
      have haddress := address_eq_addressAt (by decide) hbytes
      have hwide : i.address.toUInt64 = UInt64.ofNat i.address.toNat := by
        apply UInt64.toNat_inj.mp
        have hlt := i.address.toNat_lt
        rw [UInt32.toNat_toUInt64, UInt64.toNat_ofNat']
        omega
      simp only [obstacle?, operationRule?, hwide, haddress]
    case div | mod =>
      have hthird := third_eq_registersAt (by decide) hbytes
      simp only [obstacle?, operationRule?, hthird]
    case call => simp only [obstacle?, operationRule?, returnAddress_iff hpc]
    all_goals rfl
  rw [refusal?, registerIds_eq_registersAt hbytes, hobstacle, Registers.firstInvalid?]
  rfl

-- An instruction that lies in the program as a whole is read, and then only the last two rules can
-- stop it.
theorem tick_stop_of_whole {m : Machine t} {op : Opcode} (hrun : m.status = .running)
    (hlimit : m.limitReached = false) (hin : ¬(m.pc.toInt < 0 ∨ m.program.size ≤ m.pc.toInt))
    (hop : Opcode.ofByte? m.opcodeByte = some op)
    (hwhole : ¬m.program.size - m.pc.toInt.toNat < op.size t.bytes) :
    m.tick.stop =
      (m.operandRule? op).map fun cause => .fault ⟨m.pc, m.opcodeByte, m.steps, cause⟩ := by
  have hdecode := decode_of_inside (t := t) hin
  rw [← opcodeByte, hop] at hdecode
  simp only [if_neg hwhole] at hdecode
  have hcode := Instruction.setOperands_code (Instruction.blank t m.opcodeByte) op.operands
    (m.program.extract (m.pc.toInt.toNat + 1) (m.pc.toInt.toNat + op.size t.bytes)).toList
  generalize (Instruction.blank t m.opcodeByte).setOperands op.operands
    (m.program.extract (m.pc.toInt.toNat + 1)
      (m.pc.toInt.toNat + op.size t.bytes)).toList = i at hdecode hcode
  have hcode' : i.code = m.opcodeByte := hcode
  rw [← hcode'] at hop
  have hbytes := Instruction.decode_operandOctets hdecode hop
  rw [tick_decode_ok hrun hlimit hdecode hop, ← refusal?_eq_operandRule? (by omega) hbytes,
    ← hcode']
  cases m.refusal? op i (m.following op) <;> rfl

-- A running machine goes on exactly if no rule applies, and fails for the first that does.
theorem tick_follows_first_rule (m : Machine t) (hrun : m.status = .running) :
    ∃ code, m.tick.stop = m.rule?.map fun cause => .fault ⟨m.pc, code, m.steps, cause⟩ := by
  rw [rule?]
  by_cases hlimit : 0 < m.maxSteps ∧ m.maxSteps ≤ m.steps
  · rw [if_pos hlimit, tick_limitReached hrun (by simpa [limitReached] using hlimit)]
    exact ⟨_, rfl⟩
  · rw [if_neg hlimit]
    have hlimit' : m.limitReached = false := by simpa [limitReached] using hlimit
    by_cases hout : m.pc.toInt < 0 ∨ m.program.size ≤ m.pc.toInt
    · rw [if_pos hout, tick_decode_error hrun hlimit' (decode_of_outside hout)]
      exact ⟨_, rfl⟩
    · rw [if_neg hout]
      have hdecode := decode_of_inside (t := t) hout
      rw [← opcodeByte] at hdecode
      cases hop : Opcode.ofByte? m.opcodeByte with
      | none =>
        simp only [hop] at hdecode
        rw [tick_decode_error hrun hlimit' hdecode]
        exact ⟨_, rfl⟩
      | some op =>
        simp only [hop] at hdecode ⊢
        by_cases hshort : m.program.size - m.pc.toInt.toNat < op.size t.bytes
        · rw [if_pos hshort] at hdecode ⊢
          rw [tick_decode_error hrun hlimit' hdecode]
          exact ⟨_, rfl⟩
        · rw [if_neg hshort]
          exact ⟨_, tick_stop_of_whole hrun hlimit' hout hop hshort⟩

-- At a call with no room on the stack, so far back that the offset behind it is no byte either.
def calling : Machine ⟨.one, true⟩ where
  registers := ⟨#[0]⟩
  flags := .clear
  stack := ⟨#[1], 1⟩
  memory := ⟨#[]⟩
  program := Array.replicate 251 0 ++ #[0x16, 0, 0, 0, 0]
  pc := 251
  steps := 9
  status := .running
  maxSteps := 10
  verbose := false

theorem tick_follows_first_rule_calling :
    calling.status = .running ∧ calling.rule? = some .returnAddress ∧
      ∃ code, calling.tick.stop = some (.fault ⟨251, code, 9, .returnAddress⟩) := by
  have hrule : calling.rule? = some .returnAddress := by decide +kernel
  obtain ⟨code, hstop⟩ := tick_follows_first_rule calling rfl
  rw [hrule] at hstop
  exact ⟨rfl, hrule, code, hstop⟩

end Machine

end RegisterMachine
