import RegisterMachine.Machine.Run
import RegisterMachine.Proofs.WordBits

namespace RegisterMachine

variable {t : WordType}

namespace Instruction

-- The register id in an operand field, if the field holds one.
def register? (i : Instruction t) : Operand → Option UInt8
  | .first => some i.first
  | .second => some i.second
  | .third => some i.third
  | .address | .word => none

-- The register ids that the layout of an opcode names, in encoding order.
def registerIds (i : Instruction t) (op : Opcode) : List UInt8 := op.operands.filterMap i.register?

end Instruction

namespace Registers

-- The contents of a register; zero for an id that names none.
def value (registers : Registers t) (id : UInt8) : Word t := registers.values.getD id.toNat 0

-- The first of some ids that names no register.
def firstInvalid? (registers : Registers t) (ids : List UInt8) : Option UInt8 :=
  ids.find? fun id => registers.values.size ≤ id.toNat

theorem firstInvalid?_cons_of_lt {registers : Registers t} {id : UInt8} (ids : List UInt8)
    (h : id.toNat < registers.values.size) :
    registers.firstInvalid? (id :: ids) = registers.firstInvalid? ids := by
  simp [firstInvalid?, h]

theorem firstInvalid?_cons_of_le {registers : Registers t} {id : UInt8} (ids : List UInt8)
    (h : registers.values.size ≤ id.toNat) : registers.firstInvalid? (id :: ids) = some id := by
  simp [firstInvalid?, h]

@[simp]
theorem firstInvalid?_nil (registers : Registers t) : registers.firstInvalid? [] = none := rfl

end Registers

namespace Machine

-- Why an instruction whose registers are all there cannot be carried out. The return address is
-- looked at before the room for it.
def obstacle? (op : Opcode) (i : Instruction t) (next : Int64) (m : Machine t) : Option Cause :=
  match op with
  | .ld | .st =>
    if m.memory.size < i.address.toNat + t.bytes then
      some (.outOfBounds i.address.toUInt64 t.bytes)
    else none
  | .div | .mod => if m.registers.value i.third = 0 then some .divisionByZero else none
  | .pushreg => if m.stack.capacity ≤ m.stack.words.size then some .stackOverflow else none
  | .popreg | .ret => if m.stack.words.size = 0 then some .stackUnderflow else none
  | .call =>
    if t.patterns ≤ next.toUInt64.toNat then some .returnAddress
    else if m.stack.capacity ≤ m.stack.words.size then some .stackOverflow
    else none
  | _ => none

-- Why an instruction cannot be carried out: its registers come first, in encoding order.
def refusal? (op : Opcode) (i : Instruction t) (next : Int64) (m : Machine t) : Option Cause :=
  match m.registers.firstInvalid? (i.registerIds op) with
  | some id => some (.invalidRegister id)
  | none => m.obstacle? op i next

-- The value that an instruction computes from registers, if it computes one.
def result (op : Opcode) (i : Instruction t) (m : Machine t) : Word t :=
  let a := m.registers.value i.second
  match op with
  | .not => ~~~ a
  | .inc => m.registers.value i.first + 1
  | .dec => m.registers.value i.first - 1
  | _ =>
    match compute op a (m.registers.value i.third) with
    | .ok value => value
    | .error _ => 0

-- Takes a computed value over into its register and the flags, and goes on.
def settle (m : Machine t) (dest : UInt8) (value : Word t) (next : Int64) : Machine t :=
  { m with registers := m.registers.put dest value, flags := .ofInt value.value, pc := next }

-- The word on top of the stack, zero for an empty one.
def top (m : Machine t) : Word t := m.stack.words.back?.getD 0

-- All that an instruction does to a machine on which nothing stands in its way.
def effect (op : Opcode) (i : Instruction t) (next : Int64) (m : Machine t) : Machine t :=
  match op with
  | .nop => { m with pc := next }
  | .mov => { m with registers := m.registers.put i.first i.value, pc := next }
  | .ld =>
    let bytes := m.memory.bytes.extract i.address.toNat (i.address.toNat + t.bytes)
    { m with registers := m.registers.put i.first (Word.ofOctets t bytes.toList), pc := next }
  | .st =>
    { m with
      memory := m.memory.put i.address.toNat (m.registers.value i.first).toOctets, pc := next }
  | .and | .or | .xor | .add | .sub | .mult | .div | .mod | .not | .inc | .dec =>
    m.settle i.first (m.result op i) next
  | .cmp =>
    let difference := m.registers.value i.first - m.registers.value i.second
    { m with flags := .ofInt difference.value, pc := next }
  | .pushreg => { m with stack := m.stack.add (m.registers.value i.first), pc := next }
  | .popreg =>
    { m with registers := m.registers.put i.first m.top, stack := m.stack.drop, pc := next }
  | .jmp => { m with pc := target i }
  | .jmpz => { m with pc := if m.flags.zero then target i else next }
  | .jmpn => { m with pc := if m.flags.negative then target i else next }
  | .jmpp => { m with pc := if m.flags.positive then target i else next }
  | .call =>
    { m with stack := m.stack.add (BitVec.ofNat t.bits next.toUInt64.toNat), pc := target i }
  | .ret => { m with stack := m.stack.drop, pc := m.top.toAddress.toInt64 }
  | .clf => { m with flags := .clear, pc := next }
  | .hlt => { m with status := .halted }

-- An action on a machine goes on with what the one before it left.
theorem bind_apply {α β : Type} (x : Action t α) (f : α → Action t β) (m : Machine t) :
    (x >>= f) m =
      match x m with
      | .ok a m => f a m
      | .error cause m => .error cause m := by
  simp only [bind, EStateM.bind]
  cases x m <;> rfl

theorem checkRegister_apply (id : UInt8) (m : Machine t) :
    checkRegister id m =
      if id.toNat < m.registers.values.size then .ok () m
      else .error (.invalidRegister id) m := by
  change (attempt (m.registers.check id) : Action t Unit) m = _
  unfold Registers.check
  split_ifs <;> rfl

theorem readRegister_apply (id : UInt8) (m : Machine t) :
    readRegister id m =
      if id.toNat < m.registers.values.size then .ok (m.registers.value id) m
      else .error (.invalidRegister id) m := by
  change (attempt (m.registers.read id) : Action t (Word t)) m = _
  unfold Registers.read
  split_ifs with h
  · simp only [Registers.value, Array.getD, h, dite_true]
    rfl
  · rfl

theorem writeRegister_apply (id : UInt8) (value : Word t) (m : Machine t) :
    writeRegister id value m =
      if id.toNat < m.registers.values.size then
        .ok () { m with registers := m.registers.put id value }
      else .error (.invalidRegister id) m := by
  simp only [writeRegister, bind_apply, checkRegister_apply]
  split_ifs <;> rfl

theorem pushWord_apply (value : Word t) (m : Machine t) :
    pushWord value m =
      if m.stack.capacity ≤ m.stack.words.size then .error .stackOverflow m
      else .ok () { m with stack := m.stack.add value } := by
  have hroom : (attempt m.stack.checkRoom : Action t Unit) m =
      if m.stack.capacity ≤ m.stack.words.size then .error .stackOverflow m else .ok () m := by
    simp only [Stack.checkRoom, Stack.isFull, decide_eq_true_eq]
    split_ifs <;> rfl
  change (attempt m.stack.checkRoom >>= fun _ => modify _ : Action t Unit) m = _
  rw [bind_apply, hroom]
  split_ifs <;> rfl

theorem popWord_apply (m : Machine t) :
    popWord m =
      if m.stack.words.size = 0 then .error .stackUnderflow m
      else .ok m.top { m with stack := m.stack.drop } := by
  change (attempt m.stack.peek >>= fun value => _ : Action t (Word t)) m = _
  rw [bind_apply]
  unfold Stack.peek top
  cases htop : m.stack.words.back? with
  | none =>
    have hsize : m.stack.words.size = 0 := by simpa using htop
    rw [if_pos hsize]
    rfl
  | some value =>
    have hsize : m.stack.words.size ≠ 0 := by
      intro hempty
      rw [Array.back?_eq_none_iff.mpr (Array.size_eq_zero_iff.mp hempty)] at htop
      cases htop
    rw [if_neg hsize]
    rfl

theorem loadWord_apply (address : UInt32) (m : Machine t) :
    loadWord address m =
      if m.memory.size < address.toNat + t.bytes then
        .error (.outOfBounds address.toUInt64 t.bytes) m
      else
        .ok (Word.ofOctets t
          (m.memory.bytes.extract address.toNat (address.toNat + t.bytes)).toList) m := by
  change (attempt (m.memory.loadWord t address) : Action t (Word t)) m = _
  by_cases h : m.memory.size < address.toNat + t.bytes
  · rw [if_pos h]
    simp only [Memory.loadWord, Memory.read, Memory.check, UInt32.toNat_toUInt64,
      if_neg (Nat.not_le_of_lt h)]
    rfl
  · rw [if_neg h]
    simp only [Memory.loadWord, Memory.read, Memory.check, UInt32.toNat_toUInt64,
      if_pos (Nat.le_of_not_lt h)]
    rfl

theorem storeWord_apply (address : UInt32) (value : Word t) (m : Machine t) :
    storeWord address value m =
      if m.memory.size < address.toNat + t.bytes then
        .error (.outOfBounds address.toUInt64 t.bytes) m
      else .ok () { m with memory := m.memory.put address.toNat value.toOctets } := by
  change (attempt (m.memory.check address.toUInt64 t.bytes) >>= fun _ => modify _ :
    Action t Unit) m = _
  rw [bind_apply]
  unfold Memory.check
  rw [UInt32.toNat_toUInt64]
  by_cases h : m.memory.size < address.toNat + t.bytes
  · rw [if_pos h, if_neg (Nat.not_le_of_lt h)]
    rfl
  · rw [if_neg h, if_pos (Nat.le_of_not_lt h)]
    rfl

theorem jump_apply (pc : Int64) (m : Machine t) : jump pc m = .ok () { m with pc } := rfl

theorem setFlags_apply (flags : Flags) (m : Machine t) :
    setFlags flags m = .ok () { m with flags } := rfl

-- What is computed goes into a register that was checked before.
theorem setResult_apply {dest : UInt8} {m : Machine t} (value : Word t)
    (h : dest.toNat < m.registers.values.size) :
    setResult dest value m =
      .ok () { m with registers := m.registers.put dest value, flags := .ofInt value.value } := by
  simp only [setResult, bind_apply, setFlags_apply, writeRegister_apply, if_pos h]

-- The outcome of an instruction: it is refused with the machine as it was, or carried out.
def outcome (op : Opcode) (i : Instruction t) (next : Int64) (m : Machine t) :
    EStateM.Result Cause (Machine t) Unit :=
  match m.refusal? op i next with
  | some cause => .error cause m
  | none => .ok () (m.effect op i next)

theorem outcome_of_invalid {op : Opcode} {i : Instruction t} {next : Int64} {m : Machine t}
    {id : UInt8} (h : m.registers.firstInvalid? (i.registerIds op) = some id) :
    m.outcome op i next = .error (.invalidRegister id) m := by
  simp only [outcome, refusal?, h]

theorem outcome_of_valid {op : Opcode} {i : Instruction t} {next : Int64} {m : Machine t}
    (h : m.registers.firstInvalid? (i.registerIds op) = none) :
    m.outcome op i next =
      match m.obstacle? op i next with
      | some cause => .error cause m
      | none => .ok () (m.effect op i next) := by
  simp only [outcome, refusal?, h]

-- An instruction without registers has nothing to check but what its own operation needs.
private theorem execute_none {op : Opcode} {i : Instruction t}
    (hop : Opcode.ofByte? i.code = some op) (hnone : i.registerIds op = [])
    (next : Int64) (m : Machine t) : execute i next m = m.outcome op i next := by
  have hids : m.registers.firstInvalid? (i.registerIds op) = none := by
    rw [hnone, Registers.firstInvalid?_nil]
  rw [outcome_of_valid hids]
  cases op
  case call =>
    simp only [execute, hop, obstacle?, Word.ofAddress?_eq]
    by_cases h : next.toUInt64.toNat < t.patterns
    · simp only [if_pos h, if_neg (Nat.not_le_of_lt h), bind_apply, pushWord_apply]
      split_ifs <;> rfl
    · simp only [if_neg h, if_pos (Nat.le_of_not_lt h)]
      rfl
  case ret =>
    simp only [execute, hop, obstacle?, bind_apply, popWord_apply]
    split_ifs <;> rfl
  case nop | jmp | jmpz | jmpn | jmpp | clf | hlt =>
    simp only [execute, hop]
    rfl
  all_goals cases hnone

private theorem execute_one {op : Opcode} {i : Instruction t}
    (hop : Opcode.ofByte? i.code = some op) (hone : i.registerIds op = [i.first])
    (next : Int64) (m : Machine t) : execute i next m = m.outcome op i next := by
  by_cases h : i.first.toNat < m.registers.values.size
  · have hids : m.registers.firstInvalid? (i.registerIds op) = none := by
      rw [hone, Registers.firstInvalid?_cons_of_lt _ h, Registers.firstInvalid?_nil]
    rw [outcome_of_valid hids]
    cases op
    case mov =>
      simp only [execute, hop, bind_apply, writeRegister_apply, if_pos h]
      rfl
    case ld =>
      simp only [execute, hop, obstacle?, bind_apply, checkRegister_apply, loadWord_apply, if_pos h]
      split_ifs
      · rfl
      · simp only [writeRegister_apply, if_pos h]
        rfl
    case st =>
      simp only [execute, hop, obstacle?, bind_apply, readRegister_apply, storeWord_apply, if_pos h]
      split_ifs <;> rfl
    case inc | dec =>
      simp only [execute, hop, obstacle?, bind_apply, readRegister_apply, setResult_apply _ h,
        if_pos h]
      rfl
    case pushreg =>
      simp only [execute, hop, obstacle?, bind_apply, readRegister_apply, pushWord_apply, if_pos h]
      split_ifs <;> rfl
    case popreg =>
      simp only [execute, hop, obstacle?, bind_apply, checkRegister_apply, popWord_apply, if_pos h]
      split_ifs
      · rfl
      · simp only [writeRegister_apply, if_pos h]
        rfl
    all_goals cases hone
  · have hids : m.registers.firstInvalid? (i.registerIds op) = some i.first := by
      rw [hone, Registers.firstInvalid?_cons_of_le _ (Nat.le_of_not_lt h)]
    rw [outcome_of_invalid hids]
    cases op
    case mov | ld | st | inc | dec | pushreg | popreg =>
      simp only [execute, hop, bind_apply, checkRegister_apply, readRegister_apply,
        writeRegister_apply, if_neg h]
    all_goals cases hone

private theorem execute_two {op : Opcode} {i : Instruction t}
    (hop : Opcode.ofByte? i.code = some op) (htwo : i.registerIds op = [i.first, i.second])
    (next : Int64) (m : Machine t) : execute i next m = m.outcome op i next := by
  by_cases h : i.first.toNat < m.registers.values.size
  · by_cases h' : i.second.toNat < m.registers.values.size
    · have hids : m.registers.firstInvalid? (i.registerIds op) = none := by
        rw [htwo, Registers.firstInvalid?_cons_of_lt _ h, Registers.firstInvalid?_cons_of_lt _ h',
          Registers.firstInvalid?_nil]
      rw [outcome_of_valid hids]
      cases op
      case not =>
        simp only [execute, hop, obstacle?, bind_apply, checkRegister_apply, readRegister_apply,
          setResult_apply _ h, if_pos h, if_pos h']
        rfl
      case cmp =>
        simp only [execute, hop, obstacle?, bind_apply, readRegister_apply, if_pos h, if_pos h']
        rfl
      all_goals cases htwo
    · have hids : m.registers.firstInvalid? (i.registerIds op) = some i.second := by
        rw [htwo, Registers.firstInvalid?_cons_of_lt _ h,
          Registers.firstInvalid?_cons_of_le _ (Nat.le_of_not_lt h')]
      rw [outcome_of_invalid hids]
      cases op
      case not | cmp =>
        simp only [execute, hop, bind_apply, checkRegister_apply, readRegister_apply, if_pos h,
          if_neg h']
      all_goals cases htwo
  · have hids : m.registers.firstInvalid? (i.registerIds op) = some i.first := by
      rw [htwo, Registers.firstInvalid?_cons_of_le _ (Nat.le_of_not_lt h)]
    rw [outcome_of_invalid hids]
    cases op
    case not | cmp =>
      simp only [execute, hop, bind_apply, checkRegister_apply, readRegister_apply, if_neg h]
    all_goals cases htwo

-- The checks of a three register instruction, in the order of its operands.
theorem arithmetic_apply (op : Opcode) (i : Instruction t) (m : Machine t) :
    arithmetic op i m =
      match m.registers.firstInvalid? [i.first, i.second, i.third] with
      | some id => .error (.invalidRegister id) m
      | none =>
        match compute op (m.registers.value i.second) (m.registers.value i.third) with
        | .error cause => .error cause m
        | .ok value =>
          .ok ()
            { m with registers := m.registers.put i.first value, flags := .ofInt value.value } := by
  simp only [arithmetic, bind_apply, checkRegister_apply, readRegister_apply]
  by_cases h₁ : i.first.toNat < m.registers.values.size
  · rw [Registers.firstInvalid?_cons_of_lt _ h₁]
    simp only [if_pos h₁]
    by_cases h₂ : i.second.toNat < m.registers.values.size
    · rw [Registers.firstInvalid?_cons_of_lt _ h₂]
      simp only [if_pos h₂]
      by_cases h₃ : i.third.toNat < m.registers.values.size
      · rw [Registers.firstInvalid?_cons_of_lt _ h₃, Registers.firstInvalid?_nil]
        simp only [if_pos h₃]
        cases compute op (m.registers.value i.second) (m.registers.value i.third) with
        | error cause => rfl
        | ok value => exact setResult_apply value h₁
      · rw [Registers.firstInvalid?_cons_of_le _ (Nat.le_of_not_lt h₃)]
        simp only [if_neg h₃]
    · rw [Registers.firstInvalid?_cons_of_le _ (Nat.le_of_not_lt h₂)]
      simp only [if_neg h₂]
  · rw [Registers.firstInvalid?_cons_of_le _ (Nat.le_of_not_lt h₁)]
    simp only [if_neg h₁]

private theorem execute_three {op : Opcode} {i : Instruction t}
    (hop : Opcode.ofByte? i.code = some op)
    (hthree : i.registerIds op = [i.first, i.second, i.third])
    (next : Int64) (m : Machine t) : execute i next m = m.outcome op i next := by
  have harith : execute i next m = (arithmetic op i >>= fun _ => jump next : Action t Unit) m := by
    simp only [execute, hop]
    cases op
    case and | or | xor | add | sub | mult | div | mod => rfl
    all_goals cases hthree
  rw [harith, bind_apply, arithmetic_apply, ← hthree]
  cases hids : m.registers.firstInvalid? (i.registerIds op) with
  | some id => rw [outcome_of_invalid hids]
  | none =>
    rw [outcome_of_valid hids]
    cases op
    case div | mod =>
      simp only [obstacle?, compute]
      split_ifs with hzero
      · rfl
      · simp only [jump_apply, effect, settle, result, compute, if_neg hzero]
    case and | or | xor | add | sub | mult => rfl
    all_goals cases hthree

-- Every instruction checks all that can stand in its way before it changes anything.
theorem execute_eq_outcome {op : Opcode} {i : Instruction t}
    (hop : Opcode.ofByte? i.code = some op) (next : Int64) (m : Machine t) :
    execute i next m = m.outcome op i next := by
  cases op
  case nop | jmp | jmpn | jmpp | jmpz | call | ret | clf | hlt => exact execute_none hop rfl next m
  case mov | ld | st | inc | dec | pushreg | popreg => exact execute_one hop rfl next m
  case not | cmp => exact execute_two hop rfl next m
  case and | or | xor | add | sub | mult | div | mod => exact execute_three hop rfl next m

theorem execute_unassigned {i : Instruction t} (hop : Opcode.ofByte? i.code = none)
    (next : Int64) (m : Machine t) : execute i next m = .error (.invalidOpcode i.code) m := by
  simp only [execute, hop]
  rfl

end Machine

end RegisterMachine
