import RegisterMachine.Proofs.Arithmetic
import RegisterMachine.Proofs.FreshStart
import RegisterMachine.Proofs.MemoryHistory

namespace RegisterMachine

variable {t : WordType}

namespace Opcode

-- The instructions that may change a register.
def writing : List Opcode := [.mov, .ld, .popreg] ++ computing

-- The instructions that may change the flags.
def flagging : List Opcode := [.cmp, .clf] ++ computing

-- Whether an instruction goes to its address operand.
def jumps (flags : Flags) : Opcode → Bool
  | .jmp | .call => true
  | .jmpz => flags.zero
  | .jmpn => flags.negative
  | .jmpp => flags.positive
  | _ => false

end Opcode

namespace Machine

-- All that an instruction may change, part by part, and where it leads.
structure Frame (op : Opcode) (i : Instruction t) (next : Int64) (m m' : Machine t) : Prop where
  registers : ∀ k, m'.registers.values[k]? ≠ m.registers.values[k]? →
    op ∈ Opcode.writing ∧ k = i.first.toNat
  flags : m'.flags ≠ m.flags → op ∈ Opcode.flagging
  memory : ∀ k, m'.memory.bytes[k]? ≠ m.memory.bytes[k]? →
    op = .st ∧ i.address.toNat ≤ k ∧ k < i.address.toNat + t.bytes
  stack : m'.stack ≠ m.stack → op ∈ [.pushreg, .call, .popreg, .ret]
  pushed : op = .pushreg →
    ∃ w, m'.stack.words = m.stack.words.push w ∧ m.registers.values[i.first.toNat]? = some w
  called : op = .call →
    ∃ w, m'.stack.words = m.stack.words.push w ∧ w.toNat = next.toUInt64.toNat
  popped : op = .popreg →
    ∃ w, m.stack.words = m'.stack.words.push w ∧ m'.registers.values[i.first.toNat]? = some w
  returned : op = .ret →
    ∃ w, m.stack.words = m'.stack.words.push w ∧ m'.pc = .ofNat w.toNat
  status : m'.status ≠ m.status → op = .hlt
  fixed : m'.steps = m.steps ∧ m'.program = m.program ∧ m'.sizes = m.sizes
  settings : m'.maxSteps = m.maxSteps ∧ m'.verbose = m.verbose
  jumped : op.jumps m.flags = true → m'.pc.toInt = i.address.toNat
  halted : op = .hlt → m'.pc = m.pc
  passed : op.jumps m.flags = false → op ∉ [.ret, .hlt] → m'.pc = next

theorem effect_registers (op : Opcode) (i : Instruction t) (next : Int64) (m : Machine t) :
    (m.effect op i next).registers = m.registers ∨
      op ∈ Opcode.writing ∧
        ∃ w, (m.effect op i next).registers = m.registers.put i.first w := by
  cases op
  case mov | ld | popreg | and | or | xor | add | sub | mult | div | mod | not | inc | dec =>
    exact .inr ⟨by decide, _, rfl⟩
  all_goals exact .inl rfl

theorem effect_flags_of_not_mem {op : Opcode} (h : op ∉ Opcode.flagging) (i : Instruction t)
    (next : Int64) (m : Machine t) : (m.effect op i next).flags = m.flags := by
  cases op
  case cmp | clf | and | or | xor | add | sub | mult | div | mod | not | inc | dec =>
    exact absurd (by decide) h
  all_goals rfl

theorem effect_memory (op : Opcode) (i : Instruction t) (next : Int64) (m : Machine t) :
    (m.effect op i next).memory = m.memory ∨
      op = .st ∧ ∃ w : Word t,
        (m.effect op i next).memory = m.memory.put i.address.toNat w.toOctets := by
  cases op
  case st => exact .inr ⟨rfl, _, rfl⟩
  all_goals exact .inl rfl

theorem effect_stack_of_not_mem {op : Opcode} (h : op ∉ [.pushreg, .call, .popreg, .ret])
    (i : Instruction t) (next : Int64) (m : Machine t) :
    (m.effect op i next).stack = m.stack := by
  cases op
  case pushreg | call | popreg | ret => exact absurd (by decide) h
  all_goals rfl

theorem effect_pc_of_jumps {op : Opcode} {m : Machine t} (h : op.jumps m.flags = true)
    (i : Instruction t) (next : Int64) : (m.effect op i next).pc = target i := by
  cases op
  case jmp | call => rfl
  case jmpz | jmpn | jmpp => exact if_pos h
  all_goals cases h

theorem effect_pc_of_passes {op : Opcode} {m : Machine t} (h : op.jumps m.flags = false)
    (hstay : op ∉ [.ret, .hlt]) (i : Instruction t) (next : Int64) :
    (m.effect op i next).pc = next := by
  cases op
  case jmp | call => cases h
  case jmpz | jmpn | jmpp => exact if_neg (by simpa [Opcode.jumps] using h)
  case ret | hlt => exact absurd (by decide) hstay
  all_goals rfl

theorem effect_status_of_ne {op : Opcode} (h : op ≠ .hlt) (i : Instruction t) (next : Int64)
    (m : Machine t) : (m.effect op i next).status = m.status := by
  cases op
  case hlt => exact absurd rfl h
  all_goals rfl

theorem words_eq_push {m : Machine t} (h : m.stack.words.size ≠ 0) :
    m.stack.words = m.stack.drop.words.push m.top := by
  obtain ⟨below, w, hwords⟩ := Array.eq_push_of_size_ne_zero h
  rw [top, Stack.drop, hwords, Array.back?_push, Array.pop_push, Option.getD_some]

theorem getElem?_registers {m : Machine t} {id : UInt8} (h : id.toNat < m.registers.values.size) :
    m.registers.values[id.toNat]? = some (m.registers.value id) := by
  rw [Array.getElem?_eq_getElem h, Registers.value, Array.getD, dif_pos h]
  rfl

variable {op : Opcode} {i : Instruction t} {next : Int64} {m : Machine t}

theorem effect_pushed (hop : op = .pushreg) (h : m.refusal? op i next = none) :
    ∃ w, (m.effect op i next).stack.words = m.stack.words.push w ∧
      m.registers.values[i.first.toNat]? = some w := by
  subst hop
  obtain ⟨hids, -⟩ := refusal?_eq_none h
  exact ⟨_, rfl, getElem?_registers (hids i.first (.head _))⟩

theorem effect_called (hop : op = .call) (h : m.refusal? op i next = none) :
    ∃ w, (m.effect op i next).stack.words = m.stack.words.push w ∧
      w.toNat = next.toUInt64.toNat := by
  subst hop
  obtain ⟨-, hobstacle⟩ := refusal?_eq_none h
  simp only [obstacle?] at hobstacle
  split_ifs at hobstacle with hfits
  refine ⟨_, rfl, ?_⟩
  rw [BitVec.toNat_ofNat]
  exact Nat.mod_eq_of_lt (Nat.lt_of_not_le hfits)

theorem effect_popped (hop : op = .popreg) (h : m.refusal? op i next = none) :
    ∃ w, m.stack.words = (m.effect op i next).stack.words.push w ∧
      (m.effect op i next).registers.values[i.first.toNat]? = some w := by
  subst hop
  obtain ⟨hids, hobstacle⟩ := refusal?_eq_none h
  have hsize : m.stack.words.size ≠ 0 := by simpa [obstacle?] using hobstacle
  have hid := hids i.first (.head _)
  refine ⟨m.top, words_eq_push hsize, ?_⟩
  simp [effect, Registers.put, hid]

theorem effect_returned (hop : op = .ret) (h : m.refusal? op i next = none) :
    ∃ w, m.stack.words = (m.effect op i next).stack.words.push w ∧
      (m.effect op i next).pc = .ofNat w.toNat := by
  subst hop
  obtain ⟨-, hobstacle⟩ := refusal?_eq_none h
  have hsize : m.stack.words.size ≠ 0 := by simpa [obstacle?] using hobstacle
  exact ⟨m.top, words_eq_push hsize, congrArg UInt64.toInt64 m.top.toAddress_eq⟩

theorem effect_frame (h : m.refusal? op i next = none) :
    Frame op i next m (m.effect op i next) where
  registers := by
    intro k hk
    obtain hsame | ⟨hop, w, hput⟩ := effect_registers op i next m
    · exact absurd (by rw [hsame]) hk
    · refine ⟨hop, ?_⟩
      by_contra hne
      apply hk
      simp [hput, Registers.put, Ne.symm hne]
  flags := by
    intro hne
    by_contra hop
    exact hne (effect_flags_of_not_mem hop i next m)
  memory := by
    intro k hk
    obtain hsame | ⟨hop, w, hput⟩ := effect_memory op i next m
    · exact absurd (by rw [hsame]) hk
    · refine ⟨hop, ?_⟩
      by_contra hout
      apply hk
      rw [hput, Memory.put, Memory.getElem?_overwrite, if_neg]
      rw [Word.length_toOctets]
      omega
  stack := by
    intro hne
    by_contra hop
    exact hne (effect_stack_of_not_mem hop i next m)
  pushed hop := effect_pushed hop h
  called hop := effect_called hop h
  popped hop := effect_popped hop h
  returned hop := effect_returned hop h
  status := by
    intro hne
    by_contra hop
    exact hne (effect_status_of_ne hop i next m)
  fixed := ⟨effect_steps op i next m, by cases op <;> rfl, effect_sizes op i next m⟩
  settings := ⟨effect_maxSteps op i next m, by cases op <;> rfl⟩
  jumped hjumps := by rw [effect_pc_of_jumps hjumps, target, toInt_toInt64]
  halted := by
    rintro rfl
    rfl
  passed hjumps hstay := effect_pc_of_passes hjumps hstay i next

-- An instruction that is carried out changes only what it names.
theorem execution_framed (m m' : Machine t) (i : Instruction t) (next : Int64)
    (h : execute i next m = .ok () m') :
    ∃ op, Opcode.ofByte? i.code = some op ∧ Frame op i next m m' := by
  obtain ⟨op, hop, hrefusal, rfl⟩ := execute_ok h
  exact ⟨op, hop, effect_frame hrefusal⟩

-- A return to an offset that is negative as a signed word.
def returning : Machine ⟨.one, true⟩ := { dividing with stack := ⟨#[5, -56], 2⟩ }

theorem execution_framed_returning :
    ∃ m', execute ⟨0x17, 0, 0, 0, 0, 0⟩ 1 returning = .ok () m' ∧ m'.flags = returning.flags ∧
      ∃ w, returning.stack.words = m'.stack.words.push w ∧ m'.pc = .ofNat w.toNat ∧
        m'.pc = 200 := by
  have hexecute : execute ⟨0x17, 0, 0, 0, 0, 0⟩ 1 returning =
      .ok () { returning with stack := ⟨#[5], 2⟩, pc := 200 } := rfl
  obtain ⟨op, hop, hframe⟩ := execution_framed _ _ _ _ hexecute
  obtain rfl : op = .ret := Option.some.inj (hop.symm.trans (by decide))
  obtain ⟨w, hwords, hpc⟩ := hframe.returned rfl
  exact ⟨_, hexecute, by_contra fun hne => absurd (hframe.flags hne) (by decide), w, hwords, hpc,
    rfl⟩

end Machine

end RegisterMachine
