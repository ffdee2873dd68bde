import RegisterMachine.Proofs.CallReturn
import RegisterMachine.Proofs.Simulation

namespace RegisterMachine

variable {t : WordType} {w : Width} {s s' : Bool}

-- The instructions that look at the sign of a word.
def Opcode.signed : List Opcode := [.div, .mod, .jmpn, .jmpp]

namespace Word

-- The same pattern, read with another sign.
def reread (s' : Bool) (x : Word ⟨w, s⟩) : Word ⟨w, s'⟩ := x

@[simp]
theorem toNat_reread (s' : Bool) (x : Word ⟨w, s⟩) :
    BitVec.toNat (x.reread s') = BitVec.toNat x := rfl

-- Bytes and addresses are those of the pattern.
theorem toOctets_reread (s' : Bool) (x : Word ⟨w, s⟩) : (x.reread s').toOctets = x.toOctets := by
  rw [toOctets_eq, toOctets_eq]
  rfl

theorem toAddress_reread (s' : Bool) (x : Word ⟨w, s⟩) :
    (x.reread s').toAddress = x.toAddress := by
  apply UInt64.toNat_inj.mp
  rw [toNat_toAddress, toNat_toAddress, toNat_reread]

theorem value_eq_zero_iff (x : Word ⟨w, s⟩) : x.value = 0 ↔ BitVec.toNat x = 0 := by
  have hlt := x.isLt
  cases s with
  | false => simp [value]
  | true =>
    rw [value, if_pos rfl, BitVec.toInt_eq_toNat_cond]
    split_ifs <;> omega

end Word

namespace Flags

-- Whether there is a result that the flags tell the sign of.
def anySet (flags : Flags) : Bool := flags.zero || flags.negative || flags.positive

@[simp]
theorem anySet_ofInt (n : Int) : (ofInt n).anySet = true := by
  simp only [anySet, ofInt, Bool.or_eq_true, beq_iff_eq, decide_eq_true_eq]
  omega

structure SameButSign (flags flags' : Flags) : Prop where
  zero : flags.zero = flags'.zero
  anySet : flags.anySet = flags'.anySet

theorem SameButSign.refl (flags : Flags) : flags.SameButSign flags := ⟨rfl, rfl⟩

theorem sameButSign_ofInt (s' : Bool) (x : Word ⟨w, s⟩) :
    (ofInt x.value).SameButSign (ofInt (x.reread s').value) := by
  have hzero : x.value = 0 ↔ (x.reread s').value = 0 := by
    rw [Word.value_eq_zero_iff, Word.value_eq_zero_iff, Word.toNat_reread]
  refine ⟨?_, by rw [anySet_ofInt, anySet_ofInt]⟩
  simp only [ofInt, Bool.beq_eq_decide_eq, hzero]

end Flags

namespace Instruction

def reread (s' : Bool) (i : Instruction ⟨w, s⟩) : Instruction ⟨w, s'⟩ :=
  ⟨i.code, i.first, i.second, i.third, i.value.reread s', i.address⟩

theorem setOperand_reread (s' : Bool) (i : Instruction ⟨w, s⟩) (bytes : Octets)
    (operand : Operand) :
    (i.reread s').setOperand bytes operand = (i.setOperand bytes operand).reread s' := by
  cases operand <;> rfl

theorem setOperands_reread (s' : Bool) (i : Instruction ⟨w, s⟩) (operands : List Operand)
    (bytes : Octets) :
    (i.reread s').setOperands operands bytes = (i.setOperands operands bytes).reread s' := by
  induction operands generalizing i bytes with
  | nil => rfl
  | cons operand rest ih =>
    rw [setOperands, setOperands, setOperand_reread]
    exact ih _ _

-- How an instruction is read does not depend on the sign of words.
theorem decode_reread (s' : Bool) (program : Array UInt8) (pc : Int) :
    decode ⟨w, s'⟩ program pc =
      (decode ⟨w, s⟩ program pc).map fun (i, size) => (i.reread s', size) := by
  unfold decode
  by_cases hneg : pc < 0
  · simp only [if_pos hneg]
    rfl
  · simp only [if_neg hneg]
    cases program[pc.toNat]? with
    | none => rfl
    | some code =>
      cases hop : Opcode.ofByte? code with
      | none =>
        simp only [hop]
        rfl
      | some op =>
        by_cases hshort : program.size - pc.toNat < op.size (WordType.bytes ⟨w, s⟩)
        · have hshort' : program.size - pc.toNat < op.size (WordType.bytes ⟨w, s'⟩) := hshort
          simp only [hop, if_pos hshort, if_pos hshort']
          rfl
        · have hshort' : ¬program.size - pc.toNat < op.size (WordType.bytes ⟨w, s'⟩) := hshort
          have hread := setOperands_reread s' (blank ⟨w, s⟩ code) op.operands
            (program.extract (pc.toNat + 1) (pc.toNat + op.size (WordType.bytes ⟨w, s⟩))).toList
          simp only [hop, if_neg hshort, if_neg hshort', Except.map]
          rw [← hread]
          rfl

end Instruction

namespace Machine

def reread (s' : Bool) (flags : Flags) (verbose : Bool) (m : Machine ⟨w, s⟩) :
    Machine ⟨w, s'⟩ where
  registers := ⟨m.registers.values⟩
  flags := flags
  stack := ⟨m.stack.words, m.stack.capacity⟩
  memory := m.memory
  program := m.program
  pc := m.pc
  steps := m.steps
  status := m.status
  maxSteps := m.maxSteps
  verbose := verbose

theorem refusal?_reread (s' : Bool) (flags : Flags) (verbose : Bool) (op : Opcode)
    (i : Instruction ⟨w, s⟩) (next : Int64) (m : Machine ⟨w, s⟩) :
    (m.reread s' flags verbose).refusal? op (i.reread s') next = m.refusal? op i next := by
  have hobstacle : (m.reread s' flags verbose).obstacle? op (i.reread s') next =
      m.obstacle? op i next := by
    cases op <;> rfl
  rw [refusal?, hobstacle]
  rfl

theorem verdict_reread (s' : Bool) (flags : Flags) (verbose : Bool) (m : Machine ⟨w, s⟩) :
    (m.reread s' flags verbose).verdict =
      m.verdict.map fun (op, i) => (op, i.reread s') := by
  have hread := Instruction.decode_reread (w := w) (s := s) s' m.program m.pc.toInt
  obtain hlimit | ⟨hlimit, cause, hdecode⟩ | ⟨hlimit, op, i, hdecode, hop⟩ := m.fetch_cases
  · rw [verdict_limitReached hlimit, verdict_limitReached (m := m.reread s' flags verbose) hlimit]
    rfl
  · rw [hdecode] at hread
    rw [verdict_decode_error hlimit hdecode,
      verdict_decode_error (m := m.reread s' flags verbose) hlimit hread]
    rfl
  · have hread' : Instruction.decode ⟨w, s'⟩ m.program m.pc.toInt =
        .ok (i.reread s', op.size (WordType.bytes ⟨w, s'⟩)) := by
      rw [hread, hdecode]
      rfl
    rw [verdict_decode_ok hlimit hdecode hop,
      verdict_decode_ok (m := m.reread s' flags verbose) hlimit hread' hop,
      show (m.reread s' flags verbose).following op = m.following op from rfl, refusal?_reread]
    cases m.refusal? op i (m.following op) <;> rfl

theorem effect_reread {op : Opcode} (hop : op ∉ Opcode.signed) {flags : Flags}
    {m : Machine ⟨w, s⟩} (hflags : m.flags.SameButSign flags) (s' : Bool) (verbose : Bool)
    (i : Instruction ⟨w, s⟩) (next : Int64) :
    ∃ flags', (m.effect op i next).flags.SameButSign flags' ∧
      (m.reread s' flags verbose).effect op (i.reread s') next =
        (m.effect op i next).reread s' flags' verbose := by
  -- A result sets the flags anew, from the same pattern on both sides; a jump on zero reads a flag
  -- that the two have in common.
  cases op
  case div | mod | jmpn | jmpp => exact absurd (by decide) hop
  case and | or | xor | add | sub | mult | not | inc | dec =>
    exact ⟨_, Flags.sameButSign_ofInt s' (m.result _ i), rfl⟩
  case cmp => exact ⟨_, Flags.sameButSign_ofInt s' (_ - _), rfl⟩
  case jmpz =>
    refine ⟨flags, hflags, ?_⟩
    simp only [effect, reread, ← hflags.zero]
    rfl
  case clf => exact ⟨.clear, .refl _, rfl⟩
  case st =>
    refine ⟨flags, hflags, ?_⟩
    have hoctets := (m.registers.value i.first).toOctets_reread s'
    rw [effect, effect, reread, ← hoctets]
    rfl
  case ret =>
    refine ⟨flags, hflags, ?_⟩
    have haddress := m.top.toAddress_reread s'
    rw [effect, effect, reread, ← haddress]
    rfl
  all_goals exact ⟨flags, hflags, rfl⟩

-- Two machines of one width that carry the same bits, whatever the signs that they read them with.
def Mirrors (a : Machine ⟨w, s⟩) (b : Machine ⟨w, s'⟩) : Prop :=
  ∃ flags verbose, a.flags.SameButSign flags ∧ b = a.reread s' flags verbose

theorem executes_of_verdict {m : Machine t} {op : Opcode} {i : Instruction t}
    (hrun : m.status = .running) (h : m.verdict = .ok (op, i)) : m.Executes op := by
  obtain ⟨-, hdecode, hop, -⟩ := verdict_ok h
  refine ⟨by rw [tick_of_verdict_ok hrun h], ?_⟩
  rw [nextCode_of_decode hdecode]
  exact (Opcode.byte_of_ofByte? hop).symm

theorem tick_mirrors {a : Machine ⟨w, s⟩} {b : Machine ⟨w, s'⟩} (h : a.Mirrors b)
    (hsigned : ∀ op ∈ Opcode.signed, ¬a.Executes op) : a.tick.machine.Mirrors b.tick.machine := by
  obtain ⟨flags, verbose, hflags, rfl⟩ := h
  have hstart : a.Mirrors (a.reread s' flags verbose) := ⟨flags, verbose, hflags, rfl⟩
  refine (tick_related hstart rfl rfl rfl ?_ ?_).1
  · intro code cause _ h
    refine ⟨?_, fun fault => ⟨flags, verbose, hflags, rfl⟩⟩
    rw [verdict_reread, h]
    rfl
  · intro op i hrun h
    have hop : op ∉ Opcode.signed := fun hmem => hsigned op hmem (executes_of_verdict hrun h)
    obtain ⟨flags', hflags', heffect⟩ := effect_reread hop hflags s' verbose i (a.following op)
    refine ⟨i.reread s', ?_, flags', verbose, hflags', ?_⟩
    · rw [verdict_reread, h]
      rfl
    · rw [complete, show (a.reread s' flags verbose).following op = a.following op from rfl,
        heffect]
      rfl

structure SameSizes {t t' : WordType} (a : Machine t) (b : Machine t') : Prop where
  registers : a.registers.values.size = b.registers.values.size
  capacity : a.stack.capacity = b.stack.capacity
  memory : a.memory.size = b.memory.size
  maxSteps : a.maxSteps = b.maxSteps

theorem load_mirrors {a : Machine ⟨w, s⟩} {b : Machine ⟨w, s'⟩} (h : a.SameSizes b)
    (program : Array UInt8) : (a.load program).Mirrors (b.load program) := by
  refine ⟨.clear, b.verbose, .refl _, ?_⟩
  simp only [load, Registers.reset, Stack.reset, Memory.reset, ← h.registers, ← h.capacity,
    ← h.memory, ← h.maxSteps]
  rfl

theorem after_mirrors {a : Machine ⟨w, s⟩} {b : Machine ⟨w, s'⟩} {n : Nat} (h : a.Mirrors b)
    (hsigned : ∀ j < n, ∀ op ∈ Opcode.signed, ¬(a.after j).Executes op) :
    (a.after n).Mirrors (b.after n) :=
  after_related (P := fun m => ∀ op ∈ Opcode.signed, ¬m.Executes op)
    (fun _ _ hmirrors hnone => tick_mirrors hmirrors hnone) h hsigned

-- What two machines of one width have in common if they differ only in how words are read: the
-- patterns of all words, the run state with its fault, and what the flags tell apart from a sign.
structure SameBits (a : Machine ⟨w, s⟩) (b : Machine ⟨w, s'⟩) : Prop where
  pc : a.pc = b.pc
  steps : a.steps = b.steps
  status : a.status = b.status
  memory : a.memory.bytes = b.memory.bytes
  zero : a.flags.zero = b.flags.zero
  anySet : a.flags.anySet = b.flags.anySet
  registers : a.registers.values.map BitVec.toNat = b.registers.values.map BitVec.toNat
  stack : a.stack.words.map BitVec.toNat = b.stack.words.map BitVec.toNat

theorem Mirrors.sameBits {a : Machine ⟨w, s⟩} {b : Machine ⟨w, s'⟩} (h : a.Mirrors b) :
    a.SameBits b := by
  obtain ⟨flags, verbose, hflags, rfl⟩ := h
  exact ⟨rfl, rfl, rfl, rfl, hflags.zero, hflags.anySet, rfl, rfl⟩

-- Signed and unsigned machines of one width run in lockstep as long as no instruction is carried
-- out that looks at a sign.
theorem signedness_lockstep (a : Machine ⟨w, s⟩) (b : Machine ⟨w, s'⟩) (hsizes : a.SameSizes b)
    (program : Array UInt8) (n : Nat)
    (hsigned : ∀ j < n, ∀ op ∈ Opcode.signed, ¬((a.load program).after j).Executes op) :
    ((a.load program).after n).SameBits ((b.load program).after n) :=
  (after_mirrors (load_mirrors hsizes program) hsigned).sameBits

def comparing (s : Bool) : Machine ⟨.one, s⟩ where
  registers := ⟨#[0, 0]⟩
  flags := .clear
  stack := ⟨#[], 1⟩
  memory := ⟨#[]⟩
  program := #[]
  pc := 0
  steps := 0
  status := .halted
  maxSteps := 0
  verbose := s

-- Compares all bits set with zero and saves the register.
def comparison : Array UInt8 := #[0x01, 0, 0xff, 0x08, 0, 1, 0x10, 0, 0xff]

theorem signedness_lockstep_comparing :
    (((comparing true).load comparison).after 4).flags.negative = true ∧
      (((comparing false).load comparison).after 4).flags.positive = true ∧
      (((comparing true).load comparison).after 4).status = .halted ∧
      (((comparing true).load comparison).after 4).SameBits
        (((comparing false).load comparison).after 4) := by
  have hsigned : ∀ j < 4, ∀ op ∈ Opcode.signed,
      ¬(((comparing true).load comparison).after j).Executes op := by
    decide +kernel
  refine ⟨by decide +kernel, by decide +kernel, by decide +kernel, ?_⟩
  exact signedness_lockstep (comparing true) (comparing false) ⟨rfl, rfl, rfl, rfl⟩ comparison 4
    hsigned

end Machine

end RegisterMachine
