import RegisterMachine.Proofs.Simulation

namespace RegisterMachine

variable {t : WordType}

namespace Stack

-- The lowest words are out of reach of a push, and of a pop that leaves at least so many.
theorem take_add (stack : Stack t) (value : Word t) {depth : Nat}
    (h : depth ≤ stack.words.size) :
    (stack.add value).words.toList.take depth = stack.words.toList.take depth := by
  rw [add, Array.toList_push, List.take_append_of_le_length (by simpa using h)]

theorem take_drop (stack : Stack t) {depth : Nat} (h : depth ≤ stack.drop.words.size) :
    stack.drop.words.toList.take depth = stack.words.toList.take depth := by
  have hsize : stack.drop.words.size = stack.words.size - 1 := Array.size_pop
  rw [drop, Array.toList_pop, List.dropLast_eq_take, List.take_take, Array.length_toList,
    Nat.min_eq_left (by omega)]

end Stack

-- A word that holds an address is read as this address again, whatever the sign of the word.
theorem Word.toAddress_ofNat {address : UInt64} (h : address.toNat < t.patterns) :
    Word.toAddress (BitVec.ofNat t.bits address.toNat) = address := by
  have hlt : address.toNat < 2 ^ t.bits := h
  apply UInt64.toNat_inj.mp
  rw [toNat_toAddress, BitVec.toNat_ofNat, Nat.mod_eq_of_lt hlt]

namespace Machine

-- The next tick succeeds and carries out an instruction of the given opcode.
def Executes (m : Machine t) (op : Opcode) : Prop := m.tick.stop = none ∧ m.nextCode = op.byte

instance (m : Machine t) (op : Opcode) : Decidable (m.Executes op) :=
  inferInstanceAs (Decidable (_ ∧ _))

-- The instruction that is read begins with the byte at the program counter.
theorem nextCode_of_decode {m : Machine t} {i : Instruction t} {size : Nat}
    (h : Instruction.decode t m.program m.pc.toInt = .ok (i, size)) : m.nextCode = i.code := by
  obtain ⟨hpc, -, -⟩ := Instruction.decode_bounds h
  obtain ⟨op, -, -, hcode, -⟩ := Instruction.decode_ok h
  have hneg : ¬m.pc < 0 := by
    rw [Int64.lt_iff_toInt_lt]
    exact Int.not_lt.mpr hpc
  rw [nextCode, if_neg hneg, hcode, Option.getD_some]

theorem Executes.read {m : Machine t} {op : Opcode} (h : m.Executes op) :
    ∃ i, Instruction.decode t m.program m.pc.toInt = .ok (i, op.size t.bytes) ∧
      m.refusal? op i (m.following op) = none ∧ m.tick.machine = m.complete op i := by
  obtain ⟨hstop, hcode⟩ := h
  obtain ⟨op', i, -, hdecode, hop, hrefusal, htick⟩ := tick_success hstop
  rw [← nextCode_of_decode hdecode, hcode, Opcode.ofByte?_byte] at hop
  cases hop
  exact ⟨i, hdecode, hrefusal, htick⟩

theorem Executes.complete {m : Machine t} {op : Opcode} (h : m.Executes op) :
    ∃ i, 0 ≤ m.pc.toInt ∧ m.pc.toInt.toNat + op.size t.bytes ≤ m.program.size ∧
      m.refusal? op i (m.following op) = none ∧ m.tick.machine = m.complete op i := by
  obtain ⟨i, hdecode, hrefusal, htick⟩ := h.read
  obtain ⟨hpc, -, hsize⟩ := Instruction.decode_bounds hdecode
  exact ⟨i, hpc, hsize, hrefusal, htick⟩

-- Everything an instruction can do to the stack: one word more or one word less, on top.
theorem effect_stack (op : Opcode) (i : Instruction t) (next : Int64) (m : Machine t) :
    (m.effect op i next).stack = m.stack ∨ (m.effect op i next).stack = m.stack.drop ∨
      ∃ value, (m.effect op i next).stack = m.stack.add value := by
  cases op
  case pushreg | call => exact .inr (.inr ⟨_, rfl⟩)
  case popreg | ret => exact .inr (.inl rfl)
  all_goals exact .inl rfl

-- One tick keeps the lowest words as long as it leaves that many.
theorem tick_take {m : Machine t} {depth : Nat} (hstop : m.tick.stop = none)
    (hbefore : depth ≤ m.stack.words.size) (hafter : depth ≤ m.tick.machine.stack.words.size) :
    m.tick.machine.stack.words.toList.take depth = m.stack.words.toList.take depth := by
  obtain ⟨op, i, -, -, -, -, htick⟩ := tick_success hstop
  have hstack : m.tick.machine.stack = (m.effect op i (m.following op)).stack := by
    rw [htick]
    rfl
  rw [hstack] at hafter ⊢
  obtain hsame | hdrop | ⟨value, hadd⟩ := effect_stack op i (m.following op) m
  · rw [hsame]
  · rw [hdrop] at hafter ⊢
    exact Stack.take_drop m.stack hafter
  · rw [hadd]
    exact Stack.take_add m.stack value hbefore

-- So does every run that never goes below them. The depth is a bound for the whole run, so each
-- tick of it meets the condition of the step.
theorem after_take {m : Machine t} {n depth : Nat}
    (hticks : ∀ j < n, (m.after j).tick.stop = none)
    (hdepth : ∀ j ≤ n, depth ≤ (m.after j).stack.words.size) :
    (m.after n).stack.words.toList.take depth = m.stack.words.toList.take depth := by
  induction n with
  | zero => rfl
  | succ n ih =>
    have hnext := hdepth (n + 1) (Nat.le_refl _)
    have hrest := ih (fun j hj => hticks j (by omega)) (fun j hj => hdepth j (by omega))
    rw [after_succ_eq_tick] at hnext ⊢
    rw [tick_take (hticks n (by omega)) (hdepth n (by omega)) hnext, hrest]

theorem after_capacity (n : Nat) (m : Machine t) :
    (m.after n).stack.capacity = m.stack.capacity := by
  refine after_unchanged (fun m => m.stack.capacity) (fun _ _ => rfl) ?_ n m
  intro m op i
  cases op <;> rfl

-- A call leaves the offset behind it on the stack, as an address that its word can hold.
theorem Executes.call_stack {m : Machine t} (h : m.Executes .call) :
    (m.following .call).toUInt64.toNat < t.patterns ∧
      m.tick.machine.stack =
        m.stack.add (BitVec.ofNat t.bits (m.following .call).toUInt64.toNat) := by
  obtain ⟨i, -, -, hrefusal, htick⟩ := h.complete
  refine ⟨?_, by rw [htick]; rfl⟩
  by_contra hpatterns
  have hobstacle : m.refusal? .call i (m.following .call) = some .returnAddress :=
    if_pos (Nat.le_of_not_lt hpatterns)
  rw [hobstacle] at hrefusal
  cases hrefusal

-- A return takes such an address off the stack and goes there.
theorem Executes.ret_machine {m : Machine t} {stack : Stack t} {address : UInt64}
    (h : m.Executes .ret) (haddress : address.toNat < t.patterns)
    (hstack : m.stack = stack.add (BitVec.ofNat t.bits address.toNat)) :
    m.tick.machine.pc = address.toInt64 ∧ m.tick.machine.stack = stack := by
  obtain ⟨i, -, -, -, htick⟩ := h.complete
  have htop : m.top = BitVec.ofNat t.bits address.toNat := by
    rw [top, hstack, Stack.add, Array.back?_push, Option.getD_some]
  have hpc : m.tick.machine.pc = m.top.toAddress.toInt64 := by
    rw [htick]
    rfl
  have hdrop : m.tick.machine.stack = m.stack.drop := by
    rw [htick]
    rfl
  refine ⟨?_, ?_⟩
  · rw [hpc, htop, Word.toAddress_ofNat haddress]
  · rw [hdrop, hstack, Stack.drop, Stack.add, Array.pop_push]

-- Right before the return that belongs to a call, the stack is what the call made of it.
theorem after_stack_eq_add {m : Machine t} {n : Nat}
    (hticks : ∀ j < n, (m.after j).tick.stop = none) (hcall : m.Executes .call) (hn : 0 < n)
    (hsize : (m.after n).stack.words.size = m.stack.words.size + 1)
    (hdepth : ∀ j, 0 < j → j ≤ n → m.stack.words.size + 1 ≤ (m.after j).stack.words.size) :
    (m.after n).stack =
      m.stack.add (BitVec.ofNat t.bits (m.following .call).toUInt64.toNat) := by
  obtain ⟨k, rfl⟩ : ∃ k, n = k + 1 := ⟨n - 1, by omega⟩
  rw [after_succ] at hsize ⊢
  have hticks' : ∀ j < k, (m.tick.machine.after j).tick.stop = none :=
    fun j hj => hticks (j + 1) (by omega)
  have hdepth' : ∀ j ≤ k, m.stack.words.size + 1 ≤ (m.tick.machine.after j).stack.words.size :=
    fun j hj => hdepth (j + 1) (by omega) (by omega)
  rw [← hcall.call_stack.2]
  have hwords := after_take hticks' hdepth'
  have hlength : m.tick.machine.stack.words.size = m.stack.words.size + 1 := by
    rw [hcall.call_stack.2, Stack.add, Array.size_push]
  rw [List.take_of_length_le (by rw [Array.length_toList, hsize]),
    List.take_of_length_le (by rw [Array.length_toList, hlength])] at hwords
  have hcapacity := after_capacity k m.tick.machine
  generalize (m.tick.machine.after k).stack = before at hwords hcapacity
  cases before
  simp only at hwords hcapacity
  rw [Array.toList_inj.mp hwords, hcapacity]

-- Calls and returns are disciplined, although return addresses and data share one stack: what lies
-- below the lowest level of a run is untouched, so that a return on the level of its call comes
-- back behind it with the stack as it was. The machine is any, so also one that has run for a while
-- since it was loaded.
theorem call_return_discipline (m : Machine t) (n : Nat)
    (hticks : ∀ j < n, (m.after j).tick.stop = none) :
    (∀ depth, (∀ j ≤ n, depth ≤ (m.after j).stack.words.size) →
      (m.after n).stack.words.toList.take depth = m.stack.words.toList.take depth) ∧
    (m.Executes .call → (m.after n).Executes .ret →
      (m.after n).stack.words.size = m.stack.words.size + 1 →
      (∀ j, 0 < j → j ≤ n → m.stack.words.size + 1 ≤ (m.after j).stack.words.size) →
      (m.after (n + 1)).pc = m.pc + 5 ∧ (m.after (n + 1)).stack = m.stack ∧
        (m.program.size < 2 ^ 63 → (m.after (n + 1)).pc.toInt = m.pc.toInt + 5)) := by
  refine ⟨fun depth hdepth => after_take hticks hdepth, ?_⟩
  intro hcall hret hsize hdepth
  have hn : 0 < n := by
    by_contra hzero
    obtain rfl : n = 0 := by omega
    have hsame : Opcode.call.byte = Opcode.ret.byte := hcall.2.symm.trans hret.2
    exact absurd hsame (by decide)
  have hstack := after_stack_eq_add hticks hcall hn hsize hdepth
  obtain ⟨hpc, hrest⟩ := hret.ret_machine hcall.call_stack.1 hstack
  have hback : (m.after (n + 1)).pc = m.pc + 5 := by
    rw [after_succ_eq_tick, hpc]
    rfl
  refine ⟨hback, ?_, ?_⟩
  · rw [after_succ_eq_tick, hrest]
  · intro hprogram
    obtain ⟨i, hnonneg, hinside, -, -⟩ := hcall.complete
    have hcallsize : Opcode.call.size t.bytes = 5 := rfl
    rw [hback, Int64.toInt_add, show (5 : Int64).toInt = 5 from rfl]
    rw [Int.bmod_eq_of_le] <;> omega

-- At offset 200 a call of a routine that saves a register, calls another one and restores the
-- register. The offsets to come back to are negative as signed words.
def nesting : Machine ⟨.one, true⟩ where
  registers := ⟨#[42]⟩
  flags := .clear
  stack := ⟨#[7], 4⟩
  memory := ⟨#[]⟩
  program := Array.replicate 200 0 ++
    #[0x16, 208, 0, 0, 0, 0xff, 0, 0, 0x10, 0, 0x16, 220, 0, 0, 0, 0x11, 0, 0x17, 0, 0, 0x17]
  pc := 200
  steps := 0
  status := .running
  maxSteps := 0
  verbose := false

theorem call_return_discipline_nesting :
    (nesting.after 5).stack.words.toList.take 1 = [7] ∧
      (nesting.after 6).pc.toInt = 205 ∧ (nesting.after 6).stack = nesting.stack := by
  have hticks : ∀ j < 5, (nesting.after j).tick.stop = none := by decide +kernel
  have hdepth : ∀ j ≤ 5, 1 ≤ (nesting.after j).stack.words.size := by decide +kernel
  have hcall : nesting.Executes .call := by decide +kernel
  have hret : (nesting.after 5).Executes .ret := by decide +kernel
  have hsize : (nesting.after 5).stack.words.size = nesting.stack.words.size + 1 := by
    decide +kernel
  have hlevel : ∀ j ≤ 5, 0 < j →
      nesting.stack.words.size + 1 ≤ (nesting.after j).stack.words.size := by
    decide +kernel
  obtain ⟨hlow, hpair⟩ := call_return_discipline nesting 5 hticks
  obtain ⟨-, hstack, hpc⟩ := hpair hcall hret hsize fun j hpos hle => hlevel j hle hpos
  exact ⟨hlow 1 hdepth, hpc (by decide +kernel), hstack⟩

end Machine

end RegisterMachine
