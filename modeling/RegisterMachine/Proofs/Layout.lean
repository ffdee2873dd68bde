import RegisterMachine.Proofs.Effect
import RegisterMachine.Proofs.RoundTrip

namespace RegisterMachine

variable {t : WordType}

namespace Instruction

-- Two instructions have the same in an operand field.
def SameOperand (i j : Instruction t) : Operand → Prop
  | .first => i.first = j.first
  | .second => i.second = j.second
  | .third => i.third = j.third
  | .address => i.address = j.address
  | .word => i.value = j.value

-- Two instructions have the same opcode byte and the same in the fields that its layout names.
structure Agrees (i j : Instruction t) : Prop where
  code : i.code = j.code
  operands : ∀ op, Opcode.ofByte? i.code = some op → ∀ operand ∈ op.operands,
    i.SameOperand j operand

theorem trimmed_code (i : Instruction t) : i.trimmed.code = i.code := by
  unfold trimmed
  split <;> rfl

theorem trimmed_of_none {i : Instruction t} (hop : Opcode.ofByte? i.code = none) :
    i.trimmed = blank t i.code := by
  simp only [trimmed, hop]

theorem trimmed_of_some {i : Instruction t} {op : Opcode} (hop : Opcode.ofByte? i.code = some op) :
    i.trimmed =
      { code := i.code
        first := if .first ∈ op.operands then i.first else 0
        second := if .second ∈ op.operands then i.second else 0
        third := if .third ∈ op.operands then i.third else 0
        value := if .word ∈ op.operands then i.value else 0
        address := if .address ∈ op.operands then i.address else 0 } := by
  simp only [trimmed, hop]

-- Agreement is on what is left of the instructions when all other operands are zero.
theorem agrees_iff_trimmed {i j : Instruction t} : i.Agrees j ↔ i.trimmed = j.trimmed := by
  constructor
  · rintro ⟨hcode, hoperands⟩
    cases hop : Opcode.ofByte? i.code with
    | none => rw [trimmed_of_none hop, trimmed_of_none (hcode ▸ hop), hcode]
    | some op =>
      have hsame := hoperands op hop
      rw [trimmed_of_some hop, trimmed_of_some (hcode ▸ hop), Instruction.mk.injEq]
      exact ⟨hcode, ite_congr rfl (hsame .first) fun _ => rfl,
        ite_congr rfl (hsame .second) fun _ => rfl, ite_congr rfl (hsame .third) fun _ => rfl,
        ite_congr rfl (hsame .word) fun _ => rfl, ite_congr rfl (hsame .address) fun _ => rfl⟩
  · intro h
    have hcode : i.code = j.code := by rw [← i.trimmed_code, h, j.trimmed_code]
    refine ⟨hcode, ?_⟩
    intro op hop operand hmem
    rw [trimmed_of_some hop, trimmed_of_some (hcode ▸ hop), Instruction.mk.injEq] at h
    obtain ⟨-, hfirst, hsecond, hthird, hvalue, haddress⟩ := h
    cases operand with
    | first => rwa [if_pos hmem, if_pos hmem] at hfirst
    | second => rwa [if_pos hmem, if_pos hmem] at hsecond
    | third => rwa [if_pos hmem, if_pos hmem] at hthird
    | address => rwa [if_pos hmem, if_pos hmem] at haddress
    | word => rwa [if_pos hmem, if_pos hmem] at hvalue

theorem SameOperand.octets_eq {i j : Instruction t} {operand : Operand}
    (h : i.SameOperand j operand) : i.operandOctets operand = j.operandOctets operand := by
  cases operand <;> simp only [SameOperand] at h <;> simp only [operandOctets, h]

theorem SameOperand.text_eq {i j : Instruction t} {operand : Operand}
    (h : i.SameOperand j operand) : i.operandText operand = j.operandText operand := by
  cases operand <;> simp only [SameOperand] at h <;> simp only [operandText, h]

theorem Agrees.encode_eq {i j : Instruction t} (h : i.Agrees j) : i.encode = j.encode := by
  cases hop : Opcode.ofByte? i.code with
  | none => simp only [encode, ← h.code, hop]
  | some op =>
    have hbytes : op.operands.flatMap i.operandOctets = op.operands.flatMap j.operandOctets :=
      List.flatMap_congr fun operand hmem => (h.operands op hop operand hmem).octets_eq
    simp only [encode, ← h.code, hop, hbytes]

theorem Agrees.text_eq {i j : Instruction t} (h : i.Agrees j) : i.text = j.text := by
  cases hop : Opcode.ofByte? i.code with
  | none => simp only [text, ← h.code, hop]
  | some op =>
    have htexts : op.operands.map i.operandText = op.operands.map j.operandText :=
      List.map_congr_left fun operand hmem => (h.operands op hop operand hmem).text_eq
    simp only [text, ← h.code, hop]
    split
    · rfl
    · rw [htexts]

-- The bytes of an instruction give back all that is left of it, and so does its refusal.
theorem trimmed_eq_of_encode {i j : Instruction t} (h : i.encode = j.encode) :
    i.trimmed = j.trimmed := by
  cases hi : Opcode.ofByte? i.code with
  | none =>
    cases hj : Opcode.ofByte? j.code with
    | none =>
      simp only [encode, hi, hj, Except.error.injEq, Cause.invalidOpcode.injEq] at h
      rw [trimmed_of_none hi, trimmed_of_none hj, h]
    | some op => simp [encode, hi, hj] at h
  | some op =>
    obtain ⟨bytes, hbytes, -, htrimmed⟩ := encode_assigned hi
    cases hj : Opcode.ofByte? j.code with
    | none => simp [encode, hi, hj] at h
    | some op' =>
      obtain ⟨bytes', hbytes', -, htrimmed'⟩ := encode_assigned hj
      rw [hbytes, hbytes', Except.ok.injEq, List.cons.injEq] at h
      obtain ⟨hcode, rfl⟩ := h
      obtain rfl : op = op' := Option.some.inj (hi.symm.trans (hcode ▸ hj))
      rw [← htrimmed, ← htrimmed', hcode]

theorem append_nil (i : Instruction t) : i.append [] = i.encode := by
  cases h : i.encode <;> simp only [append, emit, h] <;> rfl

end Instruction

namespace Machine

theorem execute_trimmed (i : Instruction t) (next : Int64) (m : Machine t) :
    execute i.trimmed next m = execute i next m := by
  cases hop : Opcode.ofByte? i.code with
  | none =>
    rw [execute_unassigned hop, execute_unassigned (by rw [i.trimmed_code, hop]), i.trimmed_code]
  | some op =>
    rw [execute_eq_outcome hop, execute_eq_outcome (by rw [i.trimmed_code, hop]),
      Instruction.trimmed_of_some hop]
    cases op <;> rfl

-- What the layout does not name is not looked at: not in a machine, not by the encoding and not in
-- the text. What it names is all in the encoding, so an instruction and what is read back from its
-- encoding do the same.
theorem layout_determines_instruction (t : WordType) :
    (∀ i j : Instruction t, i.Agrees j →
      (∀ next m, execute i next m = execute j next m) ∧
      (∀ program, i.emit.run program = j.emit.run program ∧ i.append program = j.append program) ∧
      i.text = j.text) ∧
    (∀ i j : Instruction t, i.append [] = j.append [] → i.Agrees j) ∧
    ∀ i : Instruction t, (Opcode.ofByte? i.code).isSome →
      ∃ bytes j, i.append [] = .ok bytes ∧
        Instruction.decode t bytes.toArray 0 = .ok (j, bytes.length) ∧
        ∀ next m, execute j next m = execute i next m := by
  refine ⟨?_, ?_, ?_⟩
  · intro i j h
    have hemit : i.emit = j.emit := by rw [Instruction.emit, Instruction.emit, h.encode_eq]
    refine ⟨?_, ?_, h.text_eq⟩
    · intro next m
      rw [← execute_trimmed i, Instruction.agrees_iff_trimmed.mp h, execute_trimmed]
    · intro program
      rw [Instruction.append, Instruction.append, hemit]
      exact ⟨rfl, rfl⟩
  · intro i j h
    rw [i.append_nil, j.append_nil] at h
    exact Instruction.agrees_iff_trimmed.mpr (Instruction.trimmed_eq_of_encode h)
  · intro i h
    obtain ⟨op, hop⟩ := Option.isSome_iff_exists.mp h
    obtain ⟨operands, hencode, hlength, -⟩ := Instruction.encode_assigned hop
    have hdecode := Instruction.decode_encoded hop hencode [] []
    refine ⟨i.code :: operands, i.trimmed, i.append_nil.trans hencode, ?_, execute_trimmed i⟩
    rw [List.length_cons, hlength]
    simpa using hdecode

-- Two complements of one register into another, with different bytes in the fields not looked at.
theorem layout_determines_instruction_not :
    let i : Instruction ⟨.two, true⟩ := ⟨0x07, 1, 2, 9, -5, 77⟩
    let j : Instruction ⟨.two, true⟩ := ⟨0x07, 1, 2, 0, 0, 0⟩
    (∀ next m, execute i next m = execute j next m) ∧ i.text = j.text ∧
      j.Agrees i ∧ ∃ bytes k, i.append [] = .ok bytes ∧
        Instruction.decode ⟨.two, true⟩ bytes.toArray 0 = .ok (k, bytes.length) ∧
        ∀ next m, execute k next m = execute i next m := by
  intro i j
  obtain ⟨hsame, hagree, hread⟩ := layout_determines_instruction ⟨.two, true⟩
  have h : i.Agrees j := by
    refine ⟨rfl, ?_⟩
    intro op hop operand hmem
    obtain rfl : Opcode.not = op := Option.some.inj hop
    cases operand with
    | first | second => rfl
    | third | address | word => exact absurd hmem (by decide)
  obtain ⟨hexecute, -, htext⟩ := hsame i j h
  exact ⟨hexecute, htext, hagree j i (by rfl), hread i rfl⟩

end Machine

end RegisterMachine
