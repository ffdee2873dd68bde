import RegisterMachine.Proofs.Tick

namespace RegisterMachine

variable {t : WordType}

namespace Octets

theorem fromLittleEndian_lt (bytes : Octets) : fromLittleEndian bytes < 256 ^ bytes.length := by
  induction bytes with
  | nil => exact Nat.one_pos
  | cons byte rest ih =>
    have hbyte : byte.toNat < 256 := byte.toNat_lt
    simp only [fromLittleEndian, List.length_cons, Nat.pow_succ]
    omega

theorem littleEndian_fromLittleEndian (bytes : Octets) :
    littleEndian bytes.length (fromLittleEndian bytes) = bytes := by
  induction bytes with
  | nil => rfl
  | cons byte rest ih =>
    have hbyte : byte.toNat < 256 := byte.toNat_lt
    have hlow : UInt8.ofNat (byte.toNat + 256 * fromLittleEndian rest) = byte := by
      apply UInt8.toNat_inj.mp
      rw [UInt8.toNat_ofNat']
      omega
    have hhigh : (byte.toNat + 256 * fromLittleEndian rest) / 256 = fromLittleEndian rest := by
      omega
    simp only [List.length_cons, fromLittleEndian, littleEndian, hlow, hhigh, ih]

theorem fromLittleEndian_littleEndian (count value : Nat) :
    fromLittleEndian (littleEndian count value) = value % 256 ^ count := by
  induction count generalizing value with
  | zero => simp only [littleEndian, fromLittleEndian, Nat.pow_zero, Nat.mod_one]
  | succ count ih =>
    have hpow : 256 ^ (count + 1) = 256 * 256 ^ count := Nat.pow_succ'
    simp only [littleEndian, fromLittleEndian, ih, UInt8.toNat_ofNat']
    rw [hpow, Nat.mod_mul]

end Octets

theorem WordType.patterns_eq (t : WordType) : t.patterns = 2 ^ (8 * t.bytes) := rfl

theorem WordType.two_pow_bits (t : WordType) : 2 ^ t.bits = 256 ^ t.bytes := by
  rw [bits, Nat.pow_mul]

theorem Opcode.size_eq_sum (wordSize : Nat) (op : Opcode) :
    op.size wordSize = 1 + (op.operands.map (·.size wordSize)).sum := by
  cases op <;> simp only [size, operands, List.foldl_cons, List.foldl_nil, List.map_cons,
    List.map_nil, List.sum_cons, List.sum_nil, Nat.add_assoc, Nat.add_zero]

-- The two ways to give the size of an operand agree, and so do those of an instruction.
theorem Operand.kind_size (wordSize : Nat) (operand : Operand) :
    operand.kind.size (Int64.ofNat wordSize) = Int64.ofNat (operand.size wordSize) := by
  cases operand <;> rfl

theorem Opcode.sizeAt_eq {code : UInt8} {op : Opcode} (h : ofByte? code = some op)
    (wordSize : Nat) : sizeAt (Int64.ofNat wordSize) code = Int64.ofNat (op.size wordSize) := by
  have hfold (operands : List Operand) (size : Nat) :
      operands.foldl (fun size operand => size + operand.kind.size (Int64.ofNat wordSize))
          (Int64.ofNat size) =
        Int64.ofNat (operands.foldl (fun size operand => size + operand.size wordSize) size) := by
    induction operands generalizing size with
    | nil => rfl
    | cons operand rest ih =>
      rw [List.foldl_cons, List.foldl_cons, Operand.kind_size, ← Int64.ofNat_add, ih]
  simp only [sizeAt, h]
  exact hfold op.operands 1

-- At the width of a word the size of an instruction is far below what 64 bits can hold.
theorem Opcode.toInt_sizeAt {code : UInt8} {op : Opcode} (h : ofByte? code = some op)
    (t : WordType) : (sizeAt (Int64.ofNat t.bytes) code).toInt = op.size t.bytes := by
  have hsize := op.size_le t
  rw [sizeAt_eq h, Int64.toInt_ofNat_of_lt (by omega)]

theorem Word.toOctets_ofOctets {bytes : Octets} (h : bytes.length = t.bytes) :
    (Word.ofOctets t bytes).toOctets = bytes := by
  have hlt := Octets.fromLittleEndian_lt bytes
  rw [h, ← t.two_pow_bits] at hlt
  rw [toOctets_eq, ofOctets_eq, List.take_of_length_le (Nat.le_of_eq h), BitVec.toNat_ofNat,
    Nat.mod_eq_of_lt hlt, ← h, Octets.littleEndian_fromLittleEndian]

theorem decode_of_outside {program : Array UInt8} {pc : Int} (h : pc < 0 ∨ program.size ≤ pc) :
    Instruction.decode t program pc = .error (.truncated 0 1 0) := by
  unfold Instruction.decode
  split_ifs with hneg
  · rfl
  · rw [Array.getElem?_eq_none (by omega)]

theorem decode_of_inside {program : Array UInt8} {pc : Int} (h : ¬(pc < 0 ∨ program.size ≤ pc)) :
    Instruction.decode t program pc =
      match Opcode.ofByte? (program.getD pc.toNat 0) with
      | none => .error (.invalidOpcode (program.getD pc.toNat 0))
      | some op =>
        if program.size - pc.toNat < op.size t.bytes then
          .error (.truncated (program.getD pc.toNat 0) (op.size t.bytes) (program.size - pc.toNat))
        else
          .ok ((Instruction.blank t (program.getD pc.toNat 0)).setOperands op.operands
            (program.extract (pc.toNat + 1) (pc.toNat + op.size t.bytes)).toList,
              op.size t.bytes) := by
  have hlt : pc.toNat < program.size := by omega
  have hbyte : program[pc.toNat]? = some (program.getD pc.toNat 0) := by
    rw [Array.getElem?_eq_getElem hlt, Array.getD, dif_pos hlt]
    rfl
  have hneg : ¬pc < 0 := by omega
  cases hop : Opcode.ofByte? (program.getD pc.toNat 0) with
  | none => simp only [Instruction.decode, if_neg hneg, hbyte, hop]
  | some op => simp only [Instruction.decode, if_neg hneg, hbyte, hop]

namespace Instruction

-- A field that was set from bytes of its size is written as these bytes.
theorem operandOctets_setOperand (i : Instruction t) {bytes : Octets} {operand : Operand}
    (h : bytes.length = operand.size t.bytes) :
    (i.setOperand bytes operand).operandOctets operand = bytes := by
  cases operand with
  | first | second | third =>
    obtain ⟨byte, rfl⟩ := List.length_eq_one_iff.mp h
    rfl
  | address =>
    have hlength : bytes.length = 4 := h
    have hlt := Octets.fromLittleEndian_lt bytes
    rw [hlength] at hlt
    simp only [setOperand, operandOctets]
    rw [UInt32.toNat_ofNat_of_lt' hlt, ← hlength, Octets.littleEndian_fromLittleEndian]
  | word => exact Word.toOctets_ofOctets h

theorem operandOctets_setOperand_of_ne (i : Instruction t) (bytes : Octets)
    {operand other : Operand} (h : operand ≠ other) :
    (i.setOperand bytes other).operandOctets operand = i.operandOctets operand := by
  cases operand <;> cases other <;> simp [setOperand, operandOctets] at h ⊢

theorem operandOctets_setOperands_of_not_mem (i : Instruction t) {operands : List Operand}
    (bytes : Octets) {operand : Operand} (h : operand ∉ operands) :
    (i.setOperands operands bytes).operandOctets operand = i.operandOctets operand := by
  induction operands generalizing i bytes with
  | nil => rfl
  | cons other rest ih =>
    rw [List.mem_cons, not_or] at h
    rw [setOperands, ih _ _ h.2, operandOctets_setOperand_of_ne _ _ h.1]

-- Fields that are set from the bytes of all of them are written as these bytes again. No field
-- stands twice in a layout, so none is lost to a later one.
theorem flatMap_operandOctets_setOperands (i : Instruction t) {operands : List Operand}
    {bytes : Octets} (hnodup : operands.Nodup)
    (hlength : bytes.length = (operands.map (·.size t.bytes)).sum) :
    operands.flatMap (i.setOperands operands bytes).operandOctets = bytes := by
  induction operands generalizing i bytes with
  | nil => exact (List.length_eq_zero_iff.mp hlength).symm
  | cons operand rest ih =>
    rw [List.nodup_cons] at hnodup
    rw [List.map_cons, List.sum_cons] at hlength
    have htake : (bytes.take (operand.size t.bytes)).length = operand.size t.bytes := by
      rw [List.length_take]
      omega
    have hdrop : (bytes.drop (operand.size t.bytes)).length =
        (rest.map (·.size t.bytes)).sum := by
      rw [List.length_drop]
      omega
    rw [List.flatMap_cons, setOperands, operandOctets_setOperands_of_not_mem _ _ hnodup.1,
      operandOctets_setOperand _ htake, ih _ hnodup.2 hdrop, List.take_append_drop]

theorem operands_nodup (op : Opcode) : op.operands.Nodup := by
  cases op <;> decide

-- An instruction that was read is written as the bytes behind its opcode byte.
theorem decode_operandOctets {program : Array UInt8} {pc : Int} {i : Instruction t} {op : Opcode}
    (h : decode t program pc = .ok (i, op.size t.bytes))
    (hop : Opcode.ofByte? i.code = some op) :
    op.operands.flatMap i.operandOctets =
      (program.toList.drop (pc.toNat + 1)).take (op.size t.bytes - 1) := by
  obtain ⟨-, -, hbounds⟩ := decode_bounds h
  obtain ⟨op', hop', -, -, hi⟩ := decode_ok h
  obtain rfl : op' = op := Option.some.inj (hop'.symm.trans hop)
  have hbytes : (program.extract (pc.toNat + 1) (pc.toNat + op'.size t.bytes)).toList =
      (program.toList.drop (pc.toNat + 1)).take (op'.size t.bytes - 1) := by
    rw [Array.toList_extract, List.extract_eq_take_drop]
    congr 1
    omega
  rw [hbytes] at hi
  rw [hi]
  apply flatMap_operandOctets_setOperands _ (operands_nodup op')
  simp only [List.length_take, List.length_drop, Array.length_toList, Opcode.size_eq_sum]
    at hbounds ⊢
  omega

end Instruction

end RegisterMachine
