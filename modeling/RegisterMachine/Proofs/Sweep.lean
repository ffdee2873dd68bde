import RegisterMachine.Proofs.RoundTrip

namespace RegisterMachine

namespace Instruction

variable {t : WordType} {program : Array UInt8}

theorem trimmed_setOperands {code : UInt8} {op : Opcode} (hop : Opcode.ofByte? code = some op)
    (bytes : Octets) :
    ((blank t code).setOperands op.operands bytes).trimmed =
      (blank t code).setOperands op.operands bytes := by
  have hcode : Opcode.ofByte? ((blank t code).setOperands op.operands bytes).code = some op := by
    rw [setOperands_code]
    exact hop
  simp only [trimmed, hcode]
  cases op <;> simp [Opcode.operands, setOperands, setOperand, blank]

theorem decode_trimmed {pc : Int} {i : Instruction t} {size : Nat}
    (h : decode t program pc = .ok (i, size)) : i.trimmed = i := by
  obtain ⟨op, hop, -, -, hi⟩ := decode_ok h
  have htrimmed := trimmed_setOperands (t := t) hop
    (program.extract (pc.toNat + 1) (pc.toNat + size)).toList
  rwa [← hi] at htrimmed

-- What is read is written as the bytes that it was read from.
theorem encode_decoded {pc : Int} {i : Instruction t} {size : Nat}
    (h : decode t program pc = .ok (i, size)) :
    i.encode = .ok (program.extract pc.toNat (pc.toNat + size)).toList := by
  obtain ⟨op, hop, rfl, hcode, -⟩ := decode_ok h
  have hpos := Opcode.size_pos t.bytes op
  have hslice : (program.extract pc.toNat (pc.toNat + op.size t.bytes)).toList =
      i.code :: op.operands.flatMap i.operandOctets := by
    have hdrop : program.toList.drop pc.toNat = i.code :: program.toList.drop (pc.toNat + 1) := by
      rw [← Array.getElem?_toList] at hcode
      obtain ⟨hlt, hget⟩ := List.getElem?_eq_some_iff.mp hcode
      rw [List.drop_eq_getElem_cons hlt, hget]
    have hcount : pc.toNat + op.size t.bytes - pc.toNat = op.size t.bytes - 1 + 1 := by omega
    rw [decode_operandOctets h hop, Array.toList_extract, List.extract_eq_take_drop, hdrop, hcount,
      List.take_succ_cons]
  rw [hslice]
  simp only [encode, hop]

-- The opcode byte has no instruction, or the program ends before the instruction, or inside it.
theorem decode_error {pc : Int} {cause : Cause} (h : decode t program pc = .error cause) :
    (∃ code, Opcode.ofByte? code = none ∧ cause = .invalidOpcode code) ∨
      ∃ code need left, left < need ∧
        (need = 1 ∨ ∃ op, Opcode.ofByte? code = some op ∧ need = op.size t.bytes) ∧
        cause = .truncated code need left := by
  by_cases hout : pc < 0 ∨ program.size ≤ pc
  · rw [decode_of_outside hout] at h
    cases h
    exact .inr ⟨0, 1, 0, Nat.one_pos, .inl rfl, rfl⟩
  · rw [decode_of_inside hout] at h
    cases hop : Opcode.ofByte? (program.getD pc.toNat 0) with
    | none =>
      simp only [hop] at h
      cases h
      exact .inl ⟨_, hop, rfl⟩
    | some op =>
      simp only [hop] at h
      split_ifs at h with hleft
      cases h
      exact .inr ⟨_, _, _, hleft, .inr ⟨op, hop, rfl⟩, rfl⟩

-- Instructions that are read one right behind the other, from `pc` on up to `stop`.
inductive Successive (program : Array UInt8) : Int → List (Line t) → Int → Prop where
  | nil (pc : Int) : Successive program pc [] pc
  | cons {pc stop : Int} {i : Instruction t} {size : Nat} {rest : List (Line t)}
      (hread : decode t program pc = .ok (i, size))
      (hrest : Successive program (pc + size) rest stop) :
      Successive program pc (⟨pc, i, size⟩ :: rest) stop

-- Every instruction has at least one byte, and lies inside the program.
theorem Successive.bounds {pc stop : Int} {lines : List (Line t)}
    (h : Successive program pc lines stop) :
    pc + lines.length ≤ stop ∧ (lines ≠ [] → stop ≤ program.size) := by
  induction h with
  | nil pc => simp
  | @cons pc stop i size rest hread hrest ih =>
    obtain ⟨hpc, hsize, hbound⟩ := decode_bounds hread
    obtain ⟨hlength, hstop⟩ := ih
    rw [List.length_cons]
    refine ⟨by omega, fun _ => ?_⟩
    by_cases hnil : rest = []
    · subst hnil
      cases hrest
      omega
    · exact hstop hnil

theorem Successive.length_le {pc stop : Int} {lines : List (Line t)}
    (h : Successive program pc lines stop) (hpc : 0 ≤ pc) :
    lines.length ≤ program.size - pc.toNat := by
  obtain ⟨hlength, hstop⟩ := h.bounds
  by_cases hnil : lines = []
  · simp [hnil]
  · have hinside := hstop hnil
    omega

-- Instructions that follow each other in the program are written as the stretch that they take.
theorem Successive.emit {pc stop : Int} {lines : List (Line t)}
    (h : Successive program pc lines stop) (hpc : 0 ≤ pc) (before : Octets) :
    (forM (lines.map (·.instruction)) Instruction.emit).run before =
      .ok () (before ++ (program.extract pc.toNat stop.toNat).toList) := by
  induction h generalizing before with
  | nil pc => simp [EStateM.run, pure, EStateM.pure]
  | @cons pc stop i size rest hread hrest ih =>
    have hnext : (pc + size).toNat = pc.toNat + size := by omega
    have hle := hrest.bounds.1
    have hslice : (program.extract pc.toNat (pc.toNat + size)).toList ++
        (program.extract (pc.toNat + size) stop.toNat).toList =
          (program.extract pc.toNat stop.toNat).toList := by
      rw [← Array.toList_append, Array.extract_append_extract]
      congr 2 <;> omega
    rw [List.map_cons, List.forM_cons, EStateM.run_bind, emit_encoded (encode_decoded hread)]
    simp only
    rw [ih (by omega), hnext, List.append_assoc, hslice]

theorem sweepOn_successive (program : Array UInt8) (pc : Int) (lines : Array (Line t)) :
    ∃ rest, (sweepOn t program pc lines).lines = lines.toList ++ rest ∧
      Successive program pc rest (sweepOn t program pc lines).stop ∧
      decode t program (sweepOn t program pc lines).stop =
        .error (sweepOn t program pc lines).cause := by
  fun_induction sweepOn t program pc lines with
  | case1 pc lines cause h => exact ⟨[], by simp, .nil pc, h⟩
  | case2 pc lines i size h ih =>
    obtain ⟨rest, hlines, hrest, hend⟩ := ih
    exact ⟨⟨pc, i, size⟩ :: rest, by simp [hlines], .cons h hrest, hend⟩

theorem sweep_successive (program : Array UInt8) (pc : Int) :
    Successive program pc (sweep t program pc).lines (sweep t program pc).stop ∧
      decode t program (sweep t program pc).stop = .error (sweep t program pc).cause := by
  obtain ⟨rest, hlines, hrest, hend⟩ := sweepOn_successive program pc #[]
  rw [sweep, hlines]
  exact ⟨hrest, hend⟩

-- Operands are read off the first bytes, as many as they take.
theorem setOperands_take (i : Instruction t) (operands : List Operand) (bytes : Octets) :
    i.setOperands operands (bytes.take (operands.map (·.size t.bytes)).sum) =
      i.setOperands operands bytes := by
  induction operands generalizing i bytes with
  | nil => rfl
  | cons operand rest ih =>
    rw [List.map_cons, List.sum_cons, setOperands, setOperands, List.take_take,
      Nat.min_eq_left (Nat.le_add_right _ _), List.drop_take, Nat.add_sub_cancel_left, ih]

-- The answer is an instruction and its size, or a blank one of size zero and the cause.
theorem reading_eq (t : WordType) (program : Array UInt8) (pc : Int) :
    reading t program pc =
      match decode t program pc with
      | .error cause => ⟨blank t 0, 0, some cause⟩
      | .ok (i, size) => ⟨i, size, none⟩ := by
  by_cases hout : pc < 0 ∨ program.size ≤ pc
  · rw [decode_of_outside hout, reading, if_pos hout]
  · have hbytes : (program.extract pc.toNat program.size).toList =
        program.toList.drop pc.toNat := by
      simp
    have hcode : (program.toList.drop pc.toNat).headD 0 = program.getD pc.toNat 0 := by
      simp [List.headD_eq_head?_getD, Array.getD_eq_getD_getElem?]
    have hlength : (program.toList.drop pc.toNat).length = program.size - pc.toNat := by
      simp
    rw [decode_of_inside hout, reading, if_neg hout]
    simp only [hbytes, hcode, hlength]
    cases hop : Opcode.ofByte? (program.getD pc.toNat 0) with
    | none => rfl
    | some op =>
      simp only
      split_ifs with hleft
      · rfl
      · have hoperands : (program.extract (pc.toNat + 1) (pc.toNat + op.size t.bytes)).toList =
            (List.drop 1 (program.toList.drop pc.toNat)).take
              (op.operands.map (·.size t.bytes)).sum := by
          rw [Array.toList_extract, List.extract_eq_take_drop, List.drop_drop, Opcode.size_eq_sum]
          congr 1
          omega
        rw [hoperands, setOperands_take]
        rfl

theorem reading_ok {pc : Int} {i : Instruction t} {size : Nat}
    (h : reading t program pc = ⟨i, size, none⟩) : decode t program pc = .ok (i, size) := by
  cases hdecode : decode t program pc with
  | error cause => simp [reading_eq, hdecode] at h
  | ok read =>
    simp only [reading_eq, hdecode] at h
    cases h
    rfl

theorem reading_error {pc : Int} {cause : Cause} (h : decode t program pc = .error cause) :
    reading t program pc = ⟨blank t 0, 0, some cause⟩ := by
  simp only [reading_eq, h]

-- Reading loses nothing: an instruction that is read has the layout of its opcode and is written as
-- the bytes that it was read from. A sweep therefore comes to an end, and what it has read is
-- written as the stretch of the program that it has passed.
theorem decoding_loses_nothing (t : WordType) (program : Array UInt8) (pc : Int) :
    (∀ i size, reading t program pc = ⟨i, size, none⟩ →
      ∃ op, Opcode.ofByte? i.code = some op ∧ 1 ≤ size ∧ size = op.size t.bytes ∧
        0 ≤ pc ∧ pc + size ≤ program.size ∧ i.trimmed = i ∧
        i.append [] = .ok (program.extract pc.toNat (pc.toNat + size)).toList) ∧
    (∀ i size cause, reading t program pc = ⟨i, size, some cause⟩ →
      i = blank t 0 ∧ size = 0 ∧
        ((∃ code, cause = .invalidOpcode code) ∨
          ∃ code need left, cause = .truncated code need left)) ∧
    (0 ≤ pc →
      (∀ (lines : List (Line t)) stop, Successive program pc lines stop →
        lines.length ≤ program.size - pc.toNat) ∧
      ∃ (lines : List (Line t)) (stop : Int) (cause : Cause),
        sweep t program pc = ⟨lines, stop, cause⟩ ∧ Successive program pc lines stop ∧
        reading t program stop = ⟨blank t 0, 0, some cause⟩ ∧
        (forM (lines.map (·.instruction)) Instruction.emit).run [] =
          .ok () (program.extract pc.toNat stop.toNat).toList) := by
  refine ⟨?_, ?_, ?_⟩
  · intro i size hreading
    have h := reading_ok hreading
    obtain ⟨op, hop, hsize, -, -⟩ := decode_ok h
    obtain ⟨hpc, hpos, hbound⟩ := decode_bounds h
    have hemit : i.emit [] = .ok () _ := emit_encoded (encode_decoded h) []
    refine ⟨op, hop, hpos, hsize, hpc, by omega, decode_trimmed h, ?_⟩
    simp only [append, hemit, List.nil_append]
  · intro i size cause hreading
    cases h : decode t program pc with
    | ok read => simp [reading_eq, h] at hreading
    | error found =>
      rw [reading_error h] at hreading
      cases hreading
      refine ⟨rfl, rfl, ?_⟩
      rcases decode_error h with ⟨code, -, rfl⟩ | ⟨code, need, left, -, -, rfl⟩
      · exact .inl ⟨code, rfl⟩
      · exact .inr ⟨code, need, left, rfl⟩
  · intro hpc
    refine ⟨fun lines stop hlines => hlines.length_le hpc, ?_⟩
    obtain ⟨hlines, hend⟩ := sweep_successive (t := t) program pc
    exact ⟨_, _, _, rfl, hlines, reading_error hend, hlines.emit hpc []⟩

-- A move and a jump behind a byte that is passed over, and a call without the end of its address.
def tornProgram : Array UInt8 := #[0xf0, 0x01, 2, 0x2e, 0xfb, 0x12, 4, 3, 2, 1, 0x16, 9]

theorem decoding_loses_nothing_torn :
    (⟨0x01, 2, 0, 0, -1234, 0⟩ : Instruction ⟨.two, true⟩).append [] =
        .ok [0x01, 2, 0x2e, 0xfb] ∧
      (∃ cause, reading ⟨.two, true⟩ tornProgram 10 = ⟨blank _ 0, 0, some cause⟩ ∧
        ∃ code need left, cause = .truncated code need left) ∧
      ∃ (lines : List (Line ⟨.two, true⟩)) (stop : Int) (cause : Cause),
        sweep ⟨.two, true⟩ tornProgram 1 = ⟨lines, stop, cause⟩ ∧ lines.length ≤ 11 ∧
        (forM (lines.map (·.instruction)) Instruction.emit).run [] =
          .ok () (tornProgram.extract 1 stop.toNat).toList := by
  have hmove : reading ⟨.two, true⟩ tornProgram 1 = ⟨⟨0x01, 2, 0, 0, -1234, 0⟩, 4, none⟩ := by
    decide +kernel
  have hcall : reading ⟨.two, true⟩ tornProgram 10 =
      ⟨blank _ 0, 0, some (.truncated 0x16 5 2)⟩ := by
    decide +kernel
  refine ⟨?_, ⟨_, hcall, ?_⟩, ?_⟩
  · obtain ⟨op, -, -, -, -, -, -, happend⟩ :=
      (decoding_loses_nothing ⟨.two, true⟩ tornProgram 1).1 _ _ hmove
    exact happend
  · obtain ⟨-, -, hcause⟩ := (decoding_loses_nothing ⟨.two, true⟩ tornProgram 10).2.1 _ _ _ hcall
    rcases hcause with ⟨code, hcode⟩ | htruncated
    · cases hcode
    · exact htruncated
  · obtain ⟨hlength, lines, stop, cause, hsweep, hlines, -, hemit⟩ :=
      (decoding_loses_nothing ⟨.two, true⟩ tornProgram 1).2.2 (by decide)
    exact ⟨lines, stop, cause, hsweep, hlength lines stop hlines, hemit⟩

end Instruction

end RegisterMachine
