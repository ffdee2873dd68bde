import RegisterMachine.Proofs.Codec

namespace RegisterMachine

variable {t : WordType}

theorem Word.ofOctets_toOctets (x : Word t) : Word.ofOctets t x.toOctets = x := by
  have hlength : x.toOctets.length ≤ t.bytes := Nat.le_of_eq (Word.length_toOctets x)
  have hlt : x.toNat < 256 ^ t.bytes := t.two_pow_bits ▸ x.isLt
  apply BitVec.eq_of_toNat_eq
  rw [ofOctets_eq, List.take_of_length_le hlength, toOctets_eq,
    Octets.fromLittleEndian_littleEndian, Nat.mod_eq_of_lt hlt, BitVec.toNat_ofNat,
    Nat.mod_eq_of_lt x.isLt]

namespace Instruction

-- The size of an encoded instruction; one without an encoding has none.
def size (i : Instruction t) : Nat :=
  match Opcode.ofByte? i.code with
  | none => 0
  | some op => op.size t.bytes

-- The instruction with every operand zero that its layout does not name.
def trimmed (i : Instruction t) : Instruction t :=
  match Opcode.ofByte? i.code with
  | none => blank t i.code
  | some op =>
    { code := i.code
      first := if .first ∈ op.operands then i.first else 0
      second := if .second ∈ op.operands then i.second else 0
      third := if .third ∈ op.operands then i.third else 0
      value := if .word ∈ op.operands then i.value else 0
      address := if .address ∈ op.operands then i.address else 0 }

def adopt (source i : Instruction t) : Operand → Instruction t
  | .first => { i with first := source.first }
  | .second => { i with second := source.second }
  | .third => { i with third := source.third }
  | .address => { i with address := source.address }
  | .word => { i with value := source.value }

theorem length_operandOctets (i : Instruction t) (operand : Operand) :
    (i.operandOctets operand).length = operand.size t.bytes := by
  cases operand with
  | first | second | third => rfl
  | address => exact Octets.length_littleEndian 4 _
  | word => exact Word.length_toOctets _

theorem setOperand_operandOctets (source i : Instruction t) (operand : Operand) :
    i.setOperand (source.operandOctets operand) operand = adopt source i operand := by
  cases operand with
  | first | second | third => rfl
  | address =>
    have hlt : source.address.toNat < 256 ^ 4 := source.address.toNat_lt
    have haddress : UInt32.ofNat (Octets.fromLittleEndian
        (Octets.littleEndian 4 source.address.toNat)) = source.address := by
      rw [Octets.fromLittleEndian_littleEndian, Nat.mod_eq_of_lt hlt, UInt32.ofNat_toNat]
    simp only [setOperand, operandOctets, adopt, haddress]
  | word => simp only [setOperand, operandOctets, adopt, Word.ofOctets_toOctets]

-- Fields that are set from the bytes of another instruction's fields are the fields of that one.
theorem setOperands_operandOctets (source i : Instruction t) (operands : List Operand) :
    i.setOperands operands (operands.flatMap source.operandOctets) =
      operands.foldl (adopt source) i := by
  induction operands generalizing i with
  | nil => rfl
  | cons operand rest ih =>
    have hlength := length_operandOctets source operand
    rw [List.flatMap_cons, setOperands, List.take_left' hlength, List.drop_left' hlength,
      setOperand_operandOctets, ih, List.foldl_cons]

theorem foldl_adopt_eq_trimmed {i : Instruction t} {op : Opcode}
    (hop : Opcode.ofByte? i.code = some op) :
    op.operands.foldl (adopt i) (blank t i.code) = i.trimmed := by
  simp only [trimmed, hop]
  cases op <;> rfl

theorem encode_assigned {i : Instruction t} {op : Opcode}
    (hop : Opcode.ofByte? i.code = some op) :
    ∃ bytes, i.encode = .ok (i.code :: bytes) ∧ bytes.length + 1 = op.size t.bytes ∧
      (blank t i.code).setOperands op.operands bytes = i.trimmed := by
  refine ⟨op.operands.flatMap i.operandOctets, ?_, ?_, ?_⟩
  · simp only [encode, hop]
  · simp only [List.length_flatMap, length_operandOctets, Opcode.size_eq_sum]
    omega
  · rw [setOperands_operandOctets, foldl_adopt_eq_trimmed hop]

theorem emit_encoded {i : Instruction t} {bytes : Octets} (h : i.encode = .ok bytes)
    (program : Octets) : i.emit.run program = .ok () (program ++ bytes) := by
  simp only [emit, h, EStateM.run_modify]

theorem emit_unassigned {i : Instruction t} (h : Opcode.ofByte? i.code = none)
    (program : Octets) : i.emit.run program = .error (.invalidOpcode i.code) program := by
  simp only [emit, encode, h, EStateM.run_throw]

-- An instruction is read where its encoding stands, whatever stands in front of it and behind it.
theorem decode_encoded {i : Instruction t} {op : Opcode} {bytes : Octets}
    (hop : Opcode.ofByte? i.code = some op) (hencode : i.encode = .ok bytes)
    (before behind : Octets) :
    decode t (before ++ bytes ++ behind).toArray before.length =
      .ok (i.trimmed, op.size t.bytes) := by
  obtain ⟨rest, hrest, hlength, htrimmed⟩ := encode_assigned hop
  obtain rfl : i.code :: rest = bytes := Except.ok.inj (hrest.symm.trans hencode)
  have hin : ¬((before.length : Int) < 0 ∨
      ((before ++ (i.code :: rest) ++ behind).toArray.size : Int) ≤ before.length) := by
    simp
    omega
  have hcode : (before ++ (i.code :: rest) ++ behind).toArray.getD
      ((before.length : Int).toNat) 0 = i.code := by
    simp
  have hbytes : ((before ++ (i.code :: rest) ++ behind).toArray.extract
      ((before.length : Int).toNat + 1)
      ((before.length : Int).toNat + op.size t.bytes)).toList = rest := by
    have hdrop : (before ++ (i.code :: rest) ++ behind).drop (before.length + 1) =
        rest ++ behind := by
      rw [List.append_assoc, ← List.drop_drop, List.drop_left]
      rfl
    have hcount : before.length + op.size t.bytes - (before.length + 1) = rest.length := by omega
    rw [Int.toNat_natCast, Array.toList_extract, List.extract_eq_take_drop, hdrop, hcount,
      List.take_left]
  have hwhole : ¬(before ++ (i.code :: rest) ++ behind).toArray.size -
      (before.length : Int).toNat < op.size t.bytes := by
    simp
    omega
  rw [decode_of_inside hin, hcode, hop]
  simp only [if_neg hwhole, hbytes, htrimmed]

def Sweep.prepend (lines : List (Line t)) (sweep : Sweep t) : Sweep t :=
  { sweep with lines := lines ++ sweep.lines }

theorem sweepOn_of_error {program : Array UInt8} {pc : Int} {cause : Cause}
    (h : decode t program pc = .error cause) (lines : Array (Line t)) :
    sweepOn t program pc lines = ⟨lines.toList, pc, cause⟩ := by
  rw [sweepOn]
  split
  · rename_i cause' h'
    cases h.symm.trans h'
    rfl
  · rename_i i size h'
    cases h.symm.trans h'

theorem sweepOn_of_ok {program : Array UInt8} {pc : Int} {i : Instruction t} {size : Nat}
    (h : decode t program pc = .ok (i, size)) (lines : Array (Line t)) :
    sweepOn t program pc lines =
      sweepOn t program (pc + size) (lines.push ⟨pc, i, size⟩) := by
  rw [sweepOn]
  split
  · rename_i cause h'
    cases h.symm.trans h'
  · rename_i i' size' h'
    cases h.symm.trans h'
    rfl

theorem sweepOn_append (program : Array UInt8) (pc : Int) (found lines : Array (Line t)) :
    sweepOn t program pc (found ++ lines) =
      (sweepOn t program pc lines).prepend found.toList := by
  fun_induction sweepOn t program pc lines with
  | case1 pc lines cause h =>
    rw [sweepOn_of_error h, Sweep.prepend, Array.toList_append]
  | case2 pc lines i size h ih => rw [sweepOn_of_ok h, ← Array.append_push, ih]

theorem sweep_of_error {program : Array UInt8} {pc : Int} {cause : Cause}
    (h : decode t program pc = .error cause) : sweep t program pc = ⟨[], pc, cause⟩ := by
  rw [sweep, sweepOn_of_error h]

theorem sweep_of_ok {program : Array UInt8} {pc : Int} {i : Instruction t} {size : Nat}
    (h : decode t program pc = .ok (i, size)) :
    sweep t program pc = (sweep t program (pc + size)).prepend [⟨pc, i, size⟩] := by
  rw [sweep, sweepOn_of_ok h]
  exact sweepOn_append program (pc + size) #[⟨pc, i, size⟩] #[]

-- The lines that instructions written one after the other from `pc` on should be read as.
def listing (pc : Int) : List (Instruction t) → List (Line t)
  | [] => []
  | i :: rest => ⟨pc, i.trimmed, i.size⟩ :: listing (pc + i.size) rest

theorem map_instruction_listing (pc : Int) (is : List (Instruction t)) :
    (listing pc is).map (·.instruction) = is.map trimmed := by
  induction is generalizing pc with
  | nil => rfl
  | cons i rest ih => rw [listing, List.map_cons, List.map_cons, ih]

theorem forM_emit_spec (is : List (Instruction t))
    (h : ∀ i ∈ is, (Opcode.ofByte? i.code).isSome) (before : Octets) :
    ∃ bytes, (forM is emit).run before = .ok () (before ++ bytes) ∧
      bytes.length = (is.map size).sum ∧
      ∀ behind, sweep t (before ++ bytes ++ behind).toArray before.length =
        (sweep t (before ++ bytes ++ behind).toArray (before ++ bytes).length).prepend
          (listing before.length is) := by
  -- What the first instruction adds is in front of the rest, so the induction is for every front.
  induction is generalizing before with
  | nil =>
    refine ⟨[], ?_, rfl, ?_⟩
    · rw [List.append_nil]
      rfl
    · intro behind
      rw [List.append_nil]
      rfl
  | cons i rest ih =>
    obtain ⟨op, hop⟩ := Option.isSome_iff_exists.mp (h i List.mem_cons_self)
    obtain ⟨operands, hencode, hlength, -⟩ := encode_assigned hop
    obtain ⟨bytes, hemit, hbytes, hsweep⟩ :=
      ih (fun j hj => h j (List.mem_cons_of_mem i hj)) (before ++ i.code :: operands)
    have hsize : i.size = op.size t.bytes := by rw [size, hop]
    have hassoc : before ++ (i.code :: operands ++ bytes) = before ++ i.code :: operands ++ bytes :=
      (List.append_assoc _ _ _).symm
    refine ⟨i.code :: operands ++ bytes, ?_, ?_, ?_⟩
    · rw [List.forM_cons, EStateM.run_bind, emit_encoded hencode, hassoc]
      exact hemit
    · rw [List.length_append, List.length_cons, hlength, hbytes, List.map_cons, List.sum_cons,
        hsize]
    · intro behind
      have hread : decode t (before ++ i.code :: operands ++ bytes ++ behind).toArray
          before.length = .ok (i.trimmed, op.size t.bytes) := by
        rw [List.append_assoc (before ++ _)]
        exact decode_encoded hop hencode before (bytes ++ behind)
      have hnext : (before.length : Int) + op.size t.bytes =
          (before ++ i.code :: operands).length := by
        rw [List.length_append, List.length_cons, hlength, Nat.cast_add]
      rw [hassoc, sweep_of_ok hread, hnext, hsweep behind, listing, hsize, hnext]
      rfl

theorem sweep_emitted {is : List (Instruction t)} (h : ∀ i ∈ is, (Opcode.ofByte? i.code).isSome)
    {before program : Octets} (hemit : (forM is emit).run before = .ok () program) :
    sweep t program.toArray before.length =
      ⟨listing before.length is, program.length, .truncated 0 1 0⟩ := by
  obtain ⟨bytes, hrun, -, hsweep⟩ := forM_emit_spec is h before
  obtain rfl : before ++ bytes = program := by
    rw [hrun] at hemit
    cases hemit
    rfl
  have hend : decode t (before ++ bytes).toArray (before ++ bytes).length =
      .error (.truncated 0 1 0) :=
    decode_of_outside (.inr (by simp))
  have hall := hsweep []
  rw [List.append_nil, sweep_of_error hend, Sweep.prepend, List.append_nil] at hall
  exact hall

-- Writing a program and reading it gives the program back, whatever stands in front of it and
-- behind it, less the operands that no layout names. So a written program stands for one list of
-- instructions. What has no encoding is refused and leaves the program as it was.
theorem program_round_trip (before : Octets) :
    (∀ is : List (Instruction t), (∀ i ∈ is, (Opcode.ofByte? i.code).isSome) →
      (∀ i ∈ is, ∀ program, ∃ bytes,
        i.emit.run program = .ok () (program ++ bytes) ∧ bytes.length = i.size) ∧
      ∃ program, (forM is emit).run before = .ok () program ∧
        program.length = before.length + (is.map size).sum ∧
        (∀ behind, sweep t (program ++ behind).toArray before.length =
          (sweep t (program ++ behind).toArray program.length).prepend
            (listing before.length is)) ∧
        sweep t program.toArray before.length =
          ⟨listing before.length is, program.length, .truncated 0 1 0⟩) ∧
    (∀ is js : List (Instruction t),
      (∀ i ∈ is ++ js, (Opcode.ofByte? i.code).isSome ∧ i.trimmed = i) →
      (forM is emit).run before = (forM js emit).run before → is = js) ∧
    (∀ i : Instruction t, Opcode.ofByte? i.code = none →
      i.emit.run before = .error (.invalidOpcode i.code) before) := by
  refine ⟨?_, ?_, fun i h => emit_unassigned h before⟩
  · intro is h
    constructor
    · intro i hi program
      obtain ⟨op, hop⟩ := Option.isSome_iff_exists.mp (h i hi)
      obtain ⟨operands, hencode, hlength, -⟩ := encode_assigned hop
      refine ⟨i.code :: operands, emit_encoded hencode program, ?_⟩
      rw [List.length_cons, hlength, size, hop]
    · obtain ⟨bytes, hemit, hlength, hsweep⟩ := forM_emit_spec is h before
      refine ⟨before ++ bytes, hemit, ?_, hsweep, sweep_emitted h hemit⟩
      rw [List.length_append, hlength]
  · intro is js h hsame
    have his : ∀ i ∈ is, (Opcode.ofByte? i.code).isSome :=
      fun i hi => (h i (List.mem_append_left js hi)).1
    have hjs : ∀ j ∈ js, (Opcode.ofByte? j.code).isSome :=
      fun j hj => (h j (List.mem_append_right is hj)).1
    -- Both lists are what the sweep of the one program that they are written as finds.
    obtain ⟨bytes, hemit, -, -⟩ := forM_emit_spec is his before
    have hlines : listing before.length is = listing before.length js := by
      have hsweep := (sweep_emitted his hemit).symm.trans
        (sweep_emitted hjs (hsame.symm.trans hemit))
      exact congrArg Sweep.lines hsweep
    have htrimmed {ks : List (Instruction t)} (hk : ∀ k ∈ ks, k.trimmed = k) :
        ks.map trimmed = ks := by
      rw [List.map_congr_left hk, List.map_id']
    calc is = is.map trimmed := (htrimmed fun i hi => (h i (List.mem_append_left js hi)).2).symm
      _ = (listing before.length is).map (·.instruction) := (map_instruction_listing _ is).symm
      _ = (listing before.length js).map (·.instruction) := by rw [hlines]
      _ = js.map trimmed := map_instruction_listing _ js
      _ = js := htrimmed fun j hj => (h j (List.mem_append_right is hj)).2

-- A negative word to load, with operands that are not looked at, a call and the end.
def short : List (Instruction ⟨.two, true⟩) :=
  [⟨0x01, 1, 9, 9, -1234, 7⟩, ⟨0x16, 0, 0, 0, 0, 0x01020304⟩, ⟨0xff, 0, 0, 0, 0, 0⟩]

theorem program_round_trip_short :
    (∃ program, (forM short emit).run [0xf0] = .ok () program ∧ program.length = 11 ∧
      (sweep ⟨.two, true⟩ program.toArray 1).lines =
        [⟨1, ⟨0x01, 1, 0, 0, -1234, 0⟩, 4⟩, ⟨5, ⟨0x16, 0, 0, 0, 0, 0x01020304⟩, 5⟩,
          ⟨10, ⟨0xff, 0, 0, 0, 0, 0⟩, 1⟩]) ∧
    short.map trimmed = ⟨0x01, 1, 0, 0, -1234, 0⟩ :: short.tail ∧
    (blank ⟨.two, true⟩ 0xf0).emit.run [0xf0] = .error (.invalidOpcode 0xf0) [0xf0] := by
  obtain ⟨hround, hinjective, hrefused⟩ := program_round_trip (t := ⟨.two, true⟩) [0xf0]
  refine ⟨?_, hinjective _ _ (by decide +kernel) rfl, hrefused _ rfl⟩
  obtain ⟨-, program, hemit, hlength, -, hsweep⟩ := hround short (by decide +kernel)
  exact ⟨program, hemit, hlength, congrArg Sweep.lines hsweep⟩

end Instruction

end RegisterMachine
