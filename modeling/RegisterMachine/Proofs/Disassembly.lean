import RegisterMachine.Proofs.Layout
import RegisterMachine.Proofs.Spelling
import RegisterMachine.Proofs.Sweep
import RegisterMachine.Proofs.WordValue

namespace RegisterMachine

namespace Instruction

variable {t : WordType}

theorem sameOperand_of_text {i j : Instruction t} {operand : Operand}
    (h : i.operandText operand = j.operandText operand) : i.SameOperand j operand := by
  cases operand with
  | first | second | third =>
    have hid := Text.decimal_injective ((String.append_right_inj "r").mp h)
    exact UInt8.toNat_inj.mp (Int.ofNat.inj hid)
  | address =>
    have haddress := Text.hex_injective 8 ((String.append_right_inj "0x").mp h)
    exact UInt32.toNat_inj.mp (Int.ofNat.inj haddress)
  | word => exact Word.value_inj.mp (Text.decimal_injective h)

theorem operandText_ne_empty (i : Instruction t) (operand : Operand) :
    i.operandText operand ≠ "" := by
  cases operand with
  | first | second | third | address => simp [operandText, String.append_eq_empty_iff]
  | word => exact Text.decimal_ne_empty _

-- An operand ends in front of a comma, and an instruction in front of a line end.
theorem notMem_operandText {c : Char} (hc : c = ',' ∨ c = '\n') (i : Instruction t)
    (operand : Operand) : c ∉ (i.operandText operand).toList := by
  have hnumeral : Text.isNumeral c = false := by
    rcases hc with rfl | rfl <;> decide
  have hleads : c ∉ "r".toList ∧ c ∉ "0x".toList := by
    rcases hc with rfl | rfl <;> decide
  cases operand with
  | first | second | third =>
    rw [operandText, String.toList_append, List.mem_append, not_or]
    exact ⟨hleads.1, Text.notMem_decimal hnumeral _⟩
  | address =>
    rw [operandText, String.toList_append, List.mem_append, not_or]
    exact ⟨hleads.2, Text.notMem_hex hnumeral 8 _⟩
  | word => exact Text.notMem_decimal hnumeral _

theorem text_eq {i : Instruction t} {op : Opcode} (hop : Opcode.ofByte? i.code = some op) :
    i.text = op.mnemonic ++ if op.operands = [] then "" else
      " " ++ ", ".intercalate (op.operands.map i.operandText) := by
  simp only [text, hop]
  cases op.operands with
  | nil => simp
  | cons operand rest => simp [String.append_assoc]

theorem notMem_text_newline {i : Instruction t} {op : Opcode}
    (hop : Opcode.ofByte? i.code = some op) : '\n' ∉ i.text.toList := by
  rw [text_eq hop, String.toList_append, List.mem_append, not_or]
  refine ⟨Opcode.notMem_mnemonic (by decide) op, ?_⟩
  split_ifs
  · simp
  · rw [String.toList_append, List.mem_append, not_or]
    refine ⟨by decide, ?_⟩
    intro hmem
    rcases Text.mem_intercalate hmem with hcomma | ⟨x, hx, hc⟩
    · exact absurd hcomma (by decide)
    · obtain ⟨operand, -, rfl⟩ := List.mem_map.mp hx
      exact notMem_operandText (.inr rfl) i operand hc

-- The text shows the opcode and every operand that its layout names.
theorem agrees_of_text {i j : Instruction t} (hi : (Opcode.ofByte? i.code).isSome)
    (hj : (Opcode.ofByte? j.code).isSome) (h : i.text = j.text) : i.Agrees j := by
  obtain ⟨op, hop⟩ := Option.isSome_iff_exists.mp hi
  obtain ⟨op', hop'⟩ := Option.isSome_iff_exists.mp hj
  rw [text_eq hop, text_eq hop'] at h
  have hname (op : Opcode) : ' ' ∉ op.mnemonic.toList := Opcode.notMem_mnemonic (by decide) op
  obtain ⟨hmnemonic, hoperands⟩ := Text.append_inj_of_notMem (hname op) (hname op')
    (Text.goesOn_ite (by decide) _) (Text.goesOn_ite (by decide) _) h
  obtain rfl := Opcode.mnemonic_injective hmnemonic
  refine ⟨(Opcode.byte_of_ofByte? hop).symm.trans (Opcode.byte_of_ofByte? hop'), ?_⟩
  intro found hfound operand hmem
  obtain rfl : op = found := Option.some.inj (hop.symm.trans hfound)
  have hne : op.operands ≠ [] := List.ne_nil_of_mem hmem
  rw [if_neg hne, if_neg hne, String.append_right_inj] at hoperands
  have hfields (k : Instruction t) :
      ∀ x ∈ op.operands.map k.operandText, x ≠ "" ∧ ',' ∉ x.toList := by
    intro x hx
    obtain ⟨other, -, rfl⟩ := List.mem_map.mp hx
    exact ⟨k.operandText_ne_empty other, notMem_operandText (.inl rfl) k other⟩
  have htexts := Text.intercalate_inj (by decide) (hfields i) (hfields j) hoperands
  exact sameOperand_of_text (List.map_inj_left.mp htexts operand hmem)

-- An instruction that can be read somewhere in some program.
def Readable (i : Instruction t) : Prop :=
  ∃ (program : Array UInt8) (pc : Int) (size : Nat), decode t program pc = .ok (i, size)

theorem readable_iff {i : Instruction t} :
    i.Readable ↔ (Opcode.ofByte? i.code).isSome ∧ i.trimmed = i := by
  constructor
  · rintro ⟨program, pc, size, h⟩
    obtain ⟨op, hop, -⟩ := decode_ok h
    exact ⟨Option.isSome_iff_exists.mpr ⟨op, hop⟩, decode_trimmed h⟩
  · rintro ⟨hassigned, htrimmed⟩
    obtain ⟨op, hop⟩ := Option.isSome_iff_exists.mp hassigned
    obtain ⟨bytes, hencode, -, -⟩ := encode_assigned hop
    have hdecode := decode_encoded hop hencode [] []
    rw [htrimmed] at hdecode
    exact ⟨_, _, _, hdecode⟩

theorem Readable.eq_of_text {i j : Instruction t} (hi : i.Readable) (hj : j.Readable)
    (h : i.text = j.text) : i = j := by
  rw [readable_iff] at hi hj
  rw [← hi.2, ← hj.2]
  exact agrees_iff_trimmed.mp (agrees_of_text hi.1 hj.1 h)

theorem eq_of_map_text {is js : List (Instruction t)} (his : ∀ i ∈ is, i.Readable)
    (hjs : ∀ j ∈ js, j.Readable) (h : is.map text = js.map text) : is = js := by
  induction is generalizing js with
  | nil => exact (List.map_eq_nil_iff.mp h.symm).symm
  | cons i is ih =>
    cases js with
    | nil => cases h
    | cons j js =>
      obtain ⟨htext, hrest⟩ := List.cons.inj h
      rw [(his i List.mem_cons_self).eq_of_text (hjs j List.mem_cons_self) htext,
        ih (fun k hk => his k (List.mem_cons_of_mem i hk))
          (fun k hk => hjs k (List.mem_cons_of_mem j hk)) hrest]

def Sweep.instructions (sweep : Sweep t) : List (Instruction t) :=
  sweep.lines.map (·.instruction)

-- The instructions that a sweep has read, one to a line.
def Sweep.text (sweep : Sweep t) : String :=
  String.join ((sweep.instructions.map Instruction.text).map (· ++ "\n"))

theorem Successive.readable {program : Array UInt8} {pc stop : Int} {lines : List (Line t)}
    (h : Successive program pc lines stop) : ∀ i ∈ lines.map (·.instruction), i.Readable := by
  induction h with
  | nil pc => simp
  | cons hread hrest ih =>
    intro i hi
    rcases List.mem_cons.mp hi with rfl | hmem
    · exact ⟨_, _, _, hread⟩
    · exact ih i hmem

theorem Successive.stop_eq {program : Array UInt8} {pc stop : Int} {lines : List (Line t)}
    (h : Successive program pc lines stop) :
    stop = pc + ((lines.map (·.instruction)).map Instruction.size).sum := by
  induction h with
  | nil pc => simp
  | @cons pc stop i size rest hread hrest ih =>
    obtain ⟨op, hop, hsize, -⟩ := decode_ok hread
    have hi : i.size = size := by rw [Instruction.size, hop, hsize]
    rw [ih, List.map_cons, List.map_cons, List.sum_cons, hi]
    omega

variable {program program' : Array UInt8} {pc : Int}

theorem sweep_readable (t : WordType) (program : Array UInt8) (pc : Int) :
    ∀ i ∈ (sweep t program pc).instructions, i.Readable :=
  (sweep_successive program pc).1.readable

theorem instructions_eq_of_text
    (h : (sweep t program pc).text = (sweep t program' pc).text) :
    (sweep t program pc).instructions = (sweep t program' pc).instructions := by
  have hline (program : Array UInt8) :
      ∀ x ∈ (sweep t program pc).instructions.map text, '\n' ∉ x.toList := by
    intro x hx
    obtain ⟨i, hi, rfl⟩ := List.mem_map.mp hx
    have hassigned := (readable_iff.mp (sweep_readable t program pc i hi)).1
    obtain ⟨op, hop⟩ := Option.isSome_iff_exists.mp hassigned
    exact notMem_text_newline hop
  exact eq_of_map_text (sweep_readable t program pc) (sweep_readable t program' pc)
    (Text.join_lines_inj (hline program) (hline program') h)

-- What a sweep has read says how far it came and which bytes it has passed.
theorem bytes_eq_of_instructions
    (h : (sweep t program pc).instructions = (sweep t program' pc).instructions) :
    (sweep t program pc).stop = (sweep t program' pc).stop ∧
      program.extract pc.toNat (sweep t program pc).stop.toNat =
        program'.extract pc.toNat (sweep t program' pc).stop.toNat := by
  rcases Int.lt_or_le pc 0 with hneg | hpc
  · rw [sweep_of_error (decode_of_outside (.inl hneg)),
      sweep_of_error (decode_of_outside (.inl hneg))]
    simp
  · have hlines := (sweep_successive (t := t) program pc).1
    have hlines' := (sweep_successive (t := t) program' pc).1
    have hemit := hlines.emit hpc []
    have hemit' := hlines'.emit hpc []
    have hstop := hlines.stop_eq
    have hstop' := hlines'.stop_eq
    rw [← Sweep.instructions] at hemit hemit' hstop hstop'
    rw [h, hemit', EStateM.Result.ok.injEq, List.nil_append, List.nil_append] at hemit
    rw [h, ← hstop'] at hstop
    exact ⟨hstop, Array.toList_inj.mp hemit.2.symm⟩

-- No two instructions that can be read have the same text, so a listing stands for the bytes that
-- it was made from.
theorem disassembly_unambiguous (t : WordType) :
    (∀ i : Instruction t,
      i.Readable ↔ (Opcode.ofByte? i.code).isSome ∧ i.trimmed = i) ∧
    (∀ i j : Instruction t, i.Readable → j.Readable → i.text = j.text → i = j) ∧
    ∀ (program program' : Array UInt8) (pc : Int),
      (sweep t program pc).text = (sweep t program' pc).text →
      (sweep t program pc).stop = (sweep t program' pc).stop ∧
        program.extract pc.toNat (sweep t program pc).stop.toNat =
          program'.extract pc.toNat (sweep t program' pc).stop.toNat :=
  ⟨fun _ => readable_iff, fun _ _ hi hj => hi.eq_of_text hj,
    fun _ _ _ h => bytes_eq_of_instructions (instructions_eq_of_text h)⟩

-- The move and the jump of the torn program, behind another byte and with nothing behind them.
def mendedProgram : Array UInt8 := #[0x30, 0x01, 2, 0x2e, 0xfb, 0x12, 4, 3, 2, 1]

theorem text_moveJump {program : Array UInt8} {cause : Cause}
    (hmove : decode ⟨.two, true⟩ program 1 = .ok (⟨0x01, 2, 0, 0, -1234, 0⟩, 4))
    (hjump : decode ⟨.two, true⟩ program (1 + (4 : Nat)) =
      .ok (⟨0x12, 0, 0, 0, 0, 0x01020304⟩, 5))
    (hend : decode ⟨.two, true⟩ program (1 + (4 : Nat) + (5 : Nat)) = .error cause) :
    (sweep ⟨.two, true⟩ program 1).text = "MOV r2, -1234\nJMP 0x01020304\n" := by
  rw [sweep_of_ok hmove, sweep_of_ok hjump, sweep_of_error hend]
  rfl

theorem disassembly_unambiguous_torn :
    let torn := sweep ⟨.two, true⟩ tornProgram 1
    let mended := sweep ⟨.two, true⟩ mendedProgram 1
    torn.text = "MOV r2, -1234\nJMP 0x01020304\n" ∧ torn.text = mended.text ∧
      torn.stop = mended.stop ∧
      tornProgram.extract 1 torn.stop.toNat = mendedProgram.extract 1 mended.stop.toNat ∧
      ∃ i j, decode ⟨.two, true⟩ tornProgram 1 = .ok (i, 4) ∧
        decode ⟨.two, true⟩ mendedProgram 1 = .ok (j, 4) ∧ i = j := by
  obtain ⟨-, hinstruction, hlisting⟩ := disassembly_unambiguous ⟨.two, true⟩
  have hmove : decode ⟨.two, true⟩ tornProgram 1 = .ok (⟨0x01, 2, 0, 0, -1234, 0⟩, 4) := by
    decide +kernel
  have hmove' : decode ⟨.two, true⟩ mendedProgram 1 = .ok (⟨0x01, 2, 0, 0, -1234, 0⟩, 4) := by
    decide +kernel
  have hcall : decode ⟨.two, true⟩ tornProgram 10 = .error (.truncated 0x16 5 2) := by
    decide +kernel
  have hout : decode ⟨.two, true⟩ mendedProgram 10 = .error (.truncated 0 1 0) := by
    decide +kernel
  have htorn := text_moveJump hmove (by decide +kernel) hcall
  have hmended := text_moveJump hmove' (by decide +kernel) hout
  have htexts := htorn.trans hmended.symm
  obtain ⟨hstop, hbytes⟩ := hlisting tornProgram mendedProgram 1 htexts
  exact ⟨htorn, htexts, hstop, hbytes, _, _, hmove, hmove',
    hinstruction _ _ ⟨_, _, _, hmove⟩ ⟨_, _, _, hmove'⟩ rfl⟩

end Instruction

end RegisterMachine
