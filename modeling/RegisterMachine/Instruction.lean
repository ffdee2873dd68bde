import RegisterMachine.Word
import RegisterMachine.Fault

namespace RegisterMachine

-- An instruction. The opcode is any byte; only the operands that its layout names have a meaning.
structure Instruction (t : WordType) where
  code : UInt8
  first : UInt8
  second : UInt8
  third : UInt8
  value : Word t
  address : UInt32
deriving DecidableEq

namespace Instruction

variable {t : WordType}

-- The instruction of the given byte with every operand zero.
def blank (t : WordType) (code : UInt8) : Instruction t := ⟨code, 0, 0, 0, 0, 0⟩

-- The encoding of one operand field.
def operandOctets (i : Instruction t) : Operand → Octets
  | .first => [i.first]
  | .second => [i.second]
  | .third => [i.third]
  | .address => Octets.littleEndian 4 i.address.toNat
  | .word => i.value.toOctets

-- Sets one operand field from its encoding.
def setOperand (i : Instruction t) (bytes : Octets) : Operand → Instruction t
  | .first => { i with first := bytes.headD 0 }
  | .second => { i with second := bytes.headD 0 }
  | .third => { i with third := bytes.headD 0 }
  | .address => { i with address := UInt32.ofNat (Octets.fromLittleEndian bytes) }
  | .word => { i with value := Word.ofOctets t bytes }

-- Sets operand fields from bytes that hold their encodings one after the other.
def setOperands (i : Instruction t) : List Operand → Octets → Instruction t
  | [], _ => i
  | operand :: rest, bytes =>
    let size := operand.size t.bytes
    (i.setOperand (bytes.take size) operand).setOperands rest (bytes.drop size)

-- Reads the instruction at offset `pc`, with its encoded size. Register ids are not range checked.
def decode (t : WordType) (program : Array UInt8) (pc : Int) :
    Except Cause (Instruction t × Nat) :=
  if pc < 0 then .error (.truncated 0 1 0)
  else match program[pc.toNat]? with
    | none => .error (.truncated 0 1 0)
    | some code =>
      match Opcode.ofByte? code with
      | none => .error (.invalidOpcode code)
      | some op =>
        let size := op.size t.bytes
        let left := program.size - pc.toNat
        if left < size then .error (.truncated code size left)
        else
          let bytes := (program.extract (pc.toNat + 1) (pc.toNat + size)).toList
          .ok ((blank t code).setOperands op.operands bytes, size)

-- All that reading at an offset answers, whether or not an instruction can be read there.
structure Reading (t : WordType) where
  instruction : Instruction t
  size : Nat
  cause : Option Cause
deriving DecidableEq

-- Reads the instruction at offset `pc`. The answer begins as a blank instruction of size zero; the
-- size is known before the operands, and taken back if there are too few bytes for them.
def reading (t : WordType) (program : Array UInt8) (pc : Int) : Reading t :=
  let answer : Reading t := ⟨blank t 0, 0, none⟩
  if pc < 0 ∨ program.size ≤ pc then { answer with cause := some (.truncated 0 1 0) }
  else
    let bytes := (program.extract pc.toNat program.size).toList
    let code := bytes.headD 0
    match Opcode.ofByte? code with
    | none => { answer with cause := some (.invalidOpcode code) }
    | some op =>
      let answer := { answer with size := op.size t.bytes }
      if bytes.length < answer.size then
        { answer with cause := some (.truncated code answer.size bytes.length), size := 0 }
      else
        let i := { answer.instruction with code }
        { answer with instruction := i.setOperands op.operands (bytes.drop 1) }

-- The encoding of an instruction whose opcode is assigned.
def encode (i : Instruction t) : Except Cause Octets :=
  match Opcode.ofByte? i.code with
  | none => .error (.invalidOpcode i.code)
  | some op => .ok (i.code :: op.operands.flatMap i.operandOctets)

-- Adds the encoding to the end of a program. A program that nothing can be added to is kept.
def emit (i : Instruction t) : EStateM Cause Octets Unit :=
  match i.encode with
  | .error cause => throw cause
  | .ok bytes => modify (· ++ bytes)

-- The program with the encoding at its end.
def append (program : Octets) (i : Instruction t) : Except Cause Octets :=
  match i.emit program with
  | .error cause _ => .error cause
  | .ok () longer => .ok longer

-- The text of one operand field.
def operandText (i : Instruction t) : Operand → String
  | .first => "r" ++ Text.decimal i.first.toNat
  | .second => "r" ++ Text.decimal i.second.toNat
  | .third => "r" ++ Text.decimal i.third.toNat
  | .address => "0x" ++ Text.hex 8 i.address.toNat
  | .word => Text.decimal i.value.value

-- The mnemonic and the operands that the layout names.
def text (i : Instruction t) : String :=
  match Opcode.ofByte? i.code with
  | none => Opcode.text i.code
  | some op =>
    match op.operands with
    | [] => op.mnemonic
    | operands => op.mnemonic ++ " " ++ String.intercalate ", " (operands.map i.operandText)

-- A line of a disassembly: an instruction, where it stands and how long it is.
structure Line (t : WordType) where
  pc : Int
  instruction : Instruction t
  size : Nat
deriving DecidableEq

-- A linear sweep: the instructions read one after the other, then the offset at which no further
-- one can be read and why.
structure Sweep (t : WordType) where
  lines : List (Line t)
  stop : Int
  cause : Cause
deriving DecidableEq

-- An instruction that can be read lies inside the program and has at least one byte.
theorem decode_bounds {program : Array UInt8} {pc : Int} {i : Instruction t} {size : Nat}
    (h : decode t program pc = .ok (i, size)) :
    0 ≤ pc ∧ 0 < size ∧ pc.toNat + size ≤ program.size := by
  unfold decode at h
  split at h
  · cases h
  · split at h
    · cases h
    · rename_i hpc _ code hcode
      obtain ⟨hlt, -⟩ := Array.getElem?_eq_some_iff.mp hcode
      split at h
      · cases h
      · simp only at h
        split at h
        · cases h
        · rename_i op _ hleft
          cases h
          exact ⟨by omega, Opcode.size_pos t.bytes op, by omega⟩

set_option linter.unusedVariables false in
-- Reads instructions from `pc` on until one cannot be read, and adds them to the lines found before.
-- Each one read moves on by at least one byte, so the sweep ends.
def sweepOn (t : WordType) (program : Array UInt8) (pc : Int) (lines : Array (Line t)) : Sweep t :=
  match h : decode t program pc with
  | .error cause => ⟨lines.toList, pc, cause⟩
  | .ok (i, size) => sweepOn t program (pc + size) (lines.push ⟨pc, i, size⟩)
termination_by program.size - pc.toNat
decreasing_by
  have hb := decode_bounds h
  omega

def sweep (t : WordType) (program : Array UInt8) (pc : Int) : Sweep t := sweepOn t program pc #[]

end Instruction

end RegisterMachine
