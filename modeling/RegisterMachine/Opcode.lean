import RegisterMachine.Text.Numeral

namespace RegisterMachine

-- What an operand field of an encoded instruction holds.
inductive OperandKind where
  | register
  | address
  | word
deriving DecidableEq

namespace OperandKind

def code : OperandKind → Int
  | .register => 0
  | .address => 1
  | .word => 2

def ofCode? : Int → Option OperandKind
  | 0 => some .register
  | 1 => some .address
  | 2 => some .word
  | _ => none

-- The encoded size: one byte for a register, four for an address, a whole word for an immediate.
def size (wordSize : Int64) : OperandKind → Int64
  | .register => 1
  | .address => 4
  | .word => wordSize

end OperandKind

-- The operand fields of an instruction: up to three registers, an address and an immediate word.
inductive Operand where
  | first
  | second
  | third
  | address
  | word
deriving DecidableEq

namespace Operand

def kind : Operand → OperandKind
  | .first | .second | .third => .register
  | .address => .address
  | .word => .word

-- The encoded size in bytes.
def size (wordSize : Nat) : Operand → Nat
  | .first | .second | .third => 1
  | .address => 4
  | .word => wordSize

end Operand

-- The instructions that are assigned an opcode byte.
inductive Opcode where
  | nop | mov | ld | st
  | and | or | xor | not | cmp
  | add | sub | mult | div | mod | inc | dec
  | pushreg | popreg
  | jmp | jmpn | jmpp | jmpz
  | call | ret | clf | hlt
deriving DecidableEq

namespace Opcode

-- Every assigned opcode, by ascending byte.
def all : List Opcode :=
  [.nop, .mov, .ld, .st, .and, .or, .xor, .not, .cmp, .add, .sub, .mult, .div, .mod, .inc, .dec,
    .pushreg, .popreg, .jmp, .jmpn, .jmpp, .jmpz, .call, .ret, .clf, .hlt]

def byte : Opcode → UInt8
  | .nop => 0x00
  | .mov => 0x01
  | .ld => 0x02
  | .st => 0x03
  | .and => 0x04
  | .or => 0x05
  | .xor => 0x06
  | .not => 0x07
  | .cmp => 0x08
  | .add => 0x09
  | .sub => 0x0a
  | .mult => 0x0b
  | .div => 0x0c
  | .mod => 0x0d
  | .inc => 0x0e
  | .dec => 0x0f
  | .pushreg => 0x10
  | .popreg => 0x11
  | .jmp => 0x12
  | .jmpn => 0x13
  | .jmpp => 0x14
  | .jmpz => 0x15
  | .call => 0x16
  | .ret => 0x17
  | .clf => 0x18
  | .hlt => 0xff

-- The instruction assigned to a byte.
def ofByte? (code : UInt8) : Option Opcode := all.find? (·.byte == code)

theorem ofByte?_byte (op : Opcode) : ofByte? op.byte = some op := by
  cases op <;> decide

theorem byte_of_ofByte? {code : UInt8} {op : Opcode} (h : ofByte? code = some op) :
    op.byte = code := by
  have hfound := List.find?_some h
  exact eq_of_beq hfound

def mnemonic : Opcode → String
  | .nop => "NOP"
  | .mov => "MOV"
  | .ld => "LD"
  | .st => "ST"
  | .and => "AND"
  | .or => "OR"
  | .xor => "XOR"
  | .not => "NOT"
  | .cmp => "CMP"
  | .add => "ADD"
  | .sub => "SUB"
  | .mult => "MULT"
  | .div => "DIV"
  | .mod => "MOD"
  | .inc => "INC"
  | .dec => "DEC"
  | .pushreg => "PUSHREG"
  | .popreg => "POPREG"
  | .jmp => "JMP"
  | .jmpn => "JMPN"
  | .jmpp => "JMPP"
  | .jmpz => "JMPZ"
  | .call => "CALL"
  | .ret => "RET"
  | .clf => "CLF"
  | .hlt => "HLT"

-- The operand fields that follow the opcode byte, in encoding order. Decoding, encoding, sizes and
-- text all read this one table.
def operands : Opcode → List Operand
  | .nop | .ret | .clf | .hlt => []
  | .mov => [.first, .word]
  | .ld | .st => [.first, .address]
  | .and | .or | .xor | .add | .sub | .mult | .div | .mod => [.first, .second, .third]
  | .not | .cmp => [.first, .second]
  | .inc | .dec | .pushreg | .popreg => [.first]
  | .jmp | .jmpn | .jmpp | .jmpz | .call => [.address]

-- The encoded size in bytes, opcode byte included.
def size (wordSize : Nat) (op : Opcode) : Nat :=
  op.operands.foldl (fun size operand => size + operand.size wordSize) 1

theorem size_pos (wordSize : Nat) (op : Opcode) : 0 < op.size wordSize := by
  cases op <;> simp only [size, operands, List.foldl_cons, List.foldl_nil] <;> omega

-- The encoded size for a word size that need not be one of a word type; an unassigned byte has
-- size zero. Sizes are numbers of 64 bits and wrap around.
def sizeAt (wordSize : Int64) (code : UInt8) : Int64 :=
  match ofByte? code with
  | none => 0
  | some op => op.operands.foldl (fun size operand => size + operand.kind.size wordSize) 1

-- The text of an opcode byte, assigned or not.
def text (code : UInt8) : String :=
  match ofByte? code with
  | some op => op.mnemonic
  | none => "Opcode(0x" ++ Text.hex 2 code.toNat ++ ")"

end Opcode

end RegisterMachine
