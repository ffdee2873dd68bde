import RegisterMachine.Cbor.Value
import RegisterMachine.Machine.State

namespace RegisterMachine

-- A copy of a machine's state as it is kept in a file. The run state is any number, and the fault
-- is the text of what went wrong, empty unless the run failed.
structure Snapshot (t : WordType) where
  word : Octets
  image : Octets
  pc : Int64
  state : Int64
  steps : UInt64
  flags : Flags
  registers : List (Word t)
  stack : List (Word t)
  memory : Octets
  fault : Octets
deriving DecidableEq

namespace Snapshot

variable {t : WordType}

-- The snapshot with nothing in it.
def zero (t : WordType) : Snapshot t := ⟨[], [], 0, 0, 0, .clear, [], [], [], []⟩

open Cbor

-- The fields of the flags.
inductive FlagField where
  | zero
  | negative
  | positive
deriving DecidableEq

def FlagField.name : FlagField → String
  | .zero => "Zero"
  | .negative => "Negative"
  | .positive => "Positive"

-- A capital letter as the small one.
def lowerCase (b : UInt8) : UInt8 := if 65 ≤ b ∧ b ≤ 90 then b + 32 else b

-- Flags are named without regard to the case of letters.
def FlagField.ofKey? : Key → Option FlagField
  | .int _ => none
  | .text name =>
    [FlagField.zero, .negative, .positive].find? fun field =>
      (octets field.name).map lowerCase == name.map lowerCase

def setFlag (field : FlagField) (item : Item) (flags : Flags) : Except Error Flags := do
  match field with
  | .zero => return { flags with zero := ← item.bool }
  | .negative => return { flags with negative := ← item.bool }
  | .positive => return { flags with positive := ← item.bool }

def flagsOfItem (item : Item) : Except Error Flags :=
  item.record FlagField.ofKey? setFlag .clear

def flagsToItem (flags : Flags) : Item :=
  .map [(.text [octets FlagField.zero.name], .ofBool flags.zero),
    (.text [octets FlagField.negative.name], .ofBool flags.negative),
    (.text [octets FlagField.positive.name], .ofBool flags.positive)]

-- The least and the greatest number of a word type.
def least (t : WordType) : Int := if t.signed then -(Nat.pow 2 (t.bits - 1) : Int) else 0

def greatest (t : WordType) : Int :=
  if t.signed then (Nat.pow 2 (t.bits - 1) : Int) - 1 else (t.patterns : Int) - 1

def wordOfItem (t : WordType) (item : Item) : Except Error (Word t) := do
  return Word.ofInt t (← item.int (least t) (greatest t))

-- Words that are plain bytes are kept as a byte string.
def isByte (t : WordType) : Bool := t = ⟨.one, false⟩

def wordsOfItem (t : WordType) (item : Item) : Except Error (List (Word t)) := do
  if isByte t then return (← item.octets).map fun b => BitVec.ofNat t.bits b.toNat
  else item.list (wordOfItem t)

def wordsToItem (words : List (Word t)) : Item :=
  if isByte t then .bytes (words.map fun w => UInt8.ofNat w.toNat)
  else .array (words.map fun w => .ofInt w.value)

-- The fields of a snapshot, in the order of their keys.
inductive Field where
  | word
  | image
  | pc
  | state
  | steps
  | flags
  | registers
  | stack
  | memory
  | fault
deriving DecidableEq

namespace Field

def all : List Field :=
  [.word, .image, .pc, .state, .steps, .flags, .registers, .stack, .memory, .fault]

def number : Field → Nat
  | .word => 1
  | .image => 2
  | .pc => 3
  | .state => 4
  | .steps => 5
  | .flags => 6
  | .registers => 7
  | .stack => 8
  | .memory => 9
  | .fault => 10

-- A field is named by its number, or by a text with the number's digits.
def ofKey? : Key → Option Field
  | .int n => all.find? fun field => (field.number : Int) == n
  | .text name => all.find? fun field => octets (Text.decimal field.number) == name

end Field

def setField (field : Field) (item : Item) (s : Snapshot t) : Except Error (Snapshot t) := do
  let int64 : Except Error Int64 := do
    return Int64.ofInt (← item.int (least ⟨.eight, true⟩) (greatest ⟨.eight, true⟩))
  match field with
  | .word => return { s with word := ← item.string }
  | .image => return { s with image := ← item.string }
  | .pc => return { s with pc := ← int64 }
  | .state => return { s with state := ← int64 }
  | .steps =>
    return { s with steps := UInt64.ofNat (← item.int 0 (greatest ⟨.eight, false⟩)).toNat }
  | .flags => return { s with flags := ← flagsOfItem item }
  | .registers => return { s with registers := ← wordsOfItem t item }
  | .stack => return { s with stack := ← wordsOfItem t item }
  | .memory => return { s with memory := ← item.octets }
  | .fault => return { s with fault := ← item.string }

def ofItem (t : WordType) (item : Item) : Except Error (Snapshot t) :=
  item.record Field.ofKey? setField (zero t)

-- The value of a field, unless the field is left out because it is empty.
def fieldItem? (s : Snapshot t) : Field → Option Item
  | .word => some (.text [s.word])
  | .image => some (.text [s.image])
  | .pc => some (.ofInt s.pc.toInt)
  | .state => some (.ofInt s.state.toInt)
  | .steps => some (.unsigned s.steps.toNat)
  | .flags => some (flagsToItem s.flags)
  | .registers => some (wordsToItem s.registers)
  | .stack => if s.stack.isEmpty then none else some (wordsToItem s.stack)
  | .memory => if s.memory.isEmpty then none else some (.bytes s.memory)
  | .fault => if s.fault.isEmpty then none else some (.text [s.fault])

def toItem (s : Snapshot t) : Item :=
  .map (Field.all.filterMap fun field =>
    (s.fieldItem? field).map fun item => (.unsigned field.number, item))

-- The contents of a snapshot file.
def write (s : Snapshot t) : Octets := s.toItem.encode

-- The snapshot that a file holds.
def read (t : WordType) (bytes : Octets) : Except Error (Snapshot t) := do
  ofItem t (← parse bytes)

end Snapshot

end RegisterMachine
