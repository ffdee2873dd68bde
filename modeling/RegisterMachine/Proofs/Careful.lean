import RegisterMachine.Proofs.Codec

namespace RegisterMachine

variable {t : WordType} {α : Type}

-- What a machine must never come to: a position or a part that is not there, a division by zero, a
-- sum of offsets that wraps around.
inductive Hazard where
  | index (position : Int) (size : Nat)
  | slice (low high : Int) (size : Nat)
  | division
  | wrapped (sum : Int)
deriving DecidableEq

namespace Careful

def item (cells : Array α) (position : Int) : Except Hazard α :=
  if h : 0 ≤ position ∧ position.toNat < cells.size then .ok cells[position.toNat]
  else .error (.index position cells.size)

def assign (cells : Array α) (position : Int) (a : α) : Except Hazard (Array α) :=
  if 0 ≤ position ∧ position.toNat < cells.size then .ok (cells.setIfInBounds position.toNat a)
  else .error (.index position cells.size)

-- The part from `low` up to `high`, `high` not included.
def slice (cells : Array α) (low high : Int) : Except Hazard (Array α) :=
  if 0 ≤ low ∧ low ≤ high ∧ high ≤ cells.size then .ok (cells.extract low.toNat high.toNat)
  else .error (.slice low high cells.size)

-- The first bytes of a buffer that must have so many.
def leading (count : Nat) (cells : Array UInt8) : Except Hazard Octets :=
  if count ≤ cells.size then .ok (cells.toList.take count)
  else .error (.index (count - 1) cells.size)

-- Division and remainder alike need a divisor that is not zero.
def divide (f : Word t → Word t → Word t) (a b : Word t) : Except Hazard (Word t) :=
  if b = 0 then .error .division else .ok (f a b)

-- A sum of offsets, which must be an offset.
def offset (sum : Int) : Except Hazard Int64 :=
  if -2 ^ 63 ≤ sum ∧ sum < 2 ^ 63 then .ok (.ofInt sum) else .error (.wrapped sum)

-- A sum of an address and a size, which must be an address.
def address (sum : Nat) : Except Hazard UInt64 :=
  if sum < 2 ^ 64 then .ok (.ofNat sum) else .error (.wrapped sum)

theorem item_natCast {cells : Array α} {n : Nat} (h : n < cells.size) :
    item cells n = .ok cells[n] := by
  simp only [item, Int.toNat_natCast, Int.natCast_nonneg, true_and, h, dite_true]

theorem assign_natCast {cells : Array α} {n : Nat} (a : α) (h : n < cells.size) :
    assign cells n a = .ok (cells.setIfInBounds n a) := by
  simp only [assign, Int.toNat_natCast, Int.natCast_nonneg, true_and, h, if_true]

theorem slice_natCast {cells : Array α} {low high : Nat} (hlow : low ≤ high)
    (hhigh : high ≤ cells.size) : slice cells low high = .ok (cells.extract low high) := by
  simp only [slice, Int.toNat_natCast, Int.natCast_nonneg, Int.ofNat_le, hlow, hhigh, and_self,
    if_true]

theorem toList_extract_size (cells : Array UInt8) (low : Nat) :
    (cells.extract low cells.size).toList = cells.toList.drop low := by
  rw [Array.toList_extract, List.extract_eq_take_drop]
  exact List.take_of_length_le (by simp)

-- The bytes of a word or an address operand, which stand behind others.
theorem leading_slice {cells : Array UInt8} {low count : Nat} (h : low + count ≤ cells.size) :
    (slice cells low cells.size >>= leading count) = .ok ((cells.toList.drop low).take count) := by
  have hcount : count ≤ (cells.extract low cells.size).size := by
    rw [Array.size_extract]
    omega
  rw [slice_natCast (by omega) (Nat.le_refl _)]
  change leading count (cells.extract low cells.size) = _
  rw [leading, if_pos hcount, toList_extract_size]

end Careful

open Careful

namespace Registers

def carefulRead (registers : Registers t) (id : UInt8) : Except Hazard (Except Cause (Word t)) :=
  match registers.check id with
  | .error cause => .ok (.error cause)
  | .ok () => return .ok (← item registers.values id.toNat)

def carefulWrite (registers : Registers t) (id : UInt8) (value : Word t) :
    Except Hazard (Except Cause (Registers t)) :=
  match registers.check id with
  | .error cause => .ok (.error cause)
  | .ok () => return .ok ⟨← assign registers.values id.toNat value⟩

theorem carefulRead_eq (registers : Registers t) (id : UInt8) :
    registers.carefulRead id = .ok (registers.read id) := by
  unfold carefulRead check read
  split_ifs with h
  · simp only [item_natCast h]
    rfl
  · rfl

theorem carefulWrite_eq (registers : Registers t) (id : UInt8) (value : Word t) :
    registers.carefulWrite id value = .ok (registers.write id value) := by
  unfold carefulWrite write check
  split_ifs with h
  · simp only [assign_natCast value h]
    rfl
  · rfl

end Registers

namespace Stack

def carefulPeek (stack : Stack t) : Except Hazard (Except Cause (Word t)) :=
  if stack.isEmpty then .ok (.error .stackUnderflow)
  else return .ok (← item stack.words (stack.words.size - 1))

def carefulPop (stack : Stack t) : Except Hazard (Except Cause (Word t × Stack t)) := do
  match ← stack.carefulPeek with
  | .error cause => return .error cause
  | .ok value =>
    return .ok (value, { stack with words := ← slice stack.words 0 (stack.words.size - 1) })

theorem carefulPeek_eq (stack : Stack t) : stack.carefulPeek = .ok stack.peek := by
  unfold carefulPeek peek isEmpty
  by_cases hempty : stack.words.size = 0
  · rw [if_pos (beq_iff_eq.mpr hempty),
      Array.back?_eq_none_iff.mpr (Array.size_eq_zero_iff.mp hempty)]
  · have hpos : 0 < stack.words.size := Nat.pos_of_ne_zero hempty
    have hlt : stack.words.size - 1 < stack.words.size := by omega
    rw [if_neg (by simpa using hempty), ← Nat.cast_pred hpos, item_natCast hlt, Array.back?,
      Array.getElem?_eq_getElem hlt]
    rfl

theorem carefulPop_eq (stack : Stack t) : stack.carefulPop = .ok stack.pop := by
  unfold carefulPop pop
  rw [carefulPeek_eq]
  cases hpeek : stack.peek with
  | error cause => rfl
  | ok value =>
    have hpos : 0 < stack.words.size := by
      by_contra hempty
      rw [peek, Array.back?_eq_none_iff.mpr (Array.size_eq_zero_iff.mp (by omega))] at hpeek
      cases hpeek
    have hslice : slice stack.words 0 (stack.words.size - 1) = .ok stack.words.pop := by
      rw [← Nat.cast_pred hpos, ← Int.natCast_zero,
        slice_natCast (Nat.zero_le _) (Nat.sub_le _ _), Array.extract_eq_pop rfl]
    simp only [hslice, bind, Except.bind]
    rfl

end Stack

namespace Memory

-- The part of memory that an access of `size` bytes is about.
def carefulSpan (memory : Memory) (start : UInt64) (size : Nat) :
    Except Hazard (Except Cause (Array UInt8)) := do
  let stop ← address (start.toNat + size)
  if memory.size < stop.toNat then return .error (.outOfBounds start size)
  else return .ok (← slice memory.bytes start.toNat stop.toNat)

-- Puts bytes into cells from a position on, one after the other.
def carefulOverwrite (cells : Array UInt8) (position : Nat) :
    Octets → Except Hazard (Array UInt8)
  | [] => .ok cells
  | byte :: rest => do carefulOverwrite (← assign cells position byte) (position + 1) rest

def carefulRead (memory : Memory) (start : UInt64) (count : Nat) :
    Except Hazard (Except Cause Octets) := do
  match ← memory.carefulSpan start count with
  | .error cause => return .error cause
  | .ok part => return .ok part.toList

def carefulWrite (memory : Memory) (start : UInt64) (bytes : Octets) :
    Except Hazard (Except Cause Memory) := do
  match ← memory.carefulSpan start bytes.length with
  | .error cause => return .error cause
  | .ok _ => return .ok ⟨← carefulOverwrite memory.bytes start.toNat bytes⟩

def carefulLoadWord (t : WordType) (memory : Memory) (start : UInt32) :
    Except Hazard (Except Cause (Word t)) := do
  match ← memory.carefulSpan start.toUInt64 t.bytes with
  | .error cause => return .error cause
  | .ok part => return .ok (.ofOctets t (← leading t.bytes part))

def carefulStoreWord (memory : Memory) (start : UInt32) (value : Word t) :
    Except Hazard (Except Cause Memory) :=
  memory.carefulWrite start.toUInt64 value.toOctets

def carefulReadAt (memory : Memory) (start : Int64) (count : Nat) :
    Except Hazard (Except Cause Octets) :=
  if start < 0 then .ok (.error (.outOfBounds start.toUInt64 count))
  else memory.carefulRead start.toUInt64 count

def carefulWriteAt (memory : Memory) (start : Int64) (bytes : Octets) :
    Except Hazard (Except Cause Memory) :=
  if start < 0 then .ok (.error (.outOfBounds start.toUInt64 bytes.length))
  else memory.carefulWrite start.toUInt64 bytes

theorem carefulSpan_eq (memory : Memory) {start : UInt64} {size : Nat}
    (h : start.toNat + size < 2 ^ 64) :
    memory.carefulSpan start size =
      .ok ((memory.check start size).map fun _ =>
        memory.bytes.extract start.toNat (start.toNat + size)) := by
  have hstop : (UInt64.ofNat (start.toNat + size)).toNat = start.toNat + size :=
    UInt64.toNat_ofNat_of_lt' h
  simp only [carefulSpan, check, address, if_pos h, bind, Except.bind, hstop]
  by_cases hfit : start.toNat + size ≤ memory.size
  · rw [if_neg (Nat.not_lt_of_le hfit), if_pos hfit, slice_natCast (Nat.le_add_right _ _) hfit]
    rfl
  · rw [if_pos (Nat.lt_of_not_le hfit), if_neg hfit]
    rfl

theorem carefulOverwrite_eq {cells : Array UInt8} {position : Nat} {bytes : Octets}
    (h : position + bytes.length ≤ cells.size) :
    carefulOverwrite cells position bytes = .ok (overwrite cells position bytes) := by
  induction bytes generalizing cells position with
  | nil => rfl
  | cons byte rest ih =>
    rw [List.length_cons] at h
    have hlt : position < cells.size := by omega
    simp only [carefulOverwrite, overwrite, assign_natCast byte hlt, bind, Except.bind]
    apply ih
    rw [Array.size_setIfInBounds]
    omega

theorem carefulRead_eq (memory : Memory) {start : UInt64} {count : Nat}
    (h : start.toNat + count < 2 ^ 64) :
    memory.carefulRead start count = .ok (memory.read start count) := by
  simp only [carefulRead, read, carefulSpan_eq memory h, bind, Except.bind]
  cases memory.check start count <;> rfl

theorem carefulWrite_eq (memory : Memory) {start : UInt64} {bytes : Octets}
    (h : start.toNat + bytes.length < 2 ^ 64) :
    memory.carefulWrite start bytes = .ok (memory.write start bytes) := by
  simp only [carefulWrite, write, carefulSpan_eq memory h, bind, Except.bind, check]
  split_ifs with hfit
  · simp only [Except.map, carefulOverwrite_eq hfit]
    rfl
  · rfl

theorem toNat_add_bytes_lt (t : WordType) (start : UInt32) :
    start.toUInt64.toNat + t.bytes < 2 ^ 64 := by
  have hbytes := t.bytes_le
  have hstart := start.toNat_lt
  rw [UInt32.toNat_toUInt64]
  omega

theorem carefulLoadWord_eq (memory : Memory) (start : UInt32) :
    memory.carefulLoadWord t start = .ok (memory.loadWord t start) := by
  have hsum := toNat_add_bytes_lt t start
  simp only [carefulLoadWord, loadWord, read, carefulSpan_eq memory hsum, bind, Except.bind, check]
  split_ifs with hfit
  · have hpart : (memory.bytes.extract start.toUInt64.toNat
        (start.toUInt64.toNat + t.bytes)).size = t.bytes := by
      rw [Array.size_extract]
      have : memory.size = memory.bytes.size := rfl
      omega
    simp only [Except.map, leading, hpart, Nat.le_refl, if_true]
    rw [List.take_of_length_le (by rw [Array.length_toList, hpart])]
    rfl
  · rfl

theorem carefulStoreWord_eq (memory : Memory) (start : UInt32) (value : Word t) :
    memory.carefulStoreWord start value = .ok (memory.storeWord start value) := by
  apply carefulWrite_eq
  rw [Word.length_toOctets]
  exact toNat_add_bytes_lt t start

-- An offset that is not negative leaves room for any size that a host can count.
theorem toNat_add_lt {start : Int64} {size : Nat} (hstart : ¬start < 0) (hsize : size < 2 ^ 63) :
    start.toUInt64.toNat + size < 2 ^ 64 := by
  have hlt : start.toInt < 2 ^ 63 := start.toInt_lt
  have hnonneg : 0 ≤ start.toInt := by
    rw [Int64.lt_iff_toInt_lt, Int64.toInt_zero] at hstart
    omega
  rw [toNat_toUInt64_of_nonneg hnonneg]
  omega

theorem carefulReadAt_eq (memory : Memory) (start : Int64) {count : Nat} (h : count < 2 ^ 63) :
    memory.carefulReadAt start count = .ok (memory.readAt start count) := by
  unfold carefulReadAt readAt
  split_ifs with hneg
  · rfl
  · exact memory.carefulRead_eq (toNat_add_lt hneg h)

theorem carefulWriteAt_eq (memory : Memory) (start : Int64) {bytes : Octets}
    (h : bytes.length < 2 ^ 63) :
    memory.carefulWriteAt start bytes = .ok (memory.writeAt start bytes) := by
  unfold carefulWriteAt writeAt
  split_ifs with hneg
  · rfl
  · exact memory.carefulWrite_eq (toNat_add_lt hneg h)

end Memory

-- The place of a register operand among the three that an instruction has.
def Operand.place? : Operand → Option Nat
  | .first => some 0
  | .second => some 1
  | .third => some 2
  | .address | .word => none

-- The registers of a layout come in the order of their places, from `count` on.
def Operand.InOrder (count : Nat) (operands : List Operand) : Prop :=
  operands.filterMap place? = List.range' count (operands.filterMap place?).length

theorem Opcode.operands_inOrder (op : Opcode) : Operand.InOrder 0 op.operands := by
  cases op <;> rfl

namespace Operand

theorem InOrder.of_place {operand : Operand} {rest : List Operand} {count place : Nat}
    (h : InOrder count (operand :: rest)) (hplace : operand.place? = some place) :
    place = count ∧ InOrder (count + 1) rest := by
  rw [InOrder, List.filterMap_cons_some hplace, List.length_cons, List.range'_succ,
    List.cons.injEq] at h
  exact h

theorem InOrder.of_no_place {operand : Operand} {rest : List Operand} {count : Nat}
    (h : InOrder count (operand :: rest)) (hplace : operand.place? = none) :
    InOrder count rest := by
  rw [InOrder, List.filterMap_cons_none hplace] at h
  exact h

end Operand

namespace Instruction

-- Sets the register operand at a place.
def carefulSetRegister (i : Instruction t) (id : UInt8) : Nat → Except Hazard (Instruction t)
  | 0 => .ok { i with first := id }
  | 1 => .ok { i with second := id }
  | 2 => .ok { i with third := id }
  | place => .error (.index place 3)

-- Sets operands from the bytes at `position` on; `count` registers have been set before.
def carefulOperands (code : Array UInt8) :
    List OperandKind → (position count : Nat) → Instruction t → Except Hazard (Instruction t)
  | [], _, _, i => .ok i
  | .register :: rest, position, count, i => do
    let id ← item code position
    carefulOperands code rest (position + 1) (count + 1) (← i.carefulSetRegister id count)
  | .address :: rest, position, count, i => do
    let bytes ← slice code position code.size >>= leading 4
    let address := UInt32.ofNat (Octets.fromLittleEndian bytes)
    carefulOperands code rest (position + 4) count { i with address }
  | .word :: rest, position, count, i => do
    let bytes ← slice code position code.size >>= leading t.bytes
    carefulOperands code rest (position + t.bytes) count { i with value := .ofOctets t bytes }

def carefulDecode (t : WordType) (program : Array UInt8) (pc : Int) :
    Except Hazard (Except Cause (Instruction t × Nat)) :=
  if pc < 0 ∨ program.size ≤ pc then .ok (.error (.truncated 0 1 0))
  else do
    let code ← slice program pc program.size
    let byte ← item code 0
    match Opcode.ofByte? byte with
    | none => return .error (.invalidOpcode byte)
    | some op =>
      let size := op.size t.bytes
      if code.size < size then return .error (.truncated byte size code.size)
      else return .ok (← carefulOperands code (op.operands.map (·.kind)) 1 0 (blank t byte), size)

-- The induction is on the operands. What lies behind the last one is never looked at, so any number
-- of bytes that covers them gives the same instruction.
theorem carefulOperands_eq {code : Array UInt8} {operands : List Operand} {position count n : Nat}
    (i : Instruction t) (horder : Operand.InOrder count operands)
    (hroom : position + (operands.map (·.size t.bytes)).sum ≤ code.size)
    (hn : (operands.map (·.size t.bytes)).sum ≤ n) :
    carefulOperands code (operands.map (·.kind)) position count i =
      .ok (i.setOperands operands ((code.toList.drop position).take n)) := by
  induction operands generalizing position count n i with
  | nil => rfl
  | cons operand rest ih =>
    rw [List.map_cons, List.sum_cons] at hroom hn
    have htake : ((code.toList.drop position).take n).take (operand.size t.bytes) =
        (code.toList.drop position).take (operand.size t.bytes) := by
      rw [List.take_take, Nat.min_eq_left (by omega)]
    have hdrop : ((code.toList.drop position).take n).drop (operand.size t.bytes) =
        (code.toList.drop (position + operand.size t.bytes)).take (n - operand.size t.bytes) := by
      rw [List.drop_take, List.drop_drop]
    have hnext {count' : Nat} (i : Instruction t) (horder' : Operand.InOrder count' rest) :
        carefulOperands code (rest.map (·.kind)) (position + operand.size t.bytes) count' i =
          .ok (i.setOperands rest ((code.toList.drop (position + operand.size t.bytes)).take
            (n - operand.size t.bytes))) :=
      ih i horder' (by omega) (by omega)
    rw [List.map_cons, setOperands, htake, hdrop]
    cases operand
    case first | second | third =>
      obtain ⟨rfl, horder'⟩ := horder.of_place rfl
      have hlt : position < code.size := by
        simp only [Operand.size] at hroom
        omega
      have hhead : ((code.toList.drop position).take 1).headD 0 = code[position] := by
        rw [List.drop_eq_getElem_cons (by rwa [Array.length_toList])]
        rfl
      simp only [Operand.kind, carefulOperands, item_natCast hlt, carefulSetRegister, bind,
        Except.bind, setOperand, Operand.size, hhead]
      exact hnext _ horder'
    case address =>
      simp only [Operand.kind, carefulOperands, Operand.size, setOperand]
      rw [leading_slice (by simp only [Operand.size] at hroom; omega)]
      exact hnext _ (horder.of_no_place rfl)
    case word =>
      simp only [Operand.kind, carefulOperands, Operand.size, setOperand]
      rw [leading_slice (by simp only [Operand.size] at hroom; omega)]
      exact hnext _ (horder.of_no_place rfl)

theorem carefulDecode_eq (t : WordType) (program : Array UInt8) (pc : Int) :
    carefulDecode t program pc = .ok (decode t program pc) := by
  unfold carefulDecode
  split_ifs with h
  · rw [decode_of_outside h]
  · obtain ⟨n, rfl⟩ := Int.eq_ofNat_of_zero_le (show 0 ≤ pc by omega)
    have hlt : n < program.size := by omega
    have hslice : slice program n program.size = .ok (program.extract n program.size) :=
      slice_natCast (by omega) (Nat.le_refl _)
    have hsize : (program.extract n program.size).size = program.size - n := by
      rw [Array.size_extract, Nat.min_self]
    have hitem : item (program.extract n program.size) 0 = .ok (program.getD n 0) := by
      rw [← Int.natCast_zero, item_natCast (by omega)]
      simp [Array.getD, hlt]
    rw [decode_of_inside h]
    simp only [hslice, hitem, hsize, bind, Except.bind, Int.toNat_natCast]
    cases hop : Opcode.ofByte? (program.getD n 0) with
    | none => rfl
    | some op =>
      have hsum := Opcode.size_eq_sum t.bytes op
      simp only
      split_ifs with hleft
      · rfl
      · have hbytes : (program.extract (n + 1) (n + op.size t.bytes)).toList =
            ((program.extract n program.size).toList.drop 1).take (op.size t.bytes - 1) := by
          rw [toList_extract_size, List.drop_drop, Array.toList_extract, List.extract_eq_take_drop]
          congr 1
          omega
        have hroom : 1 + (op.operands.map (·.size t.bytes)).sum ≤
            (program.extract n program.size).size := by omega
        have hcover : (op.operands.map (·.size t.bytes)).sum ≤ op.size t.bytes - 1 := by omega
        rw [carefulOperands_eq _ op.operands_inOrder hroom hcover, hbytes]
        rfl

end Instruction

end RegisterMachine
