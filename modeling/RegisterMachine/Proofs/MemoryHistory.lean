import RegisterMachine.Proofs.Careful
import RegisterMachine.Proofs.History

namespace RegisterMachine

variable {t : WordType}

-- An address is the offset of the same number.
theorem toInt_toInt64 (address : UInt32) : address.toUInt64.toInt64.toInt = address.toNat := by
  have hlt := address.toNat_lt
  have hbits : address.toUInt64.toInt64.toInt = address.toUInt64.toBitVec.toInt := rfl
  have hnat : address.toUInt64.toBitVec.toNat = address.toNat := UInt32.toNat_toUInt64 address
  rw [hbits, BitVec.toInt_eq_toNat_cond, hnat]
  split_ifs
  · rfl
  · omega

theorem ofInt_toInt (offset : Int64) : UInt64.ofInt offset.toInt = offset.toUInt64 := by
  have hbits : offset.toInt = offset.toBitVec.toInt := rfl
  have hnat : offset.toUInt64.toNat = offset.toBitVec.toNat := rfl
  have hlt := offset.toBitVec.isLt
  apply UInt64.toNat_inj.mp
  rw [UInt64.ofInt, UInt64.toNat_ofNat', hnat, hbits, BitVec.toInt_eq_toNat_cond]
  split_ifs <;> omega

theorem fromLittleEndian_map_range (f : Nat → UInt8) (count : Nat) :
    Octets.fromLittleEndian ((List.range count).map f) =
      ∑ k ∈ Finset.range count, (f k).toNat * 256 ^ k := by
  induction count generalizing f with
  | zero => rfl
  | succ count ih =>
    rw [List.range_succ_eq_map, List.map_cons, List.map_map, Octets.fromLittleEndian, ih,
      Finset.sum_range_succ', Finset.mul_sum, pow_zero, mul_one, Nat.add_comm]
    congr 1
    refine Finset.sum_congr rfl fun k _ => ?_
    rw [Function.comp_apply, pow_succ]
    ring

namespace Memory

-- Whether `count` bytes from `start` on lie inside a memory of the given size.
def Inside (start : Int) (count size : Nat) : Prop := 0 ≤ start ∧ start + count ≤ size

instance (start : Int) (count size : Nat) : Decidable (Inside start count size) :=
  inferInstanceAs (Decidable (_ ∧ _))

-- What is answered to an access that does not.
def beyond (start : Int) (count : Nat) : Cause := .outOfBounds (.ofInt start) count

-- What can be done to the contents of a memory.
inductive Change (t : WordType) where
  | storeWord (address : UInt32) (value : Word t)
  | writeAt (offset : Int64) (bytes : Octets)
  | reset

namespace Change

def apply (memory : Memory) : Change t → Except Cause Memory
  | .storeWord address value => memory.storeWord address value
  | .writeAt offset bytes => memory.writeAt offset bytes
  | .reset => .ok memory.reset

-- The memory after a change, which a refused one leaves as it is.
def perform (memory : Memory) (change : Change t) : Memory :=
  (change.apply memory).toOption.getD memory

def isReset : Change t → Bool
  | .reset => true
  | _ => false

-- Where a change begins to write, as a number, and what it writes. A reset counts as writing
-- nothing.
def start : Change t → Int
  | .storeWord address _ => address.toNat
  | .writeAt offset _ => offset.toInt
  | .reset => 0

def bytes : Change t → Octets
  | .storeWord _ value => value.toOctets
  | .writeAt _ bytes => bytes
  | .reset => []

-- The byte that a change puts into a cell, if it succeeds and covers the cell.
def byteAt? (size cell : Nat) (change : Change t) : Option UInt8 :=
  if Inside change.start change.bytes.length size ∧ change.start ≤ cell then
    change.bytes[cell - change.start.toNat]?
  else none

end Change

-- A memory of the given size after some changes.
def changed (size : Nat) (changes : List (Change t)) : Memory :=
  changes.foldl Change.perform (zeros size)

-- The byte that the last successful write to a cell since the last reset has put there.
def lastByte (size : Nat) (changes : List (Change t)) (cell : Nat) : UInt8 :=
  ((changes.reverse.takeWhile fun change => !change.isReset).findSome?
    (·.byteAt? size cell)).getD 0

theorem lastByte_append (size : Nat) (changes : List (Change t)) (change : Change t) (cell : Nat) :
    lastByte size (changes ++ [change]) cell =
      if change.isReset then 0
      else (change.byteAt? size cell).getD (lastByte size changes cell) := by
  rw [lastByte, List.reverse_append, List.reverse_singleton, List.singleton_append,
    List.takeWhile_cons]
  cases hreset : change.isReset with
  | true => rfl
  | false =>
    simp only [Bool.not_false, if_true, List.findSome?_cons, Bool.false_eq_true, if_false]
    cases change.byteAt? size cell <;> rfl

theorem getElem?_overwrite (cells : Array UInt8) (offset : Nat) (bytes : Octets) (k : Nat) :
    (overwrite cells offset bytes)[k]? =
      if k < cells.size ∧ offset ≤ k ∧ k < offset + bytes.length then bytes[k - offset]?
      else cells[k]? := by
  induction bytes generalizing cells offset with
  | nil =>
    rw [overwrite, if_neg]
    simp only [List.length_nil]
    omega
  | cons byte rest ih =>
    rw [overwrite, ih, Array.size_setIfInBounds, Array.getElem?_setIfInBounds, List.length_cons]
    by_cases hfirst : offset = k
    · subst hfirst
      rw [if_neg (by omega), if_pos rfl, Nat.sub_self, List.getElem?_cons_zero]
      by_cases hk : offset < cells.size
      · rw [if_pos hk, if_pos (by omega)]
      · rw [if_neg hk, if_neg (by omega), Array.getElem?_eq_none (by omega)]
    · rw [if_neg hfirst]
      by_cases hin : k < cells.size ∧ offset ≤ k ∧ k < offset + (rest.length + 1)
      · rw [if_pos hin, if_pos (by omega), show k - offset = k - (offset + 1) + 1 by omega,
          List.getElem?_cons_succ]
      · rw [if_neg hin, if_neg (by omega)]

-- The check of an offset is one on exact numbers.
theorem check_eq {offset : Int64} (h : ¬offset < 0) (memory : Memory) (count : Nat) :
    memory.check offset.toUInt64 count =
      if Inside offset.toInt count memory.size then .ok ()
      else .error (beyond offset.toInt count) := by
  have hnonneg : 0 ≤ offset.toInt := by
    rw [Int64.lt_iff_toInt_lt, Int64.toInt_zero] at h
    omega
  have hiff : offset.toUInt64.toNat + count ≤ memory.size ↔
      Inside offset.toInt count memory.size := by
    rw [Inside, toNat_toUInt64_of_nonneg hnonneg]
    omega
  rw [check, beyond, ofInt_toInt]
  simp only [hiff]

theorem not_inside_of_neg {offset : Int64} (h : offset < 0) (count size : Nat) :
    ¬Inside offset.toInt count size := by
  rw [Int64.lt_iff_toInt_lt, Int64.toInt_zero] at h
  rw [Inside]
  omega

theorem readAt_eq (memory : Memory) (offset : Int64) (count : Nat) :
    memory.readAt offset count =
      if Inside offset.toInt count memory.size then
        .ok (memory.bytes.extract offset.toInt.toNat (offset.toInt.toNat + count)).toList
      else .error (beyond offset.toInt count) := by
  unfold readAt
  by_cases hneg : offset < 0
  · rw [if_pos hneg, if_neg (not_inside_of_neg hneg _ _), beyond, ofInt_toInt]
  · rw [if_neg hneg, read, check_eq hneg]
    split_ifs with hin
    · rw [← toNat_toUInt64_of_nonneg hin.1]
      rfl
    · rfl

theorem writeAt_eq (memory : Memory) (offset : Int64) (bytes : Octets) :
    memory.writeAt offset bytes =
      if Inside offset.toInt bytes.length memory.size then
        .ok (memory.put offset.toInt.toNat bytes)
      else .error (beyond offset.toInt bytes.length) := by
  unfold writeAt
  by_cases hneg : offset < 0
  · rw [if_pos hneg, if_neg (not_inside_of_neg hneg _ _), beyond, ofInt_toInt]
  · rw [if_neg hneg, write, check_eq hneg]
    split_ifs with hin
    · rw [← toNat_toUInt64_of_nonneg hin.1]
      rfl
    · rfl

theorem address_not_neg (address : UInt32) : ¬address.toUInt64.toInt64 < 0 := by
  rw [Int64.lt_iff_toInt_lt, toInt_toInt64, Int64.toInt_zero]
  omega

-- Words go the way of their bytes.
theorem storeWord_eq_writeAt (memory : Memory) (address : UInt32) (value : Word t) :
    memory.storeWord address value =
      memory.writeAt address.toUInt64.toInt64 value.toOctets := by
  rw [writeAt, if_neg (address_not_neg address)]
  rfl

theorem loadWord_eq_readAt (memory : Memory) (address : UInt32) :
    memory.loadWord t address =
      (memory.readAt address.toUInt64.toInt64 t.bytes).map (Word.ofOctets t) := by
  rw [readAt, if_neg (address_not_neg address)]
  rfl

theorem Change.apply_write {change : Change t} (h : change.isReset = false) (memory : Memory) :
    change.apply memory =
      if Inside change.start change.bytes.length memory.size then
        .ok (memory.put change.start.toNat change.bytes)
      else .error (beyond change.start change.bytes.length) := by
  cases change with
  | storeWord address value =>
    rw [apply, storeWord_eq_writeAt, writeAt_eq, toInt_toInt64]
    rfl
  | writeAt offset bytes => exact writeAt_eq memory offset bytes
  | reset => cases h

-- A memory of the given size with these bytes in its cells.
structure Holds (memory : Memory) (size : Nat) (cell : Nat → UInt8) : Prop where
  size_eq : memory.size = size
  cells : ∀ k < size, memory.bytes[k]? = some (cell k)

theorem holds_zeros (size : Nat) : (zeros size).Holds size fun _ => 0 where
  size_eq := Array.size_replicate
  cells := by
    intro k hk
    rw [zeros, Array.getElem?_replicate, if_pos hk]

variable {memory : Memory} {size : Nat} {cell : Nat → UInt8}

theorem Holds.put (h : memory.Holds size cell) {change : Change t}
    (hin : Inside change.start change.bytes.length size) :
    (memory.put change.start.toNat change.bytes).Holds size
      fun k => (change.byteAt? size k).getD (cell k) where
  size_eq := (size_put _ _ _).trans h.size_eq
  cells := by
    intro k hk
    have hsize : memory.bytes.size = size := h.size_eq
    obtain ⟨hstart, hend⟩ := id hin
    rw [Memory.put, getElem?_overwrite, Change.byteAt?]
    by_cases hcovered : change.start.toNat ≤ k ∧ k < change.start.toNat + change.bytes.length
    · have hplace : k - change.start.toNat < change.bytes.length := by omega
      rw [if_pos ⟨hsize ▸ hk, hcovered⟩, if_pos ⟨hin, by omega⟩, List.getElem?_eq_getElem hplace,
        Option.getD_some]
    · rw [if_neg (fun hall => hcovered hall.2), h.cells k hk]
      split_ifs with hbehind
      · rw [List.getElem?_eq_none (by omega), Option.getD_none]
      · rfl

theorem Holds.perform (h : memory.Holds size cell) (change : Change t) :
    (change.perform memory).Holds size
      fun k => if change.isReset then 0 else (change.byteAt? size k).getD (cell k) := by
  rw [Change.perform]
  cases hreset : change.isReset with
  | true =>
    cases change with
    | reset =>
      rw [← h.size_eq]
      exact holds_zeros memory.size
    | storeWord | writeAt => cases hreset
  | false =>
    rw [Change.apply_write hreset, h.size_eq]
    by_cases hin : Inside change.start change.bytes.length size
    · rw [if_pos hin]
      exact h.put hin
    · have hnone (k : Nat) : change.byteAt? size k = none := if_neg fun hboth => hin hboth.1
      rw [if_neg hin]
      simp only [hnone]
      exact h

theorem holds_changed (size : Nat) (changes : List (Change t)) :
    (changed size changes).Holds size (lastByte size changes) := by
  induction changes using List.reverseRecOn with
  | nil => exact holds_zeros size
  | append_singleton changes change ih =>
    have hlast : lastByte size (changes ++ [change]) = fun k =>
        if change.isReset then 0
        else (change.byteAt? size k).getD (lastByte size changes k) :=
      funext (lastByte_append size changes change)
    rw [hlast, changed, List.foldl_append]
    exact ih.perform change

-- The cells from a place on.
def stretch (cell : Nat → UInt8) (start count : Nat) : Octets :=
  (List.range count).map fun k => cell (start + k)

theorem Holds.extract (h : memory.Holds size cell) {start count : Nat}
    (hin : start + count ≤ size) :
    (memory.bytes.extract start (start + count)).toList = stretch cell start count := by
  have hsize : memory.bytes.size = size := h.size_eq
  apply List.ext_getElem?
  intro k
  rw [Array.getElem?_toList, Array.getElem?_extract, stretch, List.getElem?_map]
  by_cases hk : k < count
  · rw [if_pos (by omega), h.cells _ (by omega), List.getElem?_range hk, Option.map_some]
  · rw [if_neg (by omega), List.getElem?_eq_none (by simpa using hk), Option.map_none]

theorem Holds.readAt (h : memory.Holds size cell) (offset : Int64) (count : Nat) :
    memory.readAt offset count =
      if Inside offset.toInt count size then .ok (stretch cell offset.toInt.toNat count)
      else .error (beyond offset.toInt count) := by
  rw [readAt_eq, h.size_eq]
  split_ifs with hin
  · rw [h.extract (by rw [Inside] at hin; omega)]
  · rfl

theorem readInto_of_ok {offset : Int64} {buffer bytes : Octets}
    (h : memory.readAt offset buffer.length = .ok bytes) :
    (memory.readInto offset).run buffer = .ok bytes.length bytes := by
  simp only [Memory.readInto, EStateM.run_bind, EStateM.run_get, h]
  rfl

theorem readInto_of_error {offset : Int64} {buffer : Octets} {cause : Cause}
    (h : memory.readAt offset buffer.length = .error cause) :
    (memory.readInto offset).run buffer = .error cause buffer := by
  simp only [Memory.readInto, EStateM.run_bind, EStateM.run_get, h]
  rfl

theorem Holds.readInto (h : memory.Holds size cell) (offset : Int64) (buffer : Octets) :
    (memory.readInto offset).run buffer =
      if Inside offset.toInt buffer.length size then
        .ok buffer.length (stretch cell offset.toInt.toNat buffer.length)
      else .error (beyond offset.toInt buffer.length) buffer := by
  have hread := h.readAt offset buffer.length
  split_ifs with hin
  · rw [if_pos hin] at hread
    rw [readInto_of_ok hread, stretch, List.length_map, List.length_range]
  · rw [if_neg hin] at hread
    exact readInto_of_error hread

theorem Holds.loadWord (h : memory.Holds size cell) (address : UInt32) :
    memory.loadWord t address =
      if Inside address.toNat t.bytes size then
        .ok (Word.ofOctets t (stretch cell address.toNat t.bytes))
      else .error (beyond address.toNat t.bytes) := by
  rw [loadWord_eq_readAt, h.readAt, toInt_toInt64]
  split_ifs <;> rfl

theorem toNat_ofOctets_stretch (t : WordType) (cell : Nat → UInt8) (start : Nat) :
    (Word.ofOctets t (stretch cell start t.bytes)).toNat =
      ∑ k ∈ Finset.range t.bytes, (cell (start + k)).toNat * 256 ^ k := by
  have hlength : (stretch cell start t.bytes).length = t.bytes := by simp [stretch]
  have hlt := Octets.fromLittleEndian_lt (stretch cell start t.bytes)
  rw [hlength, ← t.two_pow_bits] at hlt
  rw [Word.ofOctets_eq, List.take_of_length_le (Nat.le_of_eq hlength), BitVec.toNat_ofNat,
    Nat.mod_eq_of_lt hlt, stretch, fromLittleEndian_map_range]

theorem toNat_add_ofNat {start : UInt64} {count : Nat} (h : start.toNat + count < 2 ^ 64) :
    (start + UInt64.ofNat count).toNat = start.toNat + count := by
  rw [UInt64.toNat_add, UInt64.toNat_ofNat']
  omega

-- What a memory with these bytes in its cells answers. Words are read from the lowest byte up, and a
-- buffer that cannot be filled as a whole is left alone.
structure Answers (t : WordType) (memory : Memory) (size : Nat) (cell : Nat → UInt8) : Prop where
  load (address : UInt32) :
    if Inside address.toNat t.bytes size then
      ∃ w, memory.loadWord t address = .ok w ∧
        w.toNat = ∑ k ∈ Finset.range t.bytes, (cell (address.toNat + k)).toNat * 256 ^ k
    else memory.loadWord t address = .error (beyond address.toNat t.bytes)
  read (offset : Int64) (buffer : Octets) :
    (memory.readInto offset).run buffer =
      if Inside offset.toInt buffer.length size then
        .ok buffer.length ((List.range buffer.length).map fun k => cell (offset.toInt.toNat + k))
      else .error (beyond offset.toInt buffer.length) buffer
  -- Words go the way of their bytes.
  stores (address : UInt32) (value : Word t) :
    memory.storeWord address value = memory.writeAt address.toUInt64.toInt64 value.toOctets
  loads (address : UInt32) :
    memory.loadWord t address =
      (memory.readAt address.toUInt64.toInt64 t.bytes).map (Word.ofOctets t)

theorem Holds.answers (h : memory.Holds size cell) (t : WordType) :
    memory.Answers t size cell where
  load address := by
    have hload := h.loadWord (t := t) address
    split_ifs with hin
    · rw [if_pos hin] at hload
      exact ⟨_, hload, toNat_ofOctets_stretch t cell address.toNat⟩
    · rw [if_neg hin] at hload
      exact hload
  read := h.readInto
  stores := memory.storeWord_eq_writeAt
  loads := memory.loadWord_eq_readAt

theorem changed_append (size : Nat) (changes : List (Change t)) (change : Change t) :
    changed size (changes ++ [change]) = change.perform (changed size changes) := by
  rw [changed, changed, List.foldl_append]
  rfl

theorem apply_changed (size : Nat) (changes : List (Change t)) (change : Change t) :
    if Inside change.start change.bytes.length size then
      change.apply (changed size changes) = .ok (changed size (changes ++ [change]))
    else
      change.apply (changed size changes) = .error (beyond change.start change.bytes.length) ∧
        changed size (changes ++ [change]) = changed size changes := by
  rw [changed_append, Change.perform]
  cases hreset : change.isReset with
  | true =>
    cases change with
    | reset =>
      have hin : Inside (Change.reset : Change t).start (Change.reset : Change t).bytes.length size :=
        ⟨Int.le_refl 0, Int.natCast_nonneg size⟩
      rw [if_pos hin]
      rfl
    | storeWord | writeAt => cases hreset
  | false =>
    rw [Change.apply_write hreset, (holds_changed size changes).size_eq]
    split_ifs
    · rfl
    · exact ⟨rfl, rfl⟩

-- Memory is the history of its successful writes. A change succeeds exactly if it lies inside as
-- exact numbers go, a refused one is reported and changes nothing, and every cell holds what was last
-- put there, which is what reading answers. Sums of 64 bits never wrap around on the way.
theorem contents_follow_writes (t : WordType) (size : Nat) (changes : List (Change t)) :
    (changed size changes).Holds size (lastByte size changes) ∧
    (changed size changes).Answers t size (lastByte size changes) ∧
    (∀ change : Change t,
      if Inside change.start change.bytes.length size then
        change.apply (changed size changes) = .ok (changed size (changes ++ [change]))
      else
        change.apply (changed size changes) = .error (beyond change.start change.bytes.length) ∧
          changed size (changes ++ [change]) = changed size changes) ∧
    (∀ address : UInt32,
      (address.toUInt64 + .ofNat t.bytes).toNat = address.toNat + t.bytes) ∧
    ∀ (offset : Int64) (count : Nat), 0 ≤ offset.toInt → count < 2 ^ 63 →
      ((offset.toUInt64 + .ofNat count).toNat : Int) = offset.toInt + count := by
  have hholds := holds_changed size changes
  refine ⟨hholds, hholds.answers t, apply_changed size changes, ?_, ?_⟩
  · intro address
    rw [toNat_add_ofNat (toNat_add_bytes_lt t address), UInt32.toNat_toUInt64]
  · intro offset count hnonneg hcount
    have hnot : ¬offset < 0 := by
      rw [Int64.lt_iff_toInt_lt, Int64.toInt_zero]
      omega
    rw [toNat_add_ofNat (toNat_add_lt hnot hcount), toNat_toUInt64_of_nonneg hnonneg]
    omega

-- Words and bytes over each other, two changes that reach out of five cells, and a reset.
def overlapping : List (Change ⟨.two, true⟩) :=
  [.writeAt 0 [9, 9, 9, 9, 9], .reset, .storeWord 1 (-2), .writeAt 2 [7, 8], .storeWord 4 5,
    .writeAt (-1) [6]]

theorem contents_follow_writes_overlapping :
    (∀ k < 5, (changed 5 overlapping).bytes[k]? = some ([0, 0xfe, 7, 8, 0].getD k 0)) ∧
      ((changed 5 overlapping).readInto 3).run [1, 1, 1] = .error (.outOfBounds 3 3) [1, 1, 1] ∧
      (Change.writeAt (-1) [6] : Change ⟨.two, true⟩).apply (changed 5 overlapping) =
        .error (.outOfBounds 0xffffffffffffffff 1) ∧
      ((Int64.maxValue.toUInt64 + .ofNat (2 ^ 63 - 1)).toNat : Int) = 2 ^ 64 - 2 := by
  obtain ⟨hholds, hanswers, happly, -, hsum⟩ := contents_follow_writes ⟨.two, true⟩ 5 overlapping
  have hbytes : ∀ k < 5, lastByte 5 overlapping k = [0, 0xfe, 7, 8, 0].getD k 0 := by
    decide +kernel
  refine ⟨?_, hanswers.read 3 [1, 1, 1], (happly (.writeAt (-1) [6])).1, ?_⟩
  · intro k hk
    rw [hholds.cells k hk, hbytes k hk]
  · exact hsum Int64.maxValue (2 ^ 63 - 1) (by decide) (by decide)

end Memory

end RegisterMachine
