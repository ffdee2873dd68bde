import RegisterMachine.Proofs.History

namespace RegisterMachine

variable {t : WordType}

theorem Octets.isText_octets (text : String) : (octets text).isText = true :=
  ByteArray.validateUTF8_eq_true_iff.mpr text.isValidUTF8

theorem length_octets (text : String) : (octets text).length = text.utf8ByteSize := by
  rw [octets, Array.length_toList]
  exact String.size_toByteArray

namespace Text

theorem utf8ByteSize_ofList_le (cs : List Char) :
    (String.ofList cs).utf8ByteSize ≤ 4 * cs.length := by
  rw [String.utf8ByteSize_ofList]
  induction cs with
  | nil => simp
  | cons c rest ih =>
    have hchar := c.utf8Size_le_four
    rw [String.utf8Len_cons, List.length_cons]
    omega

theorem length_groupThrees_le (separator : Char) (cs : List Char) :
    (groupThrees separator cs).length ≤ 2 * cs.length := by
  induction cs with
  | nil => simp [groupThrees]
  | cons c rest ih =>
    rw [groupThrees]
    split_ifs <;> simp only [List.length_cons] <;> omega

theorem length_digits_le {base n : Nat} (hbase : 1 < base) (h : n < base ^ 64) :
    (digits base n).length ≤ 64 :=
  (Nat.length_toDigits_le_iff hbase (by decide)).mpr h

theorem utf8ByteSize_grouped_le {n : Int} (h : n.natAbs < 10 ^ 64) :
    (grouped ',' n).utf8ByteSize ≤ 600 := by
  have hdigits := length_digits_le (by decide) h
  have hgroups := length_groupThrees_le ',' (digits 10 n.natAbs)
  simp only [grouped]
  split_ifs
  · have hsize := utf8ByteSize_ofList_le ('-' :: groupThrees ',' (digits 10 n.natAbs))
    rw [List.length_cons] at hsize
    omega
  · have hsize := utf8ByteSize_ofList_le (groupThrees ',' (digits 10 n.natAbs))
    omega

theorem utf8ByteSize_hex_le {width : Nat} (hwidth : width ≤ 8) {n : Int} (h : n.natAbs < 16 ^ 64) :
    (hex width n).utf8ByteSize ≤ 600 := by
  have hdigits := length_digits_le (by decide) h
  have hpad (count : Nat) (hcount : count ≤ 8) :
      (padZeros count (digits 16 n.natAbs)).length ≤ 72 := by
    simp only [padZeros, List.length_append, List.length_replicate]
    omega
  unfold hex
  split_ifs
  · have hsize := utf8ByteSize_ofList_le ('-' :: padZeros (width - 1) (digits 16 n.natAbs))
    have hzeros := hpad (width - 1) (by omega)
    rw [List.length_cons] at hsize
    omega
  · have hsize := utf8ByteSize_ofList_le (padZeros width (digits 16 n.natAbs))
    have hzeros := hpad width hwidth
    omega

end Text

theorem Opcode.utf8ByteSize_text_le (code : UInt8) : (Opcode.text code).utf8ByteSize ≤ 700 := by
  have hcode := code.toNat_lt
  have hhex : (Text.hex 2 code.toNat).utf8ByteSize ≤ 600 :=
    Text.utf8ByteSize_hex_le (by decide) (by omega)
  unfold Opcode.text
  cases Opcode.ofByte? code with
  | none =>
    simp only [String.utf8ByteSize_append]
    have hwords : "Opcode(0x".utf8ByteSize = 9 ∧ ")".utf8ByteSize = 1 := ⟨rfl, rfl⟩
    omega
  | some op =>
    show op.mnemonic.utf8ByteSize ≤ 700
    cases op <;> decide

-- The messages with everything that they mention in its place.
theorem Cause.message_eq (cause : Cause) :
    cause.message =
      match cause with
      | .invalidOpcode code => "opcode 0x" ++ Text.hex 2 code.toNat ++ " invalid"
      | .truncated code need left =>
        if need ≤ 1 then "no instruction to fetch"
        else Opcode.text code ++ " needs " ++ Text.grouped ',' need ++ " bytes, " ++
          Text.grouped ',' left ++ " remain"
      | .invalidRegister id => "register r" ++ Text.grouped ',' id.toNat ++ " invalid"
      | .outOfBounds address size =>
        "access of " ++ Text.grouped ',' size ++ " bytes at 0x" ++ Text.hex 8 address.toNat ++
          " out of bounds"
      | .stackOverflow => "stack overflow"
      | .stackUnderflow => "stack underflow"
      | .divisionByZero => "division by zero"
      | .returnAddress => "return address exceeds word width"
      | .stepLimit => "step limit exceeded" := by
  cases cause with
  | invalidOpcode code =>
    show "opcode 0x" ++ (Text.hex 2 code.toNat ++ (" invalid" ++ "")) = _
    simp only [String.append_empty, String.append_assoc]
  | truncated code need left =>
    simp only [message]
    split_ifs
    · decide
    · show "" ++ (Opcode.text code ++ (" needs " ++ (Text.grouped ',' need ++ (" bytes, " ++
        (Text.grouped ',' left ++ (" remain" ++ "")))))) = _
      simp only [String.append_empty, String.empty_append, String.append_assoc]
  | invalidRegister id =>
    show "register r" ++ (Text.grouped ',' id.toNat ++ (" invalid" ++ "")) = _
    simp only [String.append_empty, String.append_assoc]
  | outOfBounds address size =>
    show "access of " ++ (Text.grouped ',' size ++ (" bytes at 0x" ++
      (Text.hex 8 address.toNat ++ (" out of bounds" ++ "")))) = _
    simp only [String.append_empty, String.append_assoc]
  | stackOverflow | stackUnderflow | divisionByZero | returnAddress | stepLimit => decide

theorem Fault.message_eq (fault : Fault) :
    fault.message = "pc 0x" ++ Text.hex 4 fault.offset.toInt ++ " " ++ Opcode.text fault.code ++
      ": " ++ fault.cause.message := by
  show "pc 0x" ++ (Text.hex 4 fault.offset.toInt ++ (" " ++ (Opcode.text fault.code ++ (": " ++
    (fault.cause.message ++ ("" ++ "")))))) = _
  simp only [String.append_empty, String.append_assoc]

theorem Cause.Possible.utf8ByteSize_message_le {cause : Cause} {sizes : Sizes}
    (h : cause.Possible t sizes) : cause.message.utf8ByteSize ≤ 2500 := by
  have hgrouped (n : Nat) (hn : n < 10 ^ 64) : (Text.grouped ',' n).utf8ByteSize ≤ 600 :=
    Text.utf8ByteSize_grouped_le (by omega)
  cases cause with
  | invalidOpcode code =>
    have hcode := code.toNat_lt
    have hhex : (Text.hex 2 code.toNat).utf8ByteSize ≤ 600 :=
      Text.utf8ByteSize_hex_le (by decide) (by omega)
    have hwords : "opcode 0x".utf8ByteSize = 9 ∧ " invalid".utf8ByteSize = 8 := ⟨rfl, rfl⟩
    simp only [message_eq, String.utf8ByteSize_append]
    omega
  | truncated code need left =>
    obtain ⟨hleft, hneed⟩ := h
    have hsmall : need ≤ 10 := by
      rcases hneed with rfl | ⟨op, -, rfl⟩
      · decide
      · exact Opcode.size_le t op
    have hcode := Opcode.utf8ByteSize_text_le code
    have hn := hgrouped need (by omega)
    have hl := hgrouped left (by omega)
    have hwords : " needs ".utf8ByteSize = 7 ∧ " bytes, ".utf8ByteSize = 8 ∧
        " remain".utf8ByteSize = 7 := ⟨rfl, rfl, rfl⟩
    simp only [message_eq]
    split_ifs
    · decide
    · simp only [String.utf8ByteSize_append]
      omega
  | invalidRegister id =>
    have hid := id.toNat_lt
    have hn := hgrouped id.toNat (by omega)
    have hwords : "register r".utf8ByteSize = 10 ∧ " invalid".utf8ByteSize = 8 := ⟨rfl, rfl⟩
    simp only [message_eq, String.utf8ByteSize_append]
    omega
  | outOfBounds address size =>
    obtain ⟨rfl, -⟩ := h
    have haddress := address.toNat_lt
    have hbytes := t.bytes_le
    have hn := hgrouped t.bytes (by omega)
    have hhex : (Text.hex 8 address.toNat).utf8ByteSize ≤ 600 :=
      Text.utf8ByteSize_hex_le (by decide) (by omega)
    have hwords : "access of ".utf8ByteSize = 10 ∧ " bytes at 0x".utf8ByteSize = 12 ∧
        " out of bounds".utf8ByteSize = 14 := ⟨rfl, rfl, rfl⟩
    simp only [message_eq, String.utf8ByteSize_append]
    omega
  | stackOverflow | stackUnderflow | divisionByZero | returnAddress | stepLimit => decide

-- Only numbers vary in the message of a fault that can occur, and they have few digits.
theorem Fault.utf8ByteSize_message_le {fault : Fault} {sizes : Sizes}
    (h : fault.cause.Possible t sizes) : fault.message.utf8ByteSize ≤ 4000 := by
  have hcause := h.utf8ByteSize_message_le
  have hcode := Opcode.utf8ByteSize_text_le fault.code
  have hoffset : (Text.hex 4 fault.offset.toInt).utf8ByteSize ≤ 600 := by
    have hle := fault.offset.le_toInt
    have hlt := fault.offset.toInt_lt
    exact Text.utf8ByteSize_hex_le (by decide) (by omega)
  have hwords : "pc 0x".utf8ByteSize = 5 ∧ " ".utf8ByteSize = 1 ∧
      ": ".utf8ByteSize = 2 := ⟨rfl, rfl, rfl⟩
  simp only [message_eq, String.utf8ByteSize_append]
  omega

-- The text of what went wrong, empty unless something did.
def Status.faultText : Status → Octets
  | .failed fault => octets fault.message
  | .running | .halted => []

theorem Status.isText_faultText (status : Status) : status.faultText.isText = true := by
  cases status with
  | running | halted => rfl
  | failed fault => exact Octets.isText_octets fault.message

theorem Machine.Reachable.length_faultText_le {registers stack memory : Int} {m : Machine t}
    (h : m.Reachable registers stack memory) : m.status.faultText.length ≤ 4000 := by
  cases hstatus : m.status with
  | running | halted => simp [Status.faultText]
  | failed fault =>
    rw [Status.faultText, length_octets]
    exact Fault.utf8ByteSize_message_le (h.invariant.fault fault hstatus)

end RegisterMachine
