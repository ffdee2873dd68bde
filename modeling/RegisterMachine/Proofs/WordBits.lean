import RegisterMachine.Word
import Mathlib

namespace RegisterMachine

variable {t : WordType}

theorem WordType.bytes_le (t : WordType) : t.bytes ≤ 8 := by
  rw [WordType.bytes]
  cases t.width <;> decide

theorem WordType.bytes_pos (t : WordType) : 0 < t.bytes := by
  rw [WordType.bytes]
  cases t.width <;> decide

theorem WordType.bits_le (t : WordType) : t.bits ≤ 64 := by
  have hbytes := t.bytes_le
  rw [bits]
  omega

namespace Word

-- Whatever stands in front of a word in 64 bits, its own bits are the lowest ones.
theorem toNat_extended_mod (w : Word t) : w.extended.toNat % 2 ^ t.bits = w.toNat := by
  have hbits : 2 ^ t.bits ∣ 2 ^ 64 := Nat.pow_dvd_pow 2 t.bits_le
  have hzeros : (w.setWidth 64).toNat % 2 ^ t.bits = w.toNat := by
    rw [BitVec.toNat_setWidth, Nat.mod_mod_of_dvd _ hbits, Nat.mod_eq_of_lt w.isLt]
  have hsigns : (w.signExtend 64).toNat % 2 ^ t.bits = w.toNat := by
    obtain ⟨k, hk⟩ := Nat.dvd_sub hbits (Nat.dvd_refl (2 ^ t.bits))
    rw [BitVec.toNat_signExtend]
    split_ifs
    · rw [hk, Nat.add_mul_mod_self_left, hzeros]
    · rw [Nat.add_zero, hzeros]
  unfold extended
  split_ifs
  · exact hsigns
  · exact hzeros

theorem toNat_mask (t : WordType) : (mask t).toNat = 2 ^ t.bits - 1 := by
  obtain ⟨width, signed⟩ := t
  cases width <;> cases signed <;> decide

theorem toNat_toAddress (w : Word t) : w.toAddress.toNat = w.toNat := by
  rw [toAddress, UInt64.toNat_and, toNat_mask, Nat.and_two_pow_sub_one_eq_mod, toNat_extended_mod]

theorem toAddress_eq (w : Word t) : w.toAddress = UInt64.ofNat w.toNat := by
  rw [← toNat_toAddress, UInt64.ofNat_toNat]

theorem truncated_eq (t : WordType) (bits : UInt64) :
    truncated t bits = BitVec.ofNat t.bits bits.toNat := by
  apply BitVec.eq_of_toNat_eq
  rw [truncated, BitVec.toNat_setWidth, BitVec.toNat_ofNat]
  rfl

theorem mask_lt_iff {address : UInt64} : mask t < address ↔ t.patterns ≤ address.toNat := by
  have hpos : 0 < 2 ^ t.bits := Nat.two_pow_pos t.bits
  have hpatterns : t.patterns = 2 ^ t.bits := rfl
  rw [UInt64.lt_iff_toNat_lt, toNat_mask]
  omega

-- The addresses that fit a word are the numbers below the number of words.
theorem ofAddress?_eq (t : WordType) (address : UInt64) :
    ofAddress? t address =
      if address.toNat < t.patterns then some (BitVec.ofNat t.bits address.toNat) else none := by
  rw [ofAddress?, truncated_eq]
  by_cases h : mask t < address
  · rw [if_pos h, if_neg (Nat.not_lt.mpr (mask_lt_iff.mp h))]
  · rw [if_neg h, if_pos (Nat.lt_of_not_le fun hle => h (mask_lt_iff.mpr hle))]

-- At each width the bytes are those of the pattern, whatever its sign.
theorem toOctets_eq (w : Word t) : w.toOctets = Octets.littleEndian t.bytes w.toNat := by
  have hlow := w.toNat_extended_mod
  obtain ⟨width, signed⟩ := t
  cases width with
  | one =>
    have hbyte : w.extended.toUInt8 = UInt8.ofNat w.toNat := by
      rw [← hlow]
      exact UInt8.toNat_inj.mp (by simp [WordType.bits, WordType.bytes, Width.bytes])
    simp only [toOctets, hbyte]
    rfl
  | two =>
    have hnumber : w.extended.toUInt16.toNat = w.toNat := (UInt64.toNat_toUInt16 _).trans hlow
    simp only [toOctets, hnumber]
    rfl
  | four =>
    have hnumber : w.extended.toUInt32.toNat = w.toNat := (UInt64.toNat_toUInt32 _).trans hlow
    simp only [toOctets, hnumber]
    rfl
  | eight =>
    have hnumber : w.extended.toNat = w.toNat :=
      (Nat.mod_eq_of_lt w.extended.toNat_lt).symm.trans hlow
    simp only [toOctets, hnumber]
    rfl

theorem ofOctets_eq (t : WordType) (bytes : Octets) :
    ofOctets t bytes = BitVec.ofNat t.bits (Octets.fromLittleEndian (bytes.take t.bytes)) := by
  obtain ⟨width, signed⟩ := t
  cases width with
  | one =>
    have hbyte : (bytes.headD 0).toUInt64.toNat = Octets.fromLittleEndian (bytes.take 1) := by
      cases bytes <;> simp [Octets.fromLittleEndian]
    simp only [ofOctets, truncated_eq, hbyte]
    rfl
  | two | four | eight =>
    simp only [ofOctets, truncated_eq]
    apply BitVec.eq_of_toNat_eq
    simp [WordType.bits, WordType.bytes, Width.bytes]

end Word

end RegisterMachine
