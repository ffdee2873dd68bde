import RegisterMachine.Proofs.CallReturn
import RegisterMachine.Proofs.RoundTrip
import RegisterMachine.Proofs.WordValue

namespace RegisterMachine

variable {t : WordType}

theorem Octets.getElem?_littleEndian {count k : Nat} (h : k < count) (value : Nat) :
    (littleEndian count value)[k]? = some (UInt8.ofNat (value / 256 ^ k)) := by
  induction count generalizing k value with
  | zero => omega
  | succ count ih =>
    cases k with
    | zero => simp [littleEndian]
    | succ k =>
      rw [littleEndian, List.getElem?_cons_succ, ih (by omega), Nat.div_div_eq_div_mul,
        Nat.pow_succ']

namespace Word

theorem put_of_le {buffer : Octets} (h : t.bytes ≤ buffer.length) (v : Word t) :
    put buffer v = .ok (v.toOctets ++ buffer.drop t.bytes) :=
  if_neg (Nat.not_lt.mpr h)

theorem get_of_le {buffer : Octets} (h : t.bytes ≤ buffer.length) :
    get t buffer = .ok (ofOctets t buffer) :=
  if_neg (Nat.not_lt.mpr h)

theorem ofOctets_congr {buffer other : Octets} (h : other.take t.bytes = buffer.take t.bytes) :
    ofOctets t other = ofOctets t buffer := by
  rw [ofOctets_eq, ofOctets_eq, h]

theorem take_toOctets_append (v : Word t) (rest : Octets) :
    (v.toOctets ++ rest).take t.bytes = v.toOctets := by
  rw [List.take_left' v.length_toOctets]

-- The first bytes become those of the word, least significant first, and the others stay.
theorem getElem?_toOctets_append (v : Word t) (buffer : Octets) (k : Nat) :
    (v.toOctets ++ buffer.drop t.bytes)[k]? =
      if k < t.bytes then some (UInt8.ofNat (v.toNat / 256 ^ k)) else buffer[k]? := by
  have hlength := v.length_toOctets
  split_ifs with hk
  · rw [List.getElem?_append_left (by omega), toOctets_eq, Octets.getElem?_littleEndian hk]
  · rw [List.getElem?_append_right (by omega), hlength, List.getElem?_drop]
    congr 1
    omega

theorem ofOctets_toOctets_append (v : Word t) (rest : Octets) :
    ofOctets t (v.toOctets ++ rest) = v := by
  have htake : (v.toOctets ++ rest).take t.bytes = v.toOctets.take t.bytes := by
    rw [take_toOctets_append, List.take_of_length_le (Nat.le_of_eq v.length_toOctets)]
  rw [ofOctets_congr htake, ofOctets_toOctets]

theorem toOctets_ofOctets_take {buffer : Octets} (h : t.bytes ≤ buffer.length) :
    (ofOctets t buffer).toOctets = buffer.take t.bytes := by
  have hlength : (buffer.take t.bytes).length = t.bytes := by
    rw [List.length_take]
    omega
  have htake : buffer.take t.bytes = (buffer.take t.bytes).take t.bytes := by
    rw [List.take_take, Nat.min_self]
  rw [ofOctets_congr htake, toOctets_ofOctets hlength]

theorem isSome_ofAddress?_iff {address : UInt64} :
    (ofAddress? t address).isSome ↔ address.toNat < t.patterns := by
  rw [ofAddress?_eq]
  split_ifs with h <;> simp [h]

theorem toAddress_of_ofAddress? {address : UInt64} {v : Word t}
    (h : ofAddress? t address = some v) : v.toAddress = address := by
  have hfits := isSome_ofAddress?_iff.mp (Option.isSome_of_eq_some h)
  rw [ofAddress?_eq, if_pos hfits, Option.some.injEq] at h
  rw [← h, toAddress_ofNat hfits]

theorem ofAddress?_toAddress (v : Word t) : ofAddress? t v.toAddress = some v := by
  have hfits : v.toAddress.toNat < t.patterns := by
    rw [toNat_toAddress]
    exact v.isLt
  rw [ofAddress?_eq, if_pos hfits, toNat_toAddress, BitVec.ofNat_toNat, BitVec.setWidth_eq]

-- A negative number is read as the address that is the same modulo two to the number of bits.
theorem toNat_toAddress_eq_emod (v : Word t) :
    (v.toAddress.toNat : Int) = v.value % 2 ^ t.bits := by
  have hlt : (v.toNat : Int) < 2 ^ t.bits := by exact_mod_cast v.isLt
  rw [toNat_toAddress, v.value_modEq_toNat, Int.emod_eq_of_lt (Int.natCast_nonneg _) hlt]

-- Writing a word and reading it are inverse to each other on any buffer with room for one, and so
-- are taking a word for an address and an address that fits for a word, whatever the sign.
theorem codecs_exact (t : WordType) :
    (∀ (v : Word t) (buffer : Octets), t.bytes ≤ buffer.length →
      ∃ written, put buffer v = .ok written ∧ written.length = buffer.length ∧
        (∀ k, written[k]? =
          if k < t.bytes then some (UInt8.ofNat (v.toNat / 256 ^ k)) else buffer[k]?) ∧
        get t written = .ok v) ∧
    (∀ buffer : Octets, t.bytes ≤ buffer.length →
      ∃ v, get t buffer = .ok v ∧ put buffer v = .ok buffer ∧
        ∀ other : Octets, other.take t.bytes = buffer.take t.bytes → get t other = .ok v) ∧
    (∀ address : UInt64,
      ((ofAddress? t address).isSome ↔ address.toNat < 2 ^ (8 * t.bytes)) ∧
        ∀ v, ofAddress? t address = some v → v.toAddress = address) ∧
    ∀ v : Word t, (v.toAddress.toNat : Int) = v.value % 2 ^ (8 * t.bytes) ∧
      ofAddress? t v.toAddress = some v := by
  refine ⟨?_, ?_, ?_, ?_⟩
  · intro v buffer h
    have hlength : (v.toOctets ++ buffer.drop t.bytes).length = buffer.length := by
      rw [List.length_append, length_toOctets, List.length_drop]
      omega
    refine ⟨_, put_of_le h v, hlength, v.getElem?_toOctets_append buffer, ?_⟩
    rw [get_of_le (hlength ▸ h), ofOctets_toOctets_append]
  · intro buffer h
    refine ⟨_, get_of_le h, ?_, ?_⟩
    · rw [put_of_le h, toOctets_ofOctets_take h, List.take_append_drop]
    · intro other hsame
      have hlength : t.bytes ≤ other.length := by
        have heq := congrArg List.length hsame
        rw [List.length_take, List.length_take] at heq
        omega
      rw [get_of_le hlength, ofOctets_congr hsame]
  · exact fun address => ⟨isSome_ofAddress?_iff, fun v => toAddress_of_ofAddress?⟩
  · exact fun v => ⟨v.toNat_toAddress_eq_emod, v.ofAddress?_toAddress⟩

-- The least number of two bytes, in a buffer of three and as an address, and the number of eight
-- bytes that fills all bits of an address.
theorem codecs_exact_least :
    let v : Word ⟨.two, true⟩ := -32768
    v.value = -32768 ∧
      (∃ written, put [1, 2, 3] v = .ok written ∧ written[1]? = some 0x80 ∧
        written[2]? = some 3 ∧ get ⟨.two, true⟩ written = .ok v) ∧
      (∃ w, get ⟨.two, true⟩ [0, 0x80, 7] = .ok w ∧ put [0, 0x80, 7] w = .ok [0, 0x80, 7] ∧
        get ⟨.two, true⟩ [0, 0x80] = .ok w) ∧
      ofAddress? ⟨.two, true⟩ 0x10000 = none ∧ v.toAddress = 0x8000 ∧
      (ofAddress? ⟨.eight, true⟩ 0xffffffffffffffff).isSome ∧
      (toAddress (-1 : Word ⟨.eight, true⟩)).toNat = (-1 : Int) % 2 ^ 64 := by
  intro v
  obtain ⟨hwrite, hread, haddress, hword⟩ := codecs_exact ⟨.two, true⟩
  obtain ⟨-, -, haddress', hword'⟩ := codecs_exact ⟨.eight, true⟩
  refine ⟨by decide, ?_, ?_, ?_, ?_, (haddress' _).1.mpr (by decide), (hword' (-1)).1⟩
  · obtain ⟨written, hput, -, hbytes, hget⟩ := hwrite v [1, 2, 3] (by decide)
    exact ⟨written, hput, (hbytes 1).trans (by decide), (hbytes 2).trans (by decide), hget⟩
  · obtain ⟨w, hget, hput, hother⟩ := hread [0, 0x80, 7] (by decide)
    exact ⟨w, hget, hput, hother [0, 0x80] (by decide)⟩
  · rw [← Option.not_isSome_iff_eq_none, (haddress 0x10000).1]
    decide
  · exact (haddress 0x8000).2 v (by decide)

end Word

end RegisterMachine
