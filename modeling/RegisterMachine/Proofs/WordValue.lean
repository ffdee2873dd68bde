import RegisterMachine.Snapshot
import RegisterMachine.Proofs.Tick

namespace RegisterMachine

variable {t : WordType}

theorem WordType.bits_pos (t : WordType) : 0 < t.bits := Nat.mul_pos (by decide) t.bytes_pos

namespace Word

theorem ofInt_value (w : Word t) : Word.ofInt t w.value = w := by
  unfold Word.ofInt value
  cases t.signed with
  | true =>
    simp only [if_true]
    exact BitVec.ofInt_toInt
  | false =>
    simp only [Bool.false_eq_true, if_false]
    rw [BitVec.ofInt_natCast, BitVec.ofNat_toNat, BitVec.setWidth_eq]

theorem value_inj {w w' : Word t} : w.value = w'.value ↔ w = w' := by
  refine ⟨fun h => ?_, fun h => h ▸ rfl⟩
  rw [← ofInt_value w, h, ofInt_value]

theorem value_bounds (w : Word t) : Snapshot.least t ≤ w.value ∧ w.value ≤ Snapshot.greatest t := by
  unfold Snapshot.least Snapshot.greatest value
  have hpow (n : Nat) : ((Nat.pow 2 n : Nat) : Int) = 2 ^ n := by norm_cast
  cases t.signed with
  | true =>
    simp only [if_true, hpow]
    exact ⟨w.le_toInt, BitVec.toInt_le⟩
  | false =>
    have hlt : w.toNat < t.patterns := w.isLt
    simp only [Bool.false_eq_true, if_false]
    omega

theorem least_greatest_le (t : WordType) :
    -2 ^ 63 ≤ Snapshot.least t ∧ Snapshot.greatest t < 2 ^ 64 := by
  obtain ⟨width, signed⟩ := t
  cases width <;> cases signed <;> decide

theorem two_pow_bits_eq (t : WordType) : (2 ^ t.bits : Int) = 2 * 2 ^ (t.bits - 1) := by
  rw [← pow_succ', Nat.sub_add_cancel t.bits_pos]

-- There are as many numbers from the least to the greatest as there are words.
theorem greatest_eq (t : WordType) : Snapshot.greatest t = Snapshot.least t + 2 ^ t.bits - 1 := by
  unfold Snapshot.least Snapshot.greatest
  have hpow (n : Nat) : ((Nat.pow 2 n : Nat) : Int) = 2 ^ n := by norm_cast
  have hhalf := two_pow_bits_eq t
  cases t.signed with
  | true =>
    simp only [if_true, hpow]
    omega
  | false => simp [WordType.patterns]

-- However a pattern is read, the number is the same modulo two to the number of bits.
theorem value_modEq_toNat (w : Word t) : w.value ≡ w.toNat [ZMOD 2 ^ t.bits] := by
  unfold value
  cases t.signed with
  | true =>
    rw [if_pos rfl, BitVec.toInt_eq_toNat_bmod]
    exact_mod_cast Int.bmod_emod
  | false => rfl

theorem eq_of_value_modEq {w w' : Word t} (h : w.value ≡ w'.value [ZMOD 2 ^ t.bits]) : w = w' := by
  have hmod : (w.toNat : Int) ≡ w'.toNat [ZMOD 2 ^ t.bits] :=
    w.value_modEq_toNat.symm.trans (h.trans w'.value_modEq_toNat)
  have hnat : w.toNat ≡ w'.toNat [MOD 2 ^ t.bits] := by
    exact_mod_cast hmod
  exact BitVec.eq_of_toNat_eq (hnat.eq_of_lt_of_lt w.isLt w'.isLt)

theorem value_ofInt_modEq (t : WordType) (n : Int) : (ofInt t n).value ≡ n [ZMOD 2 ^ t.bits] := by
  refine (value_modEq_toNat _).trans ?_
  rw [ofInt, BitVec.toNat_ofInt, Int.toNat_of_nonneg (Int.emod_nonneg n (by positivity))]
  exact_mod_cast Int.mod_modEq n (2 ^ t.bits)

theorem fits_value (w : Word t) : Fits t w.value := by
  rw [Fits, ofInt_value]

-- The numbers that a word can hold are those from the least to the greatest.
theorem fits_iff {n : Int} : Fits t n ↔ Snapshot.least t ≤ n ∧ n ≤ Snapshot.greatest t := by
  constructor
  · intro h
    rw [← show _ = n from h]
    exact value_bounds _
  · intro h
    have hbounds := value_bounds (ofInt t n)
    have hgreatest := greatest_eq t
    have hdvd := (value_ofInt_modEq t n).symm.dvd
    have hclose : |(ofInt t n).value - n| < 2 ^ t.bits := abs_lt.mpr (by omega)
    exact Int.sub_eq_zero.mp (Int.eq_zero_of_abs_lt_dvd hdvd hclose)

theorem value_eq_of_modEq {w : Word t} {n : Int} (h : w.value ≡ n [ZMOD 2 ^ t.bits])
    (hfits : Fits t n) : w.value = n := by
  have hword : w = ofInt t n := eq_of_value_modEq (h.trans (value_ofInt_modEq t n).symm)
  rw [hword]
  exact hfits

@[simp]
theorem value_zero (t : WordType) : (0 : Word t).value = 0 := by
  unfold value
  cases t.signed with
  | true => exact BitVec.toInt_zero
  | false => rfl

theorem value_one_modEq (t : WordType) : (1 : Word t).value ≡ 1 [ZMOD 2 ^ t.bits] := by
  have hone : ofInt t 1 = (1 : Word t) := BitVec.ofInt_ofNat t.bits 1
  rw [← hone]
  exact value_ofInt_modEq t 1

theorem value_add_modEq (a b : Word t) : (a + b).value ≡ a.value + b.value [ZMOD 2 ^ t.bits] := by
  refine (value_modEq_toNat _).trans (Int.ModEq.trans ?_
    (a.value_modEq_toNat.add b.value_modEq_toNat).symm)
  rw [BitVec.toNat_add]
  exact_mod_cast Nat.mod_modEq (a.toNat + b.toNat) (2 ^ t.bits)

theorem value_sub_modEq (a b : Word t) : (a - b).value ≡ a.value - b.value [ZMOD 2 ^ t.bits] := by
  have h := (a - b).value_add_modEq b
  rw [BitVec.sub_add_cancel] at h
  simpa using (h.sub_right b.value).symm

theorem value_mul_modEq (a b : Word t) : (a * b).value ≡ a.value * b.value [ZMOD 2 ^ t.bits] := by
  refine (value_modEq_toNat _).trans (Int.ModEq.trans ?_
    (a.value_modEq_toNat.mul b.value_modEq_toNat).symm)
  rw [BitVec.toNat_mul]
  exact_mod_cast Nat.mod_modEq (a.toNat * b.toNat) (2 ^ t.bits)

-- The pattern is the number in two's complement.
theorem testBit_value (w : Word t) {k : Nat} (h : k < t.bits) :
    w.value.testBit k = w.getLsbD k := by
  unfold value
  cases t.signed with
  | true =>
    rw [if_pos rfl, BitVec.toInt_eq_msb_cond]
    cases w.msb with
    | true =>
      have hlt := w.isLt
      have hneg : (w.toNat : Int) - (2 ^ t.bits : Nat) = Int.negSucc (2 ^ t.bits - (w.toNat + 1)) := by
        omega
      rw [if_pos rfl, hneg, Int.testBit, Nat.testBit_two_pow_sub_succ hlt, decide_eq_true h,
        Bool.true_and, Bool.not_not]
      rfl
    | false => rfl
  | false => rfl

theorem value_quotient_modEq (a b : Word t) :
    (a.quotient b).value ≡ a.value.tdiv b.value [ZMOD 2 ^ t.bits] := by
  unfold value quotient
  cases t.signed with
  | true =>
    simp only [if_true, BitVec.toInt_sdiv]
    exact_mod_cast Int.bmod_emod
  | false =>
    simp only [Bool.false_eq_true, if_false, BitVec.udiv_eq, BitVec.toNat_udiv, Int.ofNat_tdiv]
    rfl

theorem value_remainder (a b : Word t) : (a.remainder b).value = a.value.tmod b.value := by
  unfold value remainder
  cases t.signed with
  | true => simp only [if_true, BitVec.toInt_srem]
  | false =>
    simp only [Bool.false_eq_true, if_false, BitVec.umod_eq, BitVec.toNat_umod, Int.ofNat_tmod]

end Word

end RegisterMachine
