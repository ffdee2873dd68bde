import RegisterMachine.Proofs.Resources
import RegisterMachine.Proofs.WordValue

namespace RegisterMachine

variable {t : WordType}

namespace Flags

-- Exactly one flag is set, the one of the sign of a number.
structure SignOf (flags : Flags) (n : Int) : Prop where
  zero : flags.zero = true ↔ n = 0
  negative : flags.negative = true ↔ n < 0
  positive : flags.positive = true ↔ 0 < n
  one : [flags.zero, flags.negative, flags.positive].count true = 1

theorem signOf_ofInt (n : Int) : (ofInt n).SignOf n := by
  refine ⟨by simp [ofInt], by simp [ofInt], by simp [ofInt], ?_⟩
  rcases lt_trichotomy n 0 with hneg | rfl | hpos
  · simp [ofInt, hneg, hneg.ne, hneg.le]
  · rfl
  · simp [ofInt, hpos, hpos.ne', hpos.le]

end Flags

def Opcode.computing : List Opcode :=
  [.and, .or, .xor, .add, .sub, .mult, .div, .mod, .not, .inc, .dec]

namespace Word

-- What a division toward zero leaves over.
structure IsRemainder (a b : Int) (r : Word t) : Prop where
  exact : r.value = a - b * a.tdiv b
  small : r.value.natAbs < b.natAbs
  sign : r.value = 0 ∨ r.value.sign = a.sign
  -- With any word that stands for the quotient it gives the dividend back.
  whole : ∀ q : Word t, q.value ≡ a.tdiv b [ZMOD 2 ^ t.bits] →
    b * q.value + r.value ≡ a [ZMOD 2 ^ t.bits]

-- Whether a word is what an instruction is to compute from the numbers `a` and `b`, told by integers
-- and their bits in two's complement.
def IsResult (op : Opcode) (a b : Int) (r : Word t) : Prop :=
  match op with
  | .add => r.value ≡ a + b [ZMOD 2 ^ t.bits]
  | .sub => r.value ≡ a - b [ZMOD 2 ^ t.bits]
  | .mult => r.value ≡ a * b [ZMOD 2 ^ t.bits]
  | .inc => r.value ≡ a + 1 [ZMOD 2 ^ t.bits]
  | .dec => r.value ≡ a - 1 [ZMOD 2 ^ t.bits]
  | .and => ∀ k < t.bits, r.value.testBit k = (a.testBit k && b.testBit k)
  | .or => ∀ k < t.bits, r.value.testBit k = (a.testBit k || b.testBit k)
  | .xor => ∀ k < t.bits, r.value.testBit k = (a.testBit k ^^ b.testBit k)
  | .not => ∀ k < t.bits, r.value.testBit k = !a.testBit k
  -- The least number has no opposite, so that its quotient by minus one wraps around to itself.
  | .div =>
    r.value ≡ a.tdiv b [ZMOD 2 ^ t.bits] ∧ (a = Snapshot.least t → b = -1 → r.value = a)
  | .mod => IsRemainder a b r ∧ (b = -1 → r.value = 0)
  | _ => False

theorem isResult_unique {op : Opcode} {a b : Int} {r r' : Word t} (h : IsResult op a b r)
    (h' : IsResult op a b r') : r = r' := by
  have hbits {bit : Nat → Bool} (hr : ∀ k < t.bits, r.value.testBit k = bit k)
      (hr' : ∀ k < t.bits, r'.value.testBit k = bit k) : r = r' := by
    apply BitVec.eq_of_getLsbD_eq
    intro k hk
    rw [← testBit_value r hk, ← testBit_value r' hk, hr k hk, hr' k hk]
  cases op
  case add | sub | mult | inc | dec => exact eq_of_value_modEq (h.trans h'.symm)
  case div => exact eq_of_value_modEq (h.1.trans h'.1.symm)
  case mod => exact value_inj.mp (h.1.exact.trans h'.1.exact.symm)
  case and | or | xor | not => exact hbits h h'
  all_goals exact h.elim

theorem isRemainder_remainder (a : Word t) {b : Word t} (h : b.value ≠ 0) :
    IsRemainder a.value b.value (a.remainder b) := by
  refine ⟨?_, ?_, ?_, ?_⟩
  · rw [value_remainder, Int.tmod_def]
  · rw [value_remainder, Int.natAbs_tmod]
    exact Nat.mod_lt _ (Int.natAbs_pos.mpr h)
  · rw [value_remainder, Int.sign_tmod]
    split_ifs with hdvd
    · exact .inl (Int.tmod_eq_zero_of_dvd hdvd)
    · exact .inr rfl
  · intro q hq
    calc b.value * q.value + (a.remainder b).value
        ≡ b.value * a.value.tdiv b.value + a.value.tmod b.value [ZMOD 2 ^ t.bits] := by
          rw [value_remainder]
          exact (hq.mul_left b.value).add_right _
      _ = a.value := Int.mul_tdiv_add_tmod a.value b.value

theorem neg_least_modEq (t : WordType) :
    -Snapshot.least t ≡ Snapshot.least t [ZMOD 2 ^ t.bits] := by
  rw [Int.modEq_iff_dvd]
  unfold Snapshot.least
  cases t.signed with
  | true =>
    refine ⟨-1, ?_⟩
    have hpow : ((Nat.pow 2 (t.bits - 1) : Nat) : Int) = 2 ^ (t.bits - 1) := by norm_cast
    have hhalf := two_pow_bits_eq t
    simp only [if_true, hpow]
    omega
  | false => simp

theorem value_quotient_least {a b : Word t} (ha : a.value = Snapshot.least t)
    (hb : b.value = -1) : (a.quotient b).value = a.value := by
  apply value_inj.mpr
  apply eq_of_value_modEq
  have hquotient := a.value_quotient_modEq b
  rw [hb, Int.tdiv_neg, Int.tdiv_one, ha] at hquotient
  rw [ha]
  exact hquotient.trans (neg_least_modEq t)

end Word

namespace Machine

-- The number that a computing instruction takes first. One more and one less are computed from the
-- register that is changed.
def leftValue (op : Opcode) (i : Instruction t) (m : Machine t) : Int :=
  match op with
  | .inc | .dec => (m.registers.value i.first).value
  | _ => (m.registers.value i.second).value

def rightValue (i : Instruction t) (m : Machine t) : Int := (m.registers.value i.third).value

theorem third_ne_zero {i : Instruction t} {m : Machine t} (h : m.rightValue i ≠ 0) :
    m.registers.value i.third ≠ 0 := by
  intro hzero
  apply h
  rw [rightValue, hzero, Word.value_zero]

theorem result_isResult {op : Opcode} (hcomputing : op ∈ Opcode.computing) (i : Instruction t)
    (m : Machine t) (hdivisor : op = .div ∨ op = .mod → m.rightValue i ≠ 0) :
    Word.IsResult op (m.leftValue op i) (m.rightValue i) (m.result op i) := by
  cases op
  case add => exact Word.value_add_modEq _ _
  case sub => exact Word.value_sub_modEq _ _
  case mult => exact Word.value_mul_modEq _ _
  case inc => exact (Word.value_add_modEq _ _).trans ((Word.value_one_modEq t).add_left _)
  case dec => exact (Word.value_sub_modEq _ _).trans ((Word.value_one_modEq t).sub_left _)
  case and | or | xor | not =>
    intro k hk
    simp [result, compute, leftValue, rightValue, Word.testBit_value _ hk, hk]
  case div =>
    simp only [result, compute, if_neg (third_ne_zero (hdivisor (.inl rfl)))]
    exact ⟨Word.value_quotient_modEq _ _, Word.value_quotient_least⟩
  case mod =>
    simp only [result, compute, if_neg (third_ne_zero (hdivisor (.inr rfl)))]
    refine ⟨Word.isRemainder_remainder _ (hdivisor (.inr rfl)), ?_⟩
    intro hone
    rw [Word.value_remainder, show (m.registers.value i.third).value = -1 from hone, Int.tmod_neg,
      Int.tmod_one]
  all_goals simp [Opcode.computing] at hcomputing

structure Stores (m m' : Machine t) (dest : UInt8) (value : Word t) : Prop where
  register : m'.registers.values[dest.toNat]? = some value
  others : ∀ k ≠ dest.toNat, m'.registers.values[k]? = m.registers.values[k]?
  flags : m'.flags.SignOf value.value

theorem settle_stores {m : Machine t} {dest : UInt8} (h : dest.toNat < m.registers.values.size)
    (value : Word t) (next : Int64) : m.Stores (m.settle dest value next) dest value where
  register := by simp [settle, Registers.put, h]
  others := by
    intro k hk
    simp [settle, Registers.put, hk.symm]
  flags := Flags.signOf_ofInt value.value

theorem effect_of_computing {op : Opcode} (h : op ∈ Opcode.computing) (i : Instruction t)
    (next : Int64) (m : Machine t) :
    m.effect op i next = m.settle i.first (m.result op i) next := by
  cases op
  case and | or | xor | add | sub | mult | div | mod | not | inc | dec => rfl
  all_goals exact absurd h (by decide)

theorem execute_computing {op : Opcode} {i : Instruction t} {m : Machine t}
    (hop : Opcode.ofByte? i.code = some op) (hcomputing : op ∈ Opcode.computing)
    (hids : ∀ id ∈ i.registerIds op, id.toNat < m.registers.values.size)
    (hdivisor : op = .div ∨ op = .mod → m.rightValue i ≠ 0) (next : Int64) :
    execute i next m = .ok () (m.settle i.first (m.result op i) next) := by
  have hobstacle : m.obstacle? op i next = none := by
    cases op
    case and | or | xor | add | sub | mult | not | inc | dec => rfl
    case div | mod => simp only [obstacle?, if_neg (third_ne_zero (hdivisor (by simp)))]
    all_goals simp [Opcode.computing] at hcomputing
  rw [execute_eq_outcome hop, outcome_of_valid (Registers.firstInvalid?_eq_none_iff.mpr hids),
    hobstacle, effect_of_computing hcomputing]

theorem first_mem_registerIds {op : Opcode} (h : op ∈ Opcode.computing) (i : Instruction t) :
    i.first ∈ i.registerIds op := by
  cases op
  case and | or | xor | add | sub | mult | div | mod | not | inc | dec =>
    exact List.mem_cons_self
  all_goals simp [Opcode.computing] at h

-- Computing instructions whose registers are all there do not fail, save for a division by zero, and
-- store the one word that integer arithmetic asks for. Registers may be named more than once: what
-- is computed from is what they held before.
theorem results_exact (m : Machine t) (i : Instruction t) (next : Int64) (op : Opcode)
    (hop : Opcode.ofByte? i.code = some op) (hcomputing : op ∈ Opcode.computing)
    (hids : ∀ id ∈ i.registerIds op, id.toNat < m.registers.values.size)
    (hdivisor : op = .div ∨ op = .mod → m.rightValue i ≠ 0) :
    ∃ r m', execute i next m = .ok () m' ∧ m.Stores m' i.first r ∧
      Word.IsResult op (m.leftValue op i) (m.rightValue i) r ∧
      ∀ r' : Word t, Word.IsResult op (m.leftValue op i) (m.rightValue i) r' → r' = r := by
  have hresult := result_isResult hcomputing i m hdivisor
  have hdest := hids i.first (first_mem_registerIds hcomputing i)
  refine ⟨m.result op i, _, execute_computing hop hcomputing hids hdivisor next,
    settle_stores hdest _ next, hresult, ?_⟩
  intro r' hr'
  exact Word.isResult_unique hr' hresult

def extremes : Machine ⟨.one, true⟩ where
  registers := ⟨#[-128, -1, 127]⟩
  flags := .clear
  stack := ⟨#[], 0⟩
  memory := ⟨#[]⟩
  program := #[]
  pc := 0
  steps := 0
  status := .halted
  maxSteps := 0
  verbose := false

-- The least number divided by minus one, over itself.
theorem results_exact_extremes :
    extremes.leftValue .div ⟨0x0c, 0, 0, 1, 0, 0⟩ = -128 ∧
      extremes.rightValue ⟨0x0c, 0, 0, 1, 0, 0⟩ = -1 ∧
      ∃ r m', execute ⟨0x0c, 0, 0, 1, 0, 0⟩ 4 extremes = .ok () m' ∧ extremes.Stores m' 0 r ∧
        r.value = -128 := by
  obtain ⟨r, m', hexecute, hstores, hresult, -⟩ := results_exact extremes ⟨0x0c, 0, 0, 1, 0, 0⟩ 4
    .div (by decide) (by decide) (by decide +kernel) (by decide)
  have hleft : extremes.leftValue .div ⟨0x0c, 0, 0, 1, 0, 0⟩ = -128 := by decide
  have hright : extremes.rightValue ⟨0x0c, 0, 0, 1, 0, 0⟩ = -1 := by decide
  exact ⟨hleft, hright, r, m', hexecute, hstores, (hresult.2 hleft hright).trans hleft⟩

end Machine

namespace Word

theorem value_sub_of_fits {a b : Word t} (h : Fits t (a.value - b.value)) :
    (a - b).value = a.value - b.value :=
  value_eq_of_modEq (value_sub_modEq a b) h

-- A difference that is too great or too small is off by the number of words, which turns its sign.
theorem value_sub_of_not_fits {a b : Word t} (h : ¬Fits t (a.value - b.value)) :
    (0 < (a - b).value ↔ a.value < b.value) ∧ ((a - b).value < 0 ↔ b.value < a.value) := by
  have ha := a.value_bounds
  have hb := b.value_bounds
  have hzero := (0 : Word t).value_bounds
  have hgreatest := greatest_eq t
  have hmod := value_sub_modEq a b
  rw [value_zero] at hzero
  rw [fits_iff, not_and_or, Int.not_le, Int.not_le] at h
  rcases h with hsmall | hgreat
  · have hshift : a.value - b.value ≡ a.value - b.value + 2 ^ t.bits [ZMOD 2 ^ t.bits] := by
      simp [Int.ModEq]
    have hvalue : (a - b).value = a.value - b.value + 2 ^ t.bits :=
      value_eq_of_modEq (hmod.trans hshift) (fits_iff.mpr (by omega))
    omega
  · have hshift : a.value - b.value ≡ a.value - b.value - 2 ^ t.bits [ZMOD 2 ^ t.bits] := by
      simp [Int.ModEq]
    have hvalue : (a - b).value = a.value - b.value - 2 ^ t.bits :=
      value_eq_of_modEq (hmod.trans hshift) (fits_iff.mpr (by omega))
    omega

theorem value_nonneg (h : t.signed = false) (w : Word t) : 0 ≤ w.value := by
  simp [value, h]

theorem value_sub_eq_zero_iff {a b : Word t} : (a - b).value = 0 ↔ a = b := by
  rw [← value_zero t, value_inj]
  exact sub_eq_zero

-- A difference has the sign of the exact one only if it is the exact one.
theorem value_sub_neg_iff {a b : Word t} :
    ((a - b).value < 0 ↔ a.value < b.value) ↔ Fits t (a.value - b.value) ∨ a = b := by
  by_cases hfits : Fits t (a.value - b.value)
  · rw [value_sub_of_fits hfits]
    simp only [hfits, true_or, iff_true]
    omega
  · obtain ⟨-, hneg⟩ := value_sub_of_not_fits hfits
    have hne : a.value ≠ b.value := by
      intro heq
      apply hfits
      rw [heq, Int.sub_self, ← value_zero t]
      exact fits_value 0
    have hne' : a ≠ b := fun heq => hne (heq ▸ rfl)
    rw [hneg]
    simp only [hfits, hne', or_self, iff_false]
    omega

end Word

namespace Machine

-- What a comparison tells of two numbers. The flags are those of the sign of the difference as long
-- as that is a number of the word type.
structure Compares (flags : Flags) (a b : Word t) : Prop where
  equal : flags.zero = true ↔ a.value = b.value
  near : Word.Fits t (a.value - b.value) →
    (flags.negative = true ↔ a.value < b.value) ∧ (flags.positive = true ↔ b.value < a.value)
  far : ¬Word.Fits t (a.value - b.value) →
    (flags.positive = true ↔ a.value < b.value) ∧ (flags.negative = true ↔ b.value < a.value)
  unsigned : t.signed = false → a ≠ b → flags.positive = true ∧ flags.negative = false

theorem compares_ofInt (a b : Word t) : Compares (.ofInt (a - b).value) a b := by
  obtain ⟨hzero, hnegative, hpositive, -⟩ := Flags.signOf_ofInt (a - b).value
  refine ⟨?_, ?_, ?_, ?_⟩
  · rw [hzero, Word.value_sub_eq_zero_iff, Word.value_inj]
  · intro h
    rw [hnegative, hpositive, Word.value_sub_of_fits h]
    omega
  · intro h
    rw [hnegative, hpositive]
    exact Word.value_sub_of_not_fits h
  · intro ht hne
    have hnonneg := (a - b).value_nonneg ht
    have hvalue : (a - b).value ≠ 0 := fun h => hne (Word.value_sub_eq_zero_iff.mp h)
    rw [hpositive, ← Bool.not_eq_true, hnegative]
    omega

theorem execute_cmp {i : Instruction t} {m : Machine t} {a b : Word t}
    (hop : Opcode.ofByte? i.code = some .cmp) (ha : m.registers.values[i.first.toNat]? = some a)
    (hb : m.registers.values[i.second.toNat]? = some b) (next : Int64) :
    execute i next m = .ok () { m with flags := .ofInt (a - b).value, pc := next } := by
  obtain ⟨hfirst, rfl⟩ := Array.getElem?_eq_some_iff.mp ha
  obtain ⟨hsecond, rfl⟩ := Array.getElem?_eq_some_iff.mp hb
  have hids : m.registers.firstInvalid? (i.registerIds .cmp) = none := by
    rw [Registers.firstInvalid?_eq_none_iff]
    intro id hid
    have hid : id ∈ [i.first, i.second] := hid
    simp only [List.mem_cons, List.not_mem_nil, or_false] at hid
    rcases hid with rfl | rfl
    · exact hfirst
    · exact hsecond
  rw [execute_eq_outcome hop, outcome_of_valid hids]
  simp only [obstacle?, effect, Registers.value, Array.getD, dif_pos hfirst, dif_pos hsecond]
  rfl

theorem execute_jmpn {i : Instruction t} (hop : Opcode.ofByte? i.code = some .jmpn) (next : Int64)
    (m : Machine t) :
    execute i next m = .ok () { m with pc := if m.flags.negative then target i else next } := by
  simp only [execute, hop]
  rfl

-- Whether a jump is taken can be told from where the jumps of all kinds of places lead.
theorem execute_jmpn_iff {m : Machine t} {p : Prop} [Decidable p] :
    (∀ (j : Instruction t) (after : Int64), Opcode.ofByte? j.code = some .jmpn →
      execute j after m = .ok () { m with pc := if p then target j else after }) ↔
      (m.flags.negative = true ↔ p) := by
  constructor
  · intro h
    let j : Instruction t := ⟨Opcode.jmpn.byte, 0, 0, 0, 0, 1⟩
    have hcode : Opcode.ofByte? j.code = some .jmpn := Opcode.ofByte?_byte .jmpn
    have hjump := h j 0 hcode
    rw [execute_jmpn hcode] at hjump
    injection hjump with _ hmachine
    have hpc : (if m.flags.negative = true then target j else 0) = if p then target j else 0 :=
      congrArg Machine.pc hmachine
    have hne : target j ≠ 0 := by
      simp [target, j]
    by_cases hp : p
    · rw [if_pos hp, ite_eq_left_iff] at hpc
      exact iff_of_true (by_contra fun hclear => hne (hpc hclear).symm) hp
    · rw [if_neg hp, ite_eq_right_iff] at hpc
      exact iff_of_false (fun hset => hne (hpc hset)) hp
  · intro h j after hj
    rw [execute_jmpn hj]
    simp only [h]

-- When a comparison can be trusted: only the flags change besides the offset, equal numbers are
-- always told, and a jump on less is right if and only if the exact difference is a number of the
-- word type. For unsigned words that is so only as long as the first number is not the less one.
theorem comparison_trusted (m : Machine t) (i : Instruction t) (next : Int64) (a b : Word t)
    (hop : Opcode.ofByte? i.code = some .cmp) (ha : m.registers.values[i.first.toNat]? = some a)
    (hb : m.registers.values[i.second.toNat]? = some b) :
    ∃ flags, execute i next m = .ok () { m with flags, pc := next } ∧ Compares flags a b ∧
      ((∀ (j : Instruction t) (after : Int64), Opcode.ofByte? j.code = some .jmpn →
        execute j after { m with flags, pc := next } =
          .ok () { m with flags, pc := if a.value < b.value then target j else after }) ↔
        Word.Fits t (a.value - b.value) ∨ a = b) := by
  refine ⟨_, execute_cmp hop ha hb next, compares_ofInt a b, ?_⟩
  have hnegative := (Flags.signOf_ofInt (a - b).value).negative
  rw [← Word.value_sub_neg_iff, ← hnegative]
  exact execute_jmpn_iff

-- The greatest and the least number are compared the wrong way round.
theorem comparison_trusted_extremes :
    ¬Word.Fits ⟨.one, true⟩ (127 - -128) ∧
      ∃ flags : Flags, execute ⟨0x08, 2, 0, 0, 0, 0⟩ 3 extremes =
        .ok () { extremes with flags, pc := 3 } ∧ flags.negative = true := by
  have hfits : ¬Word.Fits ⟨.one, true⟩
      ((127 : Word ⟨.one, true⟩).value - (-128 : Word ⟨.one, true⟩).value) := by
    decide
  obtain ⟨flags, hexecute, hcompares, -⟩ := comparison_trusted extremes ⟨0x08, 2, 0, 0, 0, 0⟩ 3 127
    (-128) (by decide) (by decide) (by decide)
  exact ⟨hfits, flags, hexecute, (hcompares.far hfits).2.mpr (by decide)⟩

end Machine

end RegisterMachine
