import RegisterMachine.Proofs.FaultCode
import RegisterMachine.Proofs.SnapshotFile
import RegisterMachine.Proofs.Spelling

namespace RegisterMachine

variable {t : WordType}

namespace Cause

-- Without a whole instruction to name, the message says only that there is nothing to fetch. So
-- there has to be only one cause of that kind.
def Told : Cause → Prop
  | .truncated code need left => (code = 0 ∧ need = 1 ∧ left = 0) ∨ 1 < need
  | _ => True

-- How the messages begin, but for the one that begins with the name of an opcode.
def openings : List (List Char) :=
  ["opcode 0".toList, "no instr".toList, "register".toList, "access o".toList, "stack ov".toList,
    "stack un".toList, "division".toList, "return a".toList, "step lim".toList]

-- The place of a message's beginning among the openings.
def kind : Cause → Nat
  | .invalidOpcode _ => 0
  | .truncated _ need _ => if need ≤ 1 then 1 else 9
  | .invalidRegister _ => 2
  | .outOfBounds _ _ => 3
  | .stackOverflow => 4
  | .stackUnderflow => 5
  | .divisionByZero => 6
  | .returnAddress => 7
  | .stepLimit => 8

end Cause

theorem Opcode.isUpper_head?_text (code : UInt8) :
    (Opcode.text code).toList.head?.any Char.isUpper = true := by
  unfold Opcode.text
  cases ofByte? code with
  | none =>
    have hhead : ("Opcode(0x" ++ Text.hex 2 code.toNat ++ ")").toList.head? = some 'O' := by
      rw [String.append_assoc]
      exact Text.head?_append (by decide) _
    simp only [hhead]
    decide
  | some op =>
    show op.mnemonic.toList.head?.any Char.isUpper = true
    cases op <;> decide

namespace Cause

theorem take_append {opening : String} (h : 8 ≤ opening.toList.length) (rest : String) :
    (opening ++ rest).toList.take 8 = opening.toList.take 8 := by
  rw [String.toList_append, List.take_append_of_le_length h]

theorem idxOf_opening_truncated (code : UInt8) (rest : String) :
    openings.idxOf ((Opcode.text code ++ rest).toList.take 8) = 9 := by
  have hlower : openings.all (fun opening => !opening.head?.any Char.isUpper) = true := by decide
  obtain ⟨c, htext, hupper⟩ := (Option.any_eq_true _ _).mp (Opcode.isUpper_head?_text code)
  have hhead : ((Opcode.text code ++ rest).toList.take 8).head? = some c := by
    rw [List.head?_take, if_neg (by decide), Text.head?_append htext]
  apply List.idxOf_eq_length
  intro hmem
  have hopening := List.all_eq_true.mp hlower _ hmem
  rw [hhead, Option.any_some, hupper] at hopening
  cases hopening

-- A message tells its kind by the way it begins.
theorem idxOf_opening (cause : Cause) :
    openings.idxOf (cause.message.toList.take 8) = cause.kind := by
  cases cause with
  | invalidOpcode code =>
    simp only [message_eq, String.append_assoc]
    rw [take_append (by decide)]
    rfl
  | truncated code need left =>
    simp only [message_eq, kind]
    split_ifs
    · decide
    · simp only [String.append_assoc]
      exact idxOf_opening_truncated code _
  | invalidRegister id =>
    simp only [message_eq, String.append_assoc]
    rw [take_append (by decide)]
    rfl
  | outOfBounds address size =>
    simp only [message_eq, String.append_assoc]
    rw [take_append (by decide)]
    rfl
  | stackOverflow | stackUnderflow | divisionByZero | returnAddress | stepLimit => decide

theorem kind_eq_of_message {cause cause' : Cause} (h : cause.message = cause'.message) :
    cause.kind = cause'.kind := by
  rw [← idxOf_opening, h, idxOf_opening]

theorem grouped_inj {n m : Nat} (h : Text.grouped ',' n = Text.grouped ',' m) : n = m :=
  Int.ofNat.inj (Text.grouped_injective (by decide) h)

theorem notMem_grouped (n : Nat) : ' ' ∉ (Text.grouped ',' n).toList :=
  Text.notMem_grouped (by decide) (by decide) n

theorem truncated_inj {code code' : UInt8} {need need' left left' : Nat} (h : 1 < need)
    (h' : 1 < need')
    (heq : (truncated code need left).message = (truncated code' need' left').message) :
    truncated code need left = truncated code' need' left' := by
  simp only [message_eq, if_neg (Nat.not_le.mpr h), if_neg (Nat.not_le.mpr h'),
    String.append_assoc] at heq
  obtain ⟨hcode, heq⟩ := Text.field_inj (by decide) (Opcode.notMem_text (.inl rfl) code)
    (Opcode.notMem_text (.inl rfl) code') heq
  obtain ⟨hneed, heq⟩ := Text.field_inj (by decide) (notMem_grouped need) (notMem_grouped need') heq
  rw [String.append_left_inj] at heq
  rw [Opcode.text_injective hcode, grouped_inj hneed, grouped_inj heq]

theorem outOfBounds_inj {address address' : UInt64} {size size' : Nat}
    (h : (outOfBounds address size).message = (outOfBounds address' size').message) :
    outOfBounds address size = outOfBounds address' size' := by
  simp only [message_eq, String.append_assoc, String.append_right_inj] at h
  obtain ⟨hsize, h⟩ := Text.field_inj (by decide) (notMem_grouped size) (notMem_grouped size') h
  rw [String.append_left_inj] at h
  have haddress := Int.ofNat.inj (Text.hex_injective 8 h)
  rw [grouped_inj hsize, UInt64.toNat_inj.mp haddress]

-- Only causes of one kind are left to compare, and there the numbers tell the rest.
theorem Told.eq_of_message {cause cause' : Cause} (h : cause.Told) (h' : cause'.Told)
    (heq : cause.message = cause'.message) : cause = cause' := by
  have hkind := kind_eq_of_message heq
  cases cause <;> cases cause' <;> simp only [kind] at hkind
  case invalidOpcode.invalidOpcode code code' =>
    simp only [message_eq, String.append_left_inj, String.append_right_inj] at heq
    have hcode := Int.ofNat.inj (Text.hex_injective 2 heq)
    rw [UInt8.toNat_inj.mp hcode]
  case truncated.truncated code need left code' need' left' =>
    rcases h with ⟨rfl, rfl, rfl⟩ | hneed <;> rcases h' with ⟨rfl, rfl, rfl⟩ | hneed'
    · rfl
    · rw [if_pos (by decide), if_neg (by omega)] at hkind
      cases hkind
    · rw [if_neg (by omega), if_pos (by decide)] at hkind
      cases hkind
    · exact truncated_inj hneed hneed' heq
  case invalidRegister.invalidRegister id id' =>
    simp only [message_eq, String.append_left_inj, String.append_right_inj] at heq
    rw [UInt8.toNat_inj.mp (grouped_inj heq)]
  case outOfBounds.outOfBounds => exact outOfBounds_inj heq
  all_goals grind

end Cause

theorem Instruction.told_of_decode {program : Array UInt8} {pc : Int} {cause : Cause}
    (h : decode t program pc = .error cause) : cause.Told := by
  by_cases hout : pc < 0 ∨ program.size ≤ pc
  · rw [decode_of_outside hout] at h
    cases h
    exact .inl ⟨rfl, rfl, rfl⟩
  · rw [decode_of_inside hout] at h
    cases hop : Opcode.ofByte? (program.getD pc.toNat 0) with
    | none =>
      simp only [hop] at h
      cases h
      trivial
    | some op =>
      simp only [hop] at h
      split_ifs at h with hleft
      cases h
      -- one byte is there, and it is not enough
      exact .inr (by omega)

theorem Machine.told_of_refusal {op : Opcode} {i : Instruction t} {next : Int64} {m : Machine t}
    {cause : Cause} (h : m.refusal? op i next = some cause) : cause.Told := by
  rw [refusal?] at h
  split at h
  · cases h
    trivial
  · cases op
    case ld | st | div | mod | pushreg | popreg | ret | call =>
      simp only [obstacle?] at h
      split_ifs at h <;> cases h <;> trivial
    all_goals cases h

namespace Fault

-- A running machine can fail so.
def Arises (fault : Fault) : Prop :=
  ∃ (t : WordType) (m : Machine t), m.status = .running ∧ m.tick.stop = some (.fault fault)

-- Two faults that differ at most in the number of steps before them.
def SameButSteps (fault fault' : Fault) : Prop :=
  fault.offset = fault'.offset ∧ fault.code = fault'.code ∧ fault.cause = fault'.cause

theorem Arises.told {fault : Fault} (h : fault.Arises) : fault.cause.Told := by
  obtain ⟨t, m, hrun, hstop⟩ := h
  obtain ⟨-, rfl, -⟩ | ⟨cause, -, hdecode, rfl, -⟩ | ⟨op, i, cause, -, -, -, hrefusal, rfl, -⟩ :=
    Machine.tick_fault_cases hrun hstop
  · trivial
  · exact Instruction.told_of_decode hdecode
  · exact Machine.told_of_refusal hrefusal

theorem Arises.sameButSteps {fault fault' : Fault} (h : fault.Arises) (h' : fault'.Arises)
    (heq : fault.message = fault'.message) : fault.SameButSteps fault' := by
  simp only [message_eq, String.append_assoc, String.append_right_inj] at heq
  have hdigits (n : Int) : ' ' ∉ (Text.hex 4 n).toList :=
    Text.notMem_hex (by decide) 4 n
  obtain ⟨hoffset, heq⟩ := Text.field_inj (by decide) (hdigits _) (hdigits _) heq
  obtain ⟨hcode, hcause⟩ := Text.field_inj (by decide) (Opcode.notMem_text (.inr rfl) fault.code)
    (Opcode.notMem_text (.inr rfl) fault'.code) heq
  exact ⟨Int64.toInt_inj.mp (Text.hex_injective 4 hoffset), Opcode.text_injective hcode,
    h.told.eq_of_message h'.told hcause⟩

theorem message_ne_empty (fault : Fault) : fault.message ≠ "" := by
  simp [message_eq, String.append_eq_empty_iff]

end Fault

namespace Machine

variable {m : Machine t} {fault : Fault}

theorem tick_arises (h : m.tick.machine.status = .failed fault) :
    m.status = .failed fault ∨ fault.Arises := by
  cases hstatus : m.status with
  | halted =>
    rw [tick_halted hstatus, hstatus] at h
    cases h
  | failed kept =>
    rw [tick_failed hstatus, hstatus] at h
    exact .inl h
  | running =>
    obtain ⟨code, cause, log, hfail⟩ | ⟨op, i, -, -, -, -, htick⟩ := tick_cases hstatus
    · rw [hfail] at h
      obtain rfl := Status.failed.inj h
      exact .inr ⟨t, m, hstatus, by rw [hfail]; rfl⟩
    · rw [htick] at h
      have hkept : (m.effect op i (m.following op)).status = .failed fault := h
      rcases effect_status op i (m.following op) m with hsame | hhalted
      · rw [hsame, hstatus] at hkept
        cases hkept
      · rw [hhalted] at hkept
        cases hkept

theorem after_arises {n : Nat} (h : (m.after n).status = .failed fault) :
    m.status = .failed fault ∨ fault.Arises := by
  induction n generalizing m with
  | zero => exact .inl h
  | succ n ih =>
    rcases ih h with htick | harises
    · exact tick_arises htick
    · exact .inr harises

-- Faults come from ticks: nothing else that can be done to a machine makes it fail.
theorem apply_arises {operation : Operation t} {m' : Machine t}
    (happly : operation.apply m = some m') (h : m'.status = .failed fault) :
    m.status = .failed fault ∨ fault.Arises := by
  cases operation <;> simp only [Operation.apply, Option.some.injEq] at happly
  case load program =>
    subst happly
    cases h
  case tick => exact tick_arises (happly ▸ h)
  case run fuel program =>
    obtain ⟨result, hrun, rfl⟩ := Option.map_eq_some_iff.mp happly
    rw [(run_spec hrun).2.1] at h
    rcases after_arises h with hloaded | harises
    · cases hloaded
    · exact .inr harises
  case execute i next =>
    cases hexecute : Machine.execute i next m with
    | ok _ m'' =>
      simp only [hexecute, Option.some.injEq] at happly
      subst happly
      obtain ⟨op, -, -, rfl⟩ := execute_ok hexecute
      rcases effect_status op i next m with hsame | hhalted
      · exact .inl (hsame ▸ h)
      · rw [hhalted] at h
        cases h
    | error cause m'' =>
      simp only [hexecute, Option.some.injEq] at happly
      rw [← happly, execute_error hexecute] at h
      exact .inl h
  all_goals
    subst happly
    exact .inl h

theorem Reachable.arises {registers stack memory : Int} (h : Reachable registers stack memory m)
    (hstatus : m.status = .failed fault) : fault.Arises := by
  induction h with
  | make hmake =>
    rw [make_eq hmake] at hstatus
    cases hstatus
  | apply operation hm happly ih =>
    rcases apply_arises happly hstatus with hbefore | harises
    · exact ih hbefore
    · exact harises

end Machine

theorem octets_injective : Function.Injective octets := by
  intro text text' h
  apply String.toByteArray_inj.mp
  exact ByteArray.ext (Array.toList_inj.mp h)

namespace Emulator

theorem fault_snapshot_of_failed {e : Emulator t} {fault : Fault}
    (h : e.machine.status = .failed fault) : e.snapshot.fault = octets fault.message := by
  simp only [snapshot, h]

theorem fault_snapshot_eq_nil_iff (e : Emulator t) :
    e.snapshot.fault = [] ↔ e.snapshot.state ≠ 2 := by
  cases hstatus : e.machine.status with
  | running | halted => simp [snapshot, hstatus, Status.code]
  | failed fault =>
    have htext : octets fault.message ≠ octets "" := octets_injective.ne fault.message_ne_empty
    simp only [snapshot, hstatus, Status.code]
    exact ⟨fun h => absurd h htext, fun h => absurd rfl h⟩

end Emulator

-- The text of a fault stands for the fault, but for the number of steps. So does what a snapshot
-- keeps of it, which is empty exactly if the machine has not failed.
theorem fault_text_identifies :
    (∀ fault fault' : Fault, fault.Arises → fault'.Arises → fault.message = fault'.message →
      fault.SameButSteps fault') ∧
    (∀ fault : Fault, fault.message ≠ "") ∧
    (∀ (t t' : WordType) (e : Emulator t) (e' : Emulator t'),
      (∃ registers stack memory, e.machine.Reachable registers stack memory) →
      (∃ registers stack memory, e'.machine.Reachable registers stack memory) →
      e.snapshot.fault = e'.snapshot.fault →
      ∀ fault, e.machine.status = .failed fault →
        ∃ fault', e'.machine.status = .failed fault' ∧ fault.SameButSteps fault') ∧
    ∀ (t : WordType) (e : Emulator t), e.snapshot.fault = [] ↔ e.snapshot.state ≠ 2 := by
  refine ⟨fun _ _ h h' => h.sameButSteps h', Fault.message_ne_empty, ?_,
    fun t e => e.fault_snapshot_eq_nil_iff⟩
  rintro t t' e e' ⟨_, _, _, hreachable⟩ ⟨_, _, _, hreachable'⟩ hsame fault hfailed
  rw [Emulator.fault_snapshot_of_failed hfailed] at hsame
  cases hstatus : e'.machine.status with
  | running | halted =>
    simp only [Emulator.snapshot, hstatus] at hsame
    exact absurd hsame (octets_injective.ne fault.message_ne_empty)
  | failed fault' =>
    rw [Emulator.fault_snapshot_of_failed hstatus] at hsame
    exact ⟨fault', rfl, (hreachable.arises hfailed).sameButSteps (hreachable'.arises hstatus)
      (octets_injective hsame)⟩

-- Has come to a return with nothing to return to.
def stranded (t : WordType) (program : Array UInt8) (steps : UInt64) : Emulator t where
  machine :=
    { registers := ⟨#[0]⟩
      flags := .clear
      stack := ⟨#[], 0⟩
      memory := ⟨#[]⟩
      program := program
      pc := 5
      steps := steps
      status := .failed ⟨5, 0x17, steps, .stackUnderflow⟩
      maxSteps := 0
      verbose := false }
  config := Emulator.small
  name := octets "a"
  image := #[]
  verbose := false

-- Past five instructions that do nothing, and by a jump.
def strolled : Emulator ⟨.one, true⟩ := stranded _ #[0, 0, 0, 0, 0, 0x17] 5

def leapt : Emulator ⟨.eight, false⟩ := stranded _ #[0x12, 5, 0, 0, 0, 0x17] 1

theorem fault_text_identifies_stranded :
    strolled.snapshot.fault = octets "pc 0x0005 RET: stack underflow" ∧
      strolled.snapshot.fault = leapt.snapshot.fault ∧ strolled.snapshot.fault ≠ [] ∧
      (∃ fault', leapt.machine.status = .failed fault' ∧
        Fault.SameButSteps ⟨5, 0x17, 5, .stackUnderflow⟩ fault') ∧
      Fault.SameButSteps ⟨5, 0x17, 5, .stackUnderflow⟩ ⟨5, 0x17, 1, .stackUnderflow⟩ := by
  obtain ⟨hfaults, -, hsnapshots, hempty⟩ := fault_text_identifies
  have hmake : Machine.make ⟨.one, true⟩ 1 0 0 0 false = .ok _ := rfl
  have hmake' : Machine.make ⟨.eight, false⟩ 1 0 0 0 false = .ok _ := rfl
  have hstrolled : strolled.machine.Reachable 1 0 0 :=
    .apply (.run 9 #[0, 0, 0, 0, 0, 0x17]) (.make hmake) (by decide +kernel)
  have hleapt : leapt.machine.Reachable 1 0 0 :=
    .apply (.run 9 #[0x12, 5, 0, 0, 0, 0x17]) (.make hmake') (by decide +kernel)
  have htext : strolled.snapshot.fault = leapt.snapshot.fault := rfl
  refine ⟨by decide +kernel, htext, fun h => (hempty _ strolled).mp h (by decide +kernel), ?_, ?_⟩
  · exact hsnapshots _ _ strolled leapt ⟨1, 0, 0, hstrolled⟩ ⟨1, 0, 0, hleapt⟩ htext _ rfl
  · exact hfaults _ _ (hstrolled.arises rfl) (hleapt.arises rfl) rfl

end RegisterMachine
