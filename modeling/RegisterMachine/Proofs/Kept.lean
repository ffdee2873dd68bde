import RegisterMachine.Machine.Kept
import RegisterMachine.Proofs.CallReturn
import RegisterMachine.Proofs.History

namespace RegisterMachine

variable {t : WordType} {α β : Type}

def Stop.reason : Stop → Reason
  | .halted => .halted
  | .fault f => .fault f.offset f.code f.steps (.cause f.cause)

-- The two fields that stand for a status.
def Status.kept : Status → Kept
  | .running => ⟨.running, none⟩
  | .halted => ⟨.halted, some .halted⟩
  | .failed f => ⟨.failed, some (Stop.fault f).reason⟩

theorem Status.phase_kept_eq_running_iff {status : Status} :
    status.kept.phase = .running ↔ status = .running := by
  cases status <;> simp [kept]

namespace Machine

def kept (m : Machine t) : Machine t Kept := { m with status := m.status.kept }

-- An action does the same to a machine with the two fields, and leaves it with the fields that
-- stand for the status that it leaves in the other.
def Carries (x : Action t α) (y : ActionOn t Kept α) : Prop :=
  ∀ m, y m.kept =
    match x m with
    | .ok a m' => .ok a m'.kept
    | .error cause m' => .error cause m'.kept

theorem Carries.bind {x : Action t α} {y : ActionOn t Kept α} {f : α → Action t β}
    {g : α → ActionOn t Kept β} (h : Carries x y) (hnext : ∀ a, Carries (f a) (g a)) :
    Carries (x >>= f) (y >>= g) := by
  intro m
  have hfirst := h m
  show EStateM.bind y g m.kept = _
  rw [bind_apply, EStateM.bind, hfirst]
  cases x m with
  | ok a m' => exact hnext a m'
  | error cause m' => rfl

-- What an action sees of the machine is the same in both.
theorem Carries.get {f : Machine t → Action t α} {g : Machine t Kept → ActionOn t Kept α}
    (h : ∀ m, Carries (f m) (g m.kept)) : Carries (get >>= f) (get >>= g) :=
  fun m => h m m

theorem carries_attempt (answer : Except Cause α) :
    Carries (t := t) (attempt answer) (attempt answer) := by
  intro m
  cases answer <;> rfl

theorem carries_checkRegister (id : UInt8) :
    Carries (t := t) (checkRegister id) (checkRegister id) :=
  .get fun m => carries_attempt (m.registers.check id)

theorem carries_readRegister (id : UInt8) :
    Carries (t := t) (readRegister id) (readRegister id) :=
  .get fun m => carries_attempt (m.registers.read id)

theorem carries_writeRegister (id : UInt8) (value : Word t) :
    Carries (writeRegister id value) (writeRegister id value) :=
  (carries_checkRegister id).bind fun _ _ => rfl

theorem carries_pushWord (value : Word t) : Carries (pushWord value) (pushWord value) :=
  .get fun m => (carries_attempt m.stack.checkRoom).bind fun _ _ => rfl

theorem carries_popWord : Carries (t := t) popWord popWord :=
  .get fun m => (carries_attempt m.stack.peek).bind fun _ _ => rfl

theorem carries_loadWord (address : UInt32) :
    Carries (t := t) (loadWord address) (loadWord address) :=
  .get fun m => carries_attempt (m.memory.loadWord t address)

theorem carries_storeWord (address : UInt32) (value : Word t) :
    Carries (storeWord address value) (storeWord address value) :=
  .get fun m => (carries_attempt (m.memory.check address.toUInt64 t.bytes)).bind fun _ _ => rfl

theorem carries_setResult (dest : UInt8) (value : Word t) :
    Carries (setResult dest value) (setResult dest value) :=
  fun m => carries_writeRegister dest value { m with flags := .ofInt value.value }

theorem carries_jump (pc : Int64) : Carries (t := t) (jump pc) (jump pc) := fun _ => rfl

theorem carries_arithmetic (op : Opcode) (i : Instruction t) :
    Carries (arithmetic op i) (arithmetic op i) :=
  (carries_checkRegister i.first).bind fun _ =>
    (carries_readRegister i.second).bind fun a =>
      (carries_readRegister i.third).bind fun b =>
        (carries_attempt (compute op a b)).bind fun value => carries_setResult i.first value

-- No instruction but a halt touches the run state, and a halt sets both fields.
theorem carries_execute (i : Instruction t) (next : Int64) :
    Carries (execute i next) (execute i next) := by
  unfold execute
  cases Opcode.ofByte? i.code with
  | none => exact fun _ => rfl
  | some op =>
    have hthen {x : Action t Unit} {y : ActionOn t Kept Unit} (h : Carries x y) :
        Carries (do x; jump next) (do y; jump next) := h.bind fun _ => carries_jump next
    cases op with
    | nop => exact carries_jump next
    | jmp => exact carries_jump (target i)
    | jmpz | jmpn | jmpp | hlt => exact fun _ => rfl
    | mov => exact hthen (carries_writeRegister i.first i.value)
    | ld =>
      exact (carries_checkRegister i.first).bind fun _ =>
        (carries_loadWord i.address).bind fun value => hthen (carries_writeRegister i.first value)
    | st =>
      exact (carries_readRegister i.first).bind fun value =>
        hthen (carries_storeWord i.address value)
    | and | or | xor | add | sub | mult | div | mod => exact hthen (carries_arithmetic _ i)
    | not =>
      exact (carries_checkRegister i.first).bind fun _ =>
        (carries_readRegister i.second).bind fun value =>
          hthen (carries_setResult i.first (~~~value))
    | cmp =>
      exact (carries_readRegister i.first).bind fun _ =>
        (carries_readRegister i.second).bind fun _ => hthen fun _ => rfl
    | inc | dec =>
      exact (carries_readRegister i.first).bind fun value => hthen (carries_setResult i.first _)
    | pushreg =>
      exact (carries_readRegister i.first).bind fun value => hthen (carries_pushWord value)
    | popreg =>
      exact (carries_checkRegister i.first).bind fun _ =>
        carries_popWord.bind fun value => hthen (carries_writeRegister i.first value)
    | call =>
      cases Word.ofAddress? t next.toUInt64 with
      | none => exact fun _ => rfl
      | some address => exact (carries_pushWord address).bind fun _ => carries_jump (target i)
    | ret => exact carries_popWord.bind fun value => carries_jump value.toAddress.toInt64
    | clf => exact hthen fun _ => rfl

theorem make_kept (t : WordType) (registers stack memory : Int) (maxSteps : UInt64)
    (verbose : Bool) :
    make t registers stack memory maxSteps verbose Kept =
      (make t registers stack memory maxSteps verbose).map kept := by
  unfold make
  split_ifs with hcount
  · rfl
  · cases Registers.make t registers <;> cases Stack.make t stack <;>
      cases Memory.make memory <;> rfl

theorem load_kept (m : Machine t) (program : Array UInt8) :
    m.kept.load program = (m.load program).kept := rfl

-- What goes wrong is always one of the causes, so that this is what a fault wraps.
theorem tick_kept (m : Machine t) :
    Kept.tick m.kept = (m.tick.machine.kept, m.tick.stop.map Stop.reason) := by
  cases hstatus : m.status with
  | halted =>
    have hphase : m.kept.status = ⟨.halted, some .halted⟩ := congrArg Status.kept hstatus
    rw [tick_halted hstatus, Kept.tick, hphase]
    rfl
  | failed fault =>
    have hphase : m.kept.status = ⟨.failed, some (Stop.fault fault).reason⟩ :=
      congrArg Status.kept hstatus
    rw [tick_failed hstatus, Kept.tick, hphase]
    rfl
  | running =>
    have hphase : m.kept.status = ⟨.running, none⟩ := congrArg Status.kept hstatus
    have hlimit : m.kept.limitReached = m.limitReached := rfl
    have hcode : m.kept.nextCode = m.nextCode := rfl
    rw [Kept.tick, hphase, Machine.tick, hstatus]
    simp only [Kept.step, hlimit, hcode]
    split_ifs
    · rfl
    · have hprogram : Instruction.decode t m.kept.program m.kept.pc.toInt =
          Instruction.decode t m.program m.pc.toInt := rfl
      rw [hprogram]
      cases hdecode : Instruction.decode t m.program m.pc.toInt with
      | error cause => rfl
      | ok read =>
        obtain ⟨i, size⟩ := read
        have hexecute := carries_execute i (m.pc + Int64.ofNat size) m
        have hpc : m.kept.pc = m.pc := rfl
        simp only [hpc, hexecute, nextCode_of_decode hdecode]
        cases execute i (m.pc + Int64.ofNat size) m <;> rfl

theorem runOn_kept (fuel : Nat) (m : Machine t) (log : Array (Event t)) :
    Kept.runOn fuel m.kept =
      (m.runOn fuel log).map fun result => (result.machine.kept, result.stop.map Stop.reason) := by
  have hphase : m.kept.status = m.status.kept := rfl
  induction fuel generalizing m log with
  | zero =>
    cases hstatus : m.status with
    | running | halted | failed fault => simp [Kept.runOn, runOn, hphase, hstatus, Status.kept]
  | succ fuel ih =>
    cases hstatus : m.status with
    | halted | failed fault => simp [Kept.runOn, runOn, hphase, hstatus, Status.kept]
    | running =>
      rw [Kept.runOn, runOn, hphase, hstatus]
      simp only [Status.kept, tick_kept]
      cases m.tick.stop with
      | none => exact ih m.tick.machine (log ++ m.tick.log) rfl
      | some stop => rfl

theorem run_kept (fuel : Nat) (m : Machine t) (program : Array UInt8) :
    Kept.run fuel m.kept program =
      (m.run fuel program).map fun result =>
        (result.machine.kept, result.stop.map Stop.reason) := by
  rw [Kept.run, load_kept, runOn_kept fuel _ (m.say (.loaded program.size)).toArray, run]
  cases runOn fuel (m.load program) (m.say (.loaded program.size)).toArray <;> rfl

end Machine

namespace Kept

open Machine (Operation)

-- The operations on a machine with the two fields.
def apply (m : Machine t Kept) : Operation t → Option (Machine t Kept)
  | .load program => some (m.load program)
  | .tick => some (tick m).1
  | .run fuel program => (run fuel m program).map (·.1)
  | .execute i next =>
    match Machine.execute i next m with
    | .ok () m' => some m'
    | .error _ m' => some m'
  | .writeRegister id value =>
    some { m with registers := (m.registers.write id value).toOption.getD m.registers }
  | .resetRegisters => some { m with registers := m.registers.reset }
  | .push value => some { m with stack := (m.stack.push value).toOption.getD m.stack }
  | .pop => some { m with stack := (m.stack.pop.map Prod.snd).toOption.getD m.stack }
  | .resetStack => some { m with stack := m.stack.reset }
  | .storeWord address value =>
    some { m with memory := (m.memory.storeWord address value).toOption.getD m.memory }
  | .writeAt offset bytes =>
    some { m with memory := (m.memory.writeAt offset bytes).toOption.getD m.memory }
  | .resetMemory => some { m with memory := m.memory.reset }
  | .setMaxSteps maxSteps => some { m with maxSteps }
  | .setVerbose verbose => some { m with verbose }

-- One step of a history: every operation leaves fields that stand for the status it leaves in the
-- other machine.
theorem apply_kept (m : Machine t) (operation : Operation t) :
    apply m.kept operation = (operation.apply m).map Machine.kept := by
  cases operation with
  | tick =>
    rw [apply, Machine.tick_kept]
    rfl
  | run fuel program =>
    rw [apply, Machine.run_kept, Operation.apply]
    cases m.run fuel program <;> rfl
  | execute i next =>
    rw [apply, Operation.apply, Machine.carries_execute i next m]
    cases Machine.execute i next m <;> rfl
  | _ => rfl

inductive Reachable (registers stack memory : Int) : Machine t Kept → Prop where
  | make {maxSteps : UInt64} {verbose : Bool} {m : Machine t Kept}
      (h : Machine.make t registers stack memory maxSteps verbose Kept = .ok m) :
      Reachable registers stack memory m
  | apply {m m' : Machine t Kept} (operation : Operation t)
      (hm : Reachable registers stack memory m) (h : apply m operation = some m') :
      Reachable registers stack memory m'

variable {registers stack memory : Int} {m : Machine t Kept}

theorem Reachable.exists_status (h : Reachable registers stack memory m) :
    ∃ plain : Machine t, plain.Reachable registers stack memory ∧ m = plain.kept := by
  induction h with
  | @make maxSteps verbose m h =>
    rw [Machine.make_kept] at h
    cases hplain : Machine.make t registers stack memory maxSteps verbose with
    | error reason =>
      rw [hplain] at h
      cases h
    | ok plain =>
      rw [hplain] at h
      cases h
      exact ⟨plain, .make hplain, rfl⟩
  | apply operation hm h ih =>
    obtain ⟨plain, hreachable, rfl⟩ := ih
    rw [apply_kept] at h
    obtain ⟨next, hnext, rfl⟩ := Option.map_eq_some_iff.mp h
    exact ⟨next, .apply operation hreachable hnext, rfl⟩

-- The fields are as they stand for a status, and a fault has a cause that a machine of these sizes
-- can fail for.
theorem fields_of_status {plain : Machine t} {sizes : Sizes} (h : plain.Invariant sizes) :
    (plain.kept.status.phase = .running ∧ plain.kept.status.reason = none) ∨
      (plain.kept.status.phase = .halted ∧ plain.kept.status.reason = some .halted) ∨
      (plain.kept.status.phase = .failed ∧ ∃ offset code steps cause,
        plain.kept.status.reason = some (.fault offset code steps (.cause cause)) ∧
          cause.Possible t plain.kept.sizes) := by
  have hkept : plain.kept.status = plain.status.kept := rfl
  have hsizes : plain.kept.sizes = sizes := h.sizes_eq
  rw [hkept, hsizes]
  cases hstatus : plain.status with
  | running => exact .inl ⟨rfl, rfl⟩
  | halted => exact .inr (.inl ⟨rfl, rfl⟩)
  | failed fault =>
    exact .inr (.inr ⟨rfl, fault.offset, fault.code, fault.steps, fault.cause, rfl,
      h.fault fault hstatus⟩)

-- Only a halted machine answers a reason that is, or wraps, that it was halted.
theorem isHalted_of_tick {plain : Machine t} {reason : Reason}
    (h : (tick plain.kept).2 = some reason) :
    reason.isHalted = true ↔ plain.kept.status.phase = .halted := by
  have hkept : plain.kept.status = plain.status.kept := rfl
  rw [Machine.tick_kept] at h
  obtain ⟨stop, hstop, rfl⟩ := Option.map_eq_some_iff.mp h
  rw [hkept]
  cases hstatus : plain.status with
  | running =>
    have hfailure := Machine.tick_stop_of_running hstatus
    rw [hstop] at hfailure
    cases hend : plain.tick.machine.status with
    | running | halted =>
      rw [hend] at hfailure
      cases hfailure
    | failed fault =>
      rw [hend] at hfailure
      cases hfailure
      simp [Stop.reason, Reason.isHalted, Status.kept]
  | halted =>
    rw [Machine.tick_halted hstatus] at hstop
    cases hstop
    simp [Stop.reason, Reason.isHalted, Status.kept]
  | failed fault =>
    rw [Machine.tick_failed hstatus] at hstop
    cases hstop
    simp [Stop.reason, Reason.isHalted, Status.kept]

-- However a machine has been used since it was made, its sizes are the ones asked for, its stack
-- fits, its flags show at most one sign, and the run state and the stored reason go together, as in
-- a machine whose status is one field. No fault wraps that the machine was halted. Once stopped it
-- goes on only from the start of a program.
theorem history_invariant (m : Machine t Kept) (h : Reachable registers stack memory m) :
    ((m.registers.values.size : Int) = registers ∧ (m.stack.capacity : Int) = stack ∧
      (m.memory.size : Int) = memory) ∧
    m.stack.words.size ≤ m.stack.capacity ∧
    [m.flags.zero, m.flags.negative, m.flags.positive].count true ≤ 1 ∧
    (t.signed = false → m.flags.negative = false) ∧
    ((m.status.phase = .running ∧ m.status.reason = none) ∨
      (m.status.phase = .halted ∧ m.status.reason = some .halted) ∨
      (m.status.phase = .failed ∧ ∃ offset code steps cause,
        m.status.reason = some (.fault offset code steps (.cause cause)) ∧
          cause.Possible t m.sizes)) ∧
    (∃ plain : Machine t, plain.Reachable registers stack memory ∧ m = plain.kept) ∧
    (∀ reason, (tick m).2 = some reason →
      (reason.isHalted = true ↔ m.status.phase = .halted)) ∧
    ∀ (operation : Operation t) (m' : Machine t Kept), apply m operation = some m' →
      m.status.phase ≠ .running → m'.status.phase = .running → operation.isStart = true := by
  obtain ⟨plain, hplain, rfl⟩ := h.exists_status
  have hinvariant := hplain.invariant
  obtain ⟨hregisters, hstack, hmemory⟩ := hplain.bounds
  obtain ⟨hcapacity, hroom⟩ := hinvariant.stack
  refine ⟨⟨?_, ?_, ?_⟩, hroom.trans_eq hcapacity.symm, hinvariant.flags.count_le_one,
    hinvariant.flags.negative_eq_false, fields_of_status hinvariant, ⟨plain, hplain, rfl⟩,
    fun _ => isHalted_of_tick, ?_⟩
  · exact (congrArg Nat.cast hinvariant.registers).trans (Int.toNat_of_nonneg (by omega))
  · exact (congrArg Nat.cast hcapacity).trans (Int.toNat_of_nonneg hstack.1)
  · exact (congrArg Nat.cast hinvariant.memory).trans (Int.toNat_of_nonneg hmemory.1)
  · intro operation m' happly hstopped hrunning
    rw [apply_kept] at happly
    obtain ⟨next, hnext, rfl⟩ := Option.map_eq_some_iff.mp happly
    exact Machine.isStart_of_running hnext (mt Status.phase_kept_eq_running_iff.mpr hstopped)
      (Status.phase_kept_eq_running_iff.mp hrunning)

-- Counts an unsigned byte down from zero, fails at a return and is then given a word to return to.
theorem history_invariant_counting_down :
    ∃ m : Machine ⟨.one, false⟩ Kept, Reachable 2 1 0 m ∧
      m.status = ⟨.failed, some (.fault 2 0x17 1 (.cause .stackUnderflow))⟩ ∧
      m.stack.words = #[9] ∧ m.stack.words.size ≤ m.stack.capacity ∧
      (m.stack.capacity : Int) = 1 ∧ m.flags.negative = false ∧
      (Reason.fault 2 0x17 1 (.cause .stackUnderflow)).isHalted = false ∧
      (Operation.load (t := ⟨.one, false⟩) #[]).isStart = true := by
  have hmake : Machine.make ⟨.one, false⟩ 2 1 0 0 false Kept = .ok _ := rfl
  have hran := Reachable.apply (.run 5 #[0x0f, 0, 0x17]) (.make hmake) rfl
  have hreachable := Reachable.apply (.push 9) hran rfl
  obtain ⟨⟨-, hcapacity, -⟩, hroom, -, hnegative, -, -, hhalted, hstart⟩ :=
    history_invariant _ hreachable
  refine ⟨_, hreachable, rfl, rfl, hroom, hcapacity, hnegative rfl, ?_,
    hstart (.load #[]) _ rfl (by decide) rfl⟩
  exact Bool.eq_false_iff.mpr fun hreason => nomatch (hhalted _ rfl).mp hreason

end Kept

end RegisterMachine
