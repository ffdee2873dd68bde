import RegisterMachine.Proofs.CallReturn
import RegisterMachine.Proofs.Careful
import RegisterMachine.Proofs.FreshStart

namespace RegisterMachine

variable {t : WordType} {α β : Type}

-- Something a machine does that may come to a hazard besides failing.
def Careful (t : WordType) (α : Type) : Type :=
  Machine t → Except Hazard (EStateM.Result Cause (Machine t) α)

namespace Careful

instance : Monad (Careful t) where
  pure a := fun m => .ok (.ok a m)
  bind x f := fun m => do
    match ← x m with
    | .ok a m => f a m
    | .error cause m => return .error cause m

-- An action that looks up nothing that could be missing.
def plain (action : Action t α) : Careful t α := fun m => .ok (action m)

-- What an operation on one of the machine's parts comes to: its answer is kept, or its failure.
def answered (m : Machine t) (keep : β → α × Machine t) :
    Except Cause β → EStateM.Result Cause (Machine t) α
  | .ok b => .ok (keep b).1 (keep b).2
  | .error cause => .error cause m

def onPart (operation : Machine t → Except Hazard (Except Cause β))
    (keep : Machine t → β → α × Machine t) : Careful t α :=
  fun m => return answered m (keep m) (← operation m)

def readRegister (id : UInt8) : Careful t (Word t) :=
  onPart (·.registers.carefulRead id) fun m value => (value, m)

def writeRegister (id : UInt8) (value : Word t) : Careful t Unit :=
  onPart (·.registers.carefulWrite id value) fun m registers => ((), { m with registers })

def popWord : Careful t (Word t) :=
  onPart (·.stack.carefulPop) fun m top => (top.1, { m with stack := top.2 })

def loadWord (start : UInt32) : Careful t (Word t) :=
  onPart (·.memory.carefulLoadWord t start) fun m value => (value, m)

def storeWord (start : UInt32) (value : Word t) : Careful t Unit :=
  onPart (·.memory.carefulStoreWord start value) fun m memory => ((), { m with memory })

-- A computed value goes into its register without a check at this place.
def setResult (dest : UInt8) (value : Word t) : Careful t Unit := fun m => do
  let values ← assign m.registers.values dest.toNat value
  return .ok () { m with flags := .ofInt value.value, registers := ⟨values⟩ }

def compute (op : Opcode) (a b : Word t) : Except Hazard (Except Cause (Word t)) :=
  match op with
  | .div => if b = 0 then .ok (.error .divisionByZero) else return .ok (← divide Word.quotient a b)
  | .mod => if b = 0 then .ok (.error .divisionByZero) else return .ok (← divide Word.remainder a b)
  | op => .ok (Machine.compute op a b)

def arithmetic (op : Opcode) (i : Instruction t) : Careful t Unit := do
  plain (Machine.checkRegister i.first)
  let a ← readRegister i.second
  let b ← readRegister i.third
  setResult i.first (← onPart (fun _ => compute op a b) fun m value => (value, m))

def execute (i : Instruction t) (next : Int64) : Careful t Unit :=
  match Opcode.ofByte? i.code with
  | none => plain (throw (.invalidOpcode i.code))
  | some op =>
    match op with
    | .mov => do
      writeRegister i.first i.value
      plain (Machine.jump next)
    | .ld => do
      plain (Machine.checkRegister i.first)
      writeRegister i.first (← loadWord i.address)
      plain (Machine.jump next)
    | .st => do
      storeWord i.address (← readRegister i.first)
      plain (Machine.jump next)
    | .and | .or | .xor | .add | .sub | .mult | .div | .mod => do
      arithmetic op i
      plain (Machine.jump next)
    | .not => do
      plain (Machine.checkRegister i.first)
      setResult i.first (~~~ (← readRegister i.second))
      plain (Machine.jump next)
    | .cmp => do
      let a ← readRegister i.first
      let b ← readRegister i.second
      plain (Machine.setFlags (.ofInt (a - b : Word t).value))
      plain (Machine.jump next)
    | .inc => do
      setResult i.first ((← readRegister i.first) + 1)
      plain (Machine.jump next)
    | .dec => do
      setResult i.first ((← readRegister i.first) - 1)
      plain (Machine.jump next)
    | .pushreg => do
      plain (Machine.pushWord (← readRegister i.first))
      plain (Machine.jump next)
    | .popreg => do
      plain (Machine.checkRegister i.first)
      writeRegister i.first (← popWord)
      plain (Machine.jump next)
    | .ret => do plain (Machine.jump (← popWord).toAddress.toInt64)
    -- Jumps, calls, flags and halting look at no array.
    | .nop | .jmp | .jmpz | .jmpn | .jmpp | .call | .clf | .hlt => plain (Machine.execute i next)

-- Being careful finds no hazard and changes nothing.
def Agrees (x : Careful t α) (y : Action t α) (m : Machine t) : Prop := x m = .ok (y m)

variable {m : Machine t}

theorem agrees_plain (action : Action t α) (m : Machine t) : Agrees (plain action) action m := rfl

-- What comes second may rely on what the first one found in order.
theorem Agrees.bind {x : Careful t α} {y : Action t α} {f : α → Careful t β} {g : α → Action t β}
    (h : Agrees x y m) (hnext : ∀ a m', y m = .ok a m' → Agrees (f a) (g a) m') :
    Agrees (x >>= f) (y >>= g) m := by
  have hbind : (x >>= f) m = (x m >>= fun result =>
      match result with
      | .ok a m' => f a m'
      | .error cause m' => pure (.error cause m')) := rfl
  rw [Agrees, hbind, h, Machine.bind_apply]
  cases hy : y m with
  | ok a m' => exact hnext a m' hy
  | error cause m' => rfl

-- The end of almost every instruction.
theorem Agrees.jump {x : Careful t Unit} {y : Action t Unit} (h : Agrees x y m) (next : Int64) :
    Agrees (x >>= fun _ => plain (Machine.jump next)) (y >>= fun _ => Machine.jump next) m :=
  h.bind fun _ _ _ => agrees_plain _ _

theorem agrees_onPart {operation : Machine t → Except Hazard (Except Cause β)}
    {keep : Machine t → β → α × Machine t} {answer : Except Cause β} {y : Action t α}
    (hanswer : operation m = .ok answer) (hy : y m = answered m (keep m) answer) :
    Agrees (onPart operation keep) y m := by
  rw [Agrees, onPart, hanswer, hy]
  rfl

theorem readRegister_agrees (id : UInt8) (m : Machine t) :
    Agrees (readRegister id) (Machine.readRegister id) m := by
  apply agrees_onPart (m.registers.carefulRead_eq id)
  change (Machine.attempt (m.registers.read id) : Action t (Word t)) m = _
  cases m.registers.read id <;> rfl

theorem writeRegister_agrees (id : UInt8) (value : Word t) (m : Machine t) :
    Agrees (writeRegister id value) (Machine.writeRegister id value) m := by
  apply agrees_onPart (m.registers.carefulWrite_eq id value)
  rw [Machine.writeRegister_apply, Registers.write, Registers.check]
  split_ifs <;> rfl

theorem popWord_agrees (m : Machine t) : Agrees popWord Machine.popWord m := by
  apply agrees_onPart m.stack.carefulPop_eq
  change (Machine.attempt m.stack.peek >>= fun value => _ : Action t (Word t)) m = _
  rw [Machine.bind_apply, Stack.pop]
  cases m.stack.peek <;> rfl

theorem loadWord_agrees (start : UInt32) (m : Machine t) :
    Agrees (loadWord start) (Machine.loadWord start) m := by
  apply agrees_onPart (m.memory.carefulLoadWord_eq start)
  change (Machine.attempt (m.memory.loadWord t start) : Action t (Word t)) m = _
  cases m.memory.loadWord t start <;> rfl

theorem storeWord_agrees (start : UInt32) (value : Word t) (m : Machine t) :
    Agrees (storeWord start value) (Machine.storeWord start value) m := by
  apply agrees_onPart (m.memory.carefulStoreWord_eq start value)
  change (Machine.attempt (m.memory.check start.toUInt64 t.bytes) >>= fun _ => _ :
    Action t Unit) m = _
  rw [Machine.bind_apply, Memory.storeWord, Memory.write, Word.length_toOctets]
  cases m.memory.check start.toUInt64 t.bytes <;> rfl

theorem compute_eq (op : Opcode) (a b : Word t) :
    compute op a b = .ok (Machine.compute op a b) := by
  cases op
  case div | mod =>
    simp only [compute, Machine.compute, divide]
    split_ifs <;> rfl
  all_goals rfl

-- The register must have been checked before.
theorem setResult_agrees {dest : UInt8} (value : Word t)
    (h : dest.toNat < m.registers.values.size) :
    Agrees (setResult dest value) (Machine.setResult dest value) m := by
  rw [Agrees, setResult, Machine.setResult_apply value h, assign_natCast value h]
  rfl

theorem checkRegister_ok {id : UInt8} {m' : Machine t}
    (h : Machine.checkRegister id m = .ok () m') :
    m' = m ∧ id.toNat < m.registers.values.size := by
  rw [Machine.checkRegister_apply] at h
  split_ifs at h with hlt
  cases h
  exact ⟨rfl, hlt⟩

theorem readRegister_ok {id : UInt8} {value : Word t} {m' : Machine t}
    (h : Machine.readRegister id m = .ok value m') :
    m' = m ∧ id.toNat < m.registers.values.size := by
  rw [Machine.readRegister_apply] at h
  split_ifs at h with hlt
  cases h
  exact ⟨rfl, hlt⟩

theorem attempt_ok {answer : Except Cause α} {a : α} {m' : Machine t}
    (h : Machine.attempt answer m = .ok a m') : m' = m := by
  cases answer <;> cases h
  rfl

theorem arithmetic_agrees (op : Opcode) (i : Instruction t) (m : Machine t) :
    Agrees (arithmetic op i) (Machine.arithmetic op i) m := by
  refine (agrees_plain _ m).bind fun _ m₁ hcheck => ?_
  obtain ⟨rfl, hdest⟩ := checkRegister_ok hcheck
  refine (readRegister_agrees _ m₁).bind fun a m₂ ha => ?_
  obtain ⟨rfl, -⟩ := readRegister_ok ha
  refine (readRegister_agrees _ m₂).bind fun b m₃ hb => ?_
  obtain ⟨rfl, -⟩ := readRegister_ok hb
  have hcompute : Agrees (onPart (fun _ => compute op a b) fun m value => (value, m))
      (Machine.attempt (Machine.compute op a b)) m₃ := by
    apply agrees_onPart (compute_eq op a b)
    cases Machine.compute op a b <;> rfl
  refine hcompute.bind fun value m₄ hvalue => ?_
  obtain rfl := attempt_ok hvalue
  exact setResult_agrees value hdest

-- Every access of an instruction is covered by a check on the way to it.
theorem execute_agrees (i : Instruction t) (next : Int64) (m : Machine t) :
    Agrees (execute i next) (Machine.execute i next) m := by
  cases hop : Opcode.ofByte? i.code with
  | none =>
    simp only [execute, Machine.execute, hop]
    exact agrees_plain _ m
  | some op =>
    cases op <;> simp only [execute, Machine.execute, hop]
    case nop | jmp | jmpz | jmpn | jmpp | call | clf | hlt => exact agrees_plain _ m
    case mov => exact (writeRegister_agrees i.first i.value m).jump next
    case ld =>
      refine (agrees_plain _ m).bind fun _ m₁ _ => ?_
      refine (loadWord_agrees i.address m₁).bind fun value m₂ _ => ?_
      exact (writeRegister_agrees i.first value m₂).jump next
    case st =>
      refine (readRegister_agrees i.first m).bind fun value m₁ _ => ?_
      exact (storeWord_agrees i.address value m₁).jump next
    case and | or | xor | add | sub | mult | div | mod =>
      exact (arithmetic_agrees _ i m).jump next
    case not =>
      refine (agrees_plain _ m).bind fun _ m₁ hcheck => ?_
      obtain ⟨rfl, hdest⟩ := checkRegister_ok hcheck
      refine (readRegister_agrees i.second m₁).bind fun value m₂ hvalue => ?_
      obtain ⟨rfl, -⟩ := readRegister_ok hvalue
      exact (setResult_agrees _ hdest).jump next
    case cmp =>
      refine (readRegister_agrees i.first m).bind fun a m₁ _ => ?_
      refine (readRegister_agrees i.second m₁).bind fun b m₂ _ => ?_
      exact (agrees_plain _ m₂).jump next
    case inc | dec =>
      refine (readRegister_agrees i.first m).bind fun value m₁ hvalue => ?_
      obtain ⟨rfl, hdest⟩ := readRegister_ok hvalue
      exact (setResult_agrees _ hdest).jump next
    case pushreg =>
      refine (readRegister_agrees i.first m).bind fun value m₁ _ => ?_
      exact (agrees_plain _ m₁).jump next
    case popreg =>
      refine (agrees_plain _ m).bind fun _ m₁ _ => ?_
      refine (popWord_agrees m₁).bind fun value m₂ _ => ?_
      exact (writeRegister_agrees i.first value m₂).jump next
    case ret => exact (popWord_agrees m).bind fun _ m₁ _ => agrees_plain _ m₁

end Careful

namespace Machine

-- The opcode byte about to be fetched, looked up only where there is one.
def carefulNextCode (m : Machine t) : Except Hazard UInt8 :=
  if 0 ≤ m.pc.toInt ∧ m.pc.toInt < m.program.size then Careful.item m.program m.pc.toInt else .ok 0

def carefulTick (m : Machine t) : Except Hazard (Outcome t) :=
  match m.status with
  | .halted => .ok ⟨m, some .halted, []⟩
  | .failed fault => .ok ⟨m, some (.fault fault), []⟩
  | .running =>
    if m.limitReached then .ok (m.fail m.pc 0 .stepLimit [])
    else do
      let code ← m.carefulNextCode
      match ← Instruction.carefulDecode t m.program m.pc.toInt with
      | .error cause => return m.fail m.pc code cause []
      | .ok (i, size) =>
        let next ← Careful.offset (m.pc.toInt + size)
        let log := m.say (.fetched m.pc i)
        match ← Careful.execute i next m with
        | .error cause m' => return m'.fail m.pc code cause log
        | .ok () m' => return ⟨{ m' with steps := m'.steps + 1 }, none, log⟩

-- The machine at the end of a run, which takes at most `fuel` ticks.
def carefulRunOn (fuel : Nat) (m : Machine t) : Except Hazard (Option (Machine t)) :=
  match m.status with
  | .running =>
    match fuel with
    | 0 => .ok none
    | fuel + 1 => do
      let result ← m.carefulTick
      match result.stop with
      | none => carefulRunOn fuel result.machine
      | some _ => return some result.machine
  | _ => .ok (some m)

namespace Operation

def carefulApply (m : Machine t) : Operation t → Except Hazard (Option (Machine t))
  | .tick => return some (← m.carefulTick).machine
  | .run fuel program => (m.load program).carefulRunOn fuel
  | .execute i next => do
    match ← Careful.execute i next m with
    | .ok () m' => return some m'
    | .error _ m' => return some m'
  | .writeRegister id value =>
    return some { m with
      registers := (← m.registers.carefulWrite id value).toOption.getD m.registers }
  | .pop =>
    return some { m with
      stack := ((← m.stack.carefulPop).map Prod.snd).toOption.getD m.stack }
  | .storeWord address value =>
    return some { m with
      memory := (← m.memory.carefulStoreWord address value).toOption.getD m.memory }
  | .writeAt offset bytes =>
    return some { m with memory := (← m.memory.carefulWriteAt offset bytes).toOption.getD m.memory }
  -- The others make new parts or put something behind what is there.
  | operation => .ok (operation.apply m)

-- No program and no buffer is longer than a host can count.
def isCountable : Operation t → Bool
  | .load program | .run _ program => program.size < 2 ^ 63
  | .writeAt _ bytes => bytes.length < 2 ^ 63
  | _ => true

end Operation

def carefulDrive (m : Machine t) : List (Operation t) → Except Hazard (Option (Machine t))
  | [] => .ok (some m)
  | operation :: rest => do
    match ← operation.carefulApply m with
    | none => return none
    | some m' => m'.carefulDrive rest

variable {m m' : Machine t}

theorem carefulNextCode_eq (m : Machine t) : m.carefulNextCode = .ok m.nextCode := by
  unfold carefulNextCode nextCode
  by_cases hneg : m.pc.toInt < 0
  · rw [if_neg (by omega), if_pos (Int64.lt_iff_toInt_lt.mpr hneg)]
  · rw [if_neg (mt Int64.lt_iff_toInt_lt.mp hneg)]
    split_ifs with h
    · have hlt : m.pc.toInt.toNat < m.program.size := by omega
      have hitem := Careful.item_natCast hlt
      rw [Int.toNat_of_nonneg h.1] at hitem
      rw [hitem, Array.getElem?_eq_getElem hlt, Option.getD_some]
    · rw [Array.getElem?_eq_none (by omega), Option.getD_none]

-- An instruction that can be read ends inside the program, wherever a return has put the offset,
-- and no program is so long that its end is no offset.
theorem decode_offset (hsize : m.program.size < 2 ^ 63) {i : Instruction t} {size : Nat}
    (hdecode : Instruction.decode t m.program m.pc.toInt = .ok (i, size)) :
    0 ≤ m.pc.toInt ∧ m.pc.toInt + size ≤ m.program.size ∧ m.pc.toInt + size < 2 ^ 63 := by
  obtain ⟨hpc, -, hend⟩ := Instruction.decode_bounds hdecode
  omega

theorem pc_add_eq (m : Machine t) (size : Nat) :
    m.pc + Int64.ofNat size = Int64.ofInt (m.pc.toInt + size) := by
  rw [Int64.ofInt_add, Int64.ofInt_toInt, Int64.ofInt_eq_ofNat]

theorem carefulTick_eq (hsize : m.program.size < 2 ^ 63) : m.carefulTick = .ok m.tick := by
  unfold carefulTick tick
  cases m.status with
  | halted | failed => rfl
  | running =>
    simp only
    split_ifs
    · rfl
    · simp only [carefulNextCode_eq, Instruction.carefulDecode_eq, bind, Except.bind]
      cases hdecode : Instruction.decode t m.program m.pc.toInt with
      | error cause => rfl
      | ok read =>
        obtain ⟨i, size⟩ := read
        obtain ⟨hpc, -, hlt⟩ := decode_offset hsize hdecode
        have hoffset : Careful.offset (m.pc.toInt + size) = .ok (m.pc + Int64.ofNat size) := by
          rw [Careful.offset, if_pos ⟨by omega, hlt⟩, pc_add_eq]
        have hexecute : Careful.execute i (m.pc + Int64.ofNat size) m =
            .ok (execute i (m.pc + Int64.ofNat size) m) := Careful.execute_agrees i _ m
        simp only [hoffset, hexecute, nextCode_of_decode hdecode]
        cases execute i (m.pc + Int64.ofNat size) m <;> rfl

theorem tick_program (m : Machine t) : m.tick.machine.program = m.program := after_program 1 m

theorem carefulRunOn_eq (hsize : m.program.size < 2 ^ 63) (fuel : Nat) (log : Array (Event t)) :
    m.carefulRunOn fuel = .ok ((m.runOn fuel log).map (·.machine)) := by
  induction fuel generalizing m log with
  | zero =>
    unfold carefulRunOn runOn
    cases m.status <;> rfl
  | succ fuel ih =>
    have hnext : m.tick.machine.program.size < 2 ^ 63 := by rwa [tick_program]
    unfold carefulRunOn runOn
    cases m.status with
    | halted | failed => rfl
    | running =>
      simp only [carefulTick_eq hsize, bind, Except.bind]
      cases m.tick.stop with
      | some stop => rfl
      | none => exact ih hnext _

theorem carefulApply_eq (hsize : m.program.size < 2 ^ 63) {operation : Operation t}
    (hcount : operation.isCountable = true) :
    operation.carefulApply m = .ok (operation.apply m) := by
  cases operation
  case tick =>
    rw [Operation.carefulApply, carefulTick_eq hsize]
    rfl
  case run fuel program =>
    have hload : (m.load program).program.size < 2 ^ 63 := of_decide_eq_true hcount
    rw [Operation.carefulApply, carefulRunOn_eq hload fuel (m.say (.loaded program.size)).toArray,
      Operation.apply, run]
    cases runOn fuel (m.load program) (m.say (.loaded program.size)).toArray <;> rfl
  case execute i next =>
    have hexecute : Careful.execute i next m = .ok (execute i next m) :=
      Careful.execute_agrees i next m
    rw [Operation.carefulApply, Operation.apply, hexecute]
    cases execute i next m <;> rfl
  case writeRegister id value =>
    rw [Operation.carefulApply, Registers.carefulWrite_eq]
    rfl
  case pop =>
    rw [Operation.carefulApply, Stack.carefulPop_eq]
    rfl
  case storeWord start value =>
    rw [Operation.carefulApply, Memory.carefulStoreWord_eq]
    rfl
  case writeAt start bytes =>
    rw [Operation.carefulApply, Memory.carefulWriteAt_eq _ _ (of_decide_eq_true hcount)]
    rfl
  case load | resetRegisters | push | resetStack | resetMemory | setMaxSteps | setVerbose => rfl

theorem apply_program_size (hsize : m.program.size < 2 ^ 63) {operation : Operation t}
    (hcount : operation.isCountable = true) (happly : operation.apply m = some m') :
    m'.program.size < 2 ^ 63 := by
  cases operation
  case load program =>
    cases happly
    exact of_decide_eq_true hcount
  case tick =>
    cases happly
    rwa [tick_program]
  case run fuel program =>
    obtain ⟨result, hrun, rfl⟩ := Option.map_eq_some_iff.mp happly
    rw [(run_spec hrun).2.1, after_program]
    exact of_decide_eq_true hcount
  case execute i next =>
    rwa [apply_execute_unchanged (·.program) i next (fun op => by cases op <;> rfl) happly]
  all_goals
    cases happly
    exact hsize

theorem carefulDrive_eq (hsize : m.program.size < 2 ^ 63) {operations : List (Operation t)}
    (hcount : ∀ operation ∈ operations, operation.isCountable = true) :
    m.carefulDrive operations = .ok (m.drive operations) ∧
      ∀ m', m.drive operations = some m' → m'.program.size < 2 ^ 63 := by
  induction operations generalizing m with
  | nil =>
    refine ⟨rfl, ?_⟩
    rintro m' ⟨⟩
    exact hsize
  | cons operation rest ih =>
    obtain ⟨hfirst, hrest⟩ := List.forall_mem_cons.mp hcount
    simp only [drive_cons, carefulDrive, carefulApply_eq hsize hfirst, bind, Except.bind]
    cases happly : operation.apply m with
    | none => exact ⟨rfl, nofun⟩
    | some next => exact ih (apply_program_size hsize hfirst happly) hrest

-- Nothing that is only looked at is missing either.
structure LooksSafely (m : Machine t) : Prop where
  register (id : UInt8) : m.registers.carefulRead id = .ok (m.registers.read id)
  top : m.stack.carefulPeek = .ok m.stack.peek
  word (start : UInt32) : m.memory.carefulLoadWord t start = .ok (m.memory.loadWord t start)
  bytes (start : Int64) (count : Nat) (h : count < 2 ^ 63) :
    m.memory.carefulReadAt start count = .ok (m.memory.readAt start count)

theorem looksSafely (m : Machine t) : m.LooksSafely where
  register := m.registers.carefulRead_eq
  top := m.stack.carefulPeek_eq
  word := m.memory.carefulLoadWord_eq
  bytes start _ h := m.memory.carefulReadAt_eq start h

theorem toAddress_ofInt (hwidth : t.width = .eight) (pc : Int64) :
    (Word.ofInt t pc.toInt).toAddress.toInt64 = pc := by
  obtain ⟨width, signed⟩ := t
  cases hwidth
  have hword : Word.ofInt ⟨.eight, signed⟩ pc.toInt = pc.toBitVec := BitVec.ofInt_toInt
  have haddress := Word.toNat_toAddress (Word.ofInt ⟨.eight, signed⟩ pc.toInt)
  rw [hword] at haddress ⊢
  exact congrArg UInt64.toInt64 (UInt64.toNat_inj.mp haddress)

-- A word of 64 bits can be any offset, and a return goes there.
theorem drive_ret (hwidth : t.width = .eight) (hroom : 0 < m.stack.capacity) (pc : Int64) :
    ∃ m', m.drive [.load #[0x17], .push (.ofInt t pc.toInt), .tick] = some m' ∧
      m'.status = .running ∧ m'.pc = pc := by
  let loaded := m.load #[0x17]
  let pushed := { loaded with stack := loaded.stack.add (.ofInt t pc.toInt) }
  have hpush : (Operation.push (.ofInt t pc.toInt)).apply loaded = some pushed := by
    have hfull : loaded.stack.isFull = false := decide_eq_false (Nat.not_le_of_lt hroom)
    simp only [Operation.apply, Stack.push, Stack.checkRoom, hfull]
    rfl
  have hlimit : pushed.limitReached = false := by
    simpa [limitReached, pushed, loaded, load] using UInt64.pos_iff_ne_zero.mp
  have htick : pushed.tick.machine = pushed.complete .ret (.blank t 0x17) := by
    have hdecode : Instruction.decode t pushed.program pushed.pc.toInt =
        .ok (.blank t 0x17, Opcode.ret.size t.bytes) := rfl
    rw [tick_decode_ok rfl hlimit hdecode rfl]
    rfl
  refine ⟨pushed.tick.machine, ?_, ?_, ?_⟩
  · rw [drive_cons, Operation.apply, Option.bind_some, drive_cons, hpush]
    rfl
  · rw [htick]
    rfl
  · rw [htick]
    exact toAddress_ofInt hwidth pc

-- However a machine of possible sizes is driven, being careful comes to no hazard and to the same
-- machine. An instruction is carried out only where it lies inside the program, even though a
-- return can make any number the offset.
theorem driven_without_hazard {registers stack memory : Int} {maxSteps : UInt64} {verbose : Bool}
    {made : Machine t} (hmake : make t registers stack memory maxSteps verbose = .ok made)
    {operations : List (Operation t)}
    (hcount : ∀ operation ∈ operations, operation.isCountable = true) :
    made.carefulDrive operations = .ok (made.drive operations) ∧
    (∀ m, made.drive operations = some m →
      m.LooksSafely ∧
      ∀ i size, Instruction.decode t m.program m.pc.toInt = .ok (i, size) →
        0 ≤ m.pc.toInt ∧ m.pc.toInt + size ≤ m.program.size ∧
          (m.pc + Int64.ofNat size).toInt = m.pc.toInt + size) ∧
    (t.width = .eight → 0 < stack → ∀ pc : Int64, ∃ m,
      made.drive [.load #[0x17], .push (.ofInt t pc.toInt), .tick] = some m ∧
        m.status = .running ∧ m.pc = pc) := by
  obtain ⟨-, hcapacity, -, -⟩ := make_sizes hmake
  have hsize : made.program.size < 2 ^ 63 := by
    rw [make_eq hmake]
    exact Nat.two_pow_pos 63
  obtain ⟨hdrive, hsizes⟩ := carefulDrive_eq hsize hcount
  refine ⟨hdrive, ?_, ?_⟩
  · intro m hm
    refine ⟨m.looksSafely, ?_⟩
    intro i size hdecode
    obtain ⟨hpc, hend, hlt⟩ := decode_offset (hsizes m hm) hdecode
    refine ⟨hpc, hend, ?_⟩
    rw [pc_add_eq, Int64.toInt_ofInt_of_le (by omega) hlt]
  · intro hwidth hstack
    exact drive_ret hwidth (by omega)

def tiny : Machine ⟨.eight, true⟩ :=
  ⟨.zeros _ 2, .clear, .empty _ 1, .zeros 8, #[], 0, 0, .halted, 0, false⟩

-- A return to a negative offset, a division by zero, a write in front of memory, a pop of nothing.
def astray : List (Operation ⟨.eight, true⟩) :=
  [.load #[0x17], .push (-5), .tick, .execute ⟨0x0c, 0, 0, 1, 0, 0⟩ 7, .writeAt (-3) [1, 2], .pop]

theorem driven_without_hazard_astray :
    make ⟨.eight, true⟩ 2 1 8 0 false = .ok tiny ∧
      (∀ operation ∈ astray, operation.isCountable = true) ∧
      ∃ m, tiny.carefulDrive astray = .ok (some m) ∧ m.LooksSafely ∧ m.pc = -5 := by
  have hmake : make ⟨.eight, true⟩ 2 1 8 0 false = .ok tiny := by decide +kernel
  have hcount : ∀ operation ∈ astray, operation.isCountable = true := by decide
  obtain ⟨hdrive, hdriven, -⟩ := driven_without_hazard hmake hcount
  have hend : (tiny.drive astray).map (·.pc) = some (-5) := by decide +kernel
  obtain ⟨m, hm, hpc⟩ := Option.map_eq_some_iff.mp hend
  refine ⟨hmake, hcount, m, ?_, (hdriven m hm).1, hpc⟩
  rw [hdrive, hm]

end Machine

end RegisterMachine
