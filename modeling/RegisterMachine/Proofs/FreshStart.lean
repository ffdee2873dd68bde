import RegisterMachine.Proofs.History
import RegisterMachine.Proofs.StepBudget

namespace RegisterMachine

variable {t : WordType}

namespace Stack

theorem capacity_push (stack : Stack t) (value : Word t) :
    ((stack.push value).toOption.getD stack).capacity = stack.capacity := by
  unfold push
  cases stack.checkRoom <;> rfl

theorem capacity_pop (stack : Stack t) :
    ((stack.pop.map Prod.snd).toOption.getD stack).capacity = stack.capacity := by
  unfold pop
  cases stack.peek <;> rfl

end Stack

namespace Machine

variable {m m' : Machine t}

-- The step limit that an operation leaves.
def Operation.limit (maxSteps : UInt64) : Operation t → UInt64
  | .setMaxSteps other => other
  | _ => maxSteps

-- The step limit that was given last.
def lastLimit (maxSteps : UInt64) (operations : List (Operation t)) : UInt64 :=
  operations.foldl Operation.limit maxSteps

-- The machine after operations one after the other; none if one of them is a run that does not end.
def drive (m : Machine t) (operations : List (Operation t)) : Option (Machine t) :=
  operations.foldlM (fun m operation => operation.apply m) m

theorem drive_cons (m : Machine t) (operation : Operation t) (rest : List (Operation t)) :
    m.drive (operation :: rest) = (operation.apply m).bind (·.drive rest) := by
  rw [drive, List.foldlM_cons]
  rfl

theorem sizes_eq (hregisters : m'.registers.values.size = m.registers.values.size)
    (hstack : m'.stack.capacity = m.stack.capacity) (hmemory : m'.memory.size = m.memory.size) :
    m'.sizes = m.sizes := by
  rw [Machine.sizes, Machine.sizes, hregisters, hstack, hmemory]

theorem effect_sizes (op : Opcode) (i : Instruction t) (next : Int64) (m : Machine t) :
    (m.effect op i next).sizes = m.sizes := by
  cases op <;> simp [effect, settle, Machine.sizes, Stack.add, Stack.drop]

theorem after_limits (n : Nat) (m : Machine t) :
    (m.after n).sizes = m.sizes ∧ (m.after n).maxSteps = m.maxSteps := by
  have hcomplete (m : Machine t) (op : Opcode) (i : Instruction t) :
      ((m.complete op i).sizes, (m.complete op i).maxSteps) = (m.sizes, m.maxSteps) :=
    Prod.ext (effect_sizes op i _ m) (effect_maxSteps op i _ m)
  exact Prod.mk.inj (after_unchanged (fun m => (m.sizes, m.maxSteps)) (fun _ _ => rfl)
    hcomplete n m)

theorem load_sizes (m : Machine t) (program : Array UInt8) : (m.load program).sizes = m.sizes :=
  sizes_eq m.registers.size_reset rfl m.memory.size_reset

-- What no effect of an instruction changes is as before, whether it was refused or carried out.
theorem apply_execute_unchanged {α : Type} (view : Machine t → α) (i : Instruction t) (next : Int64)
    (heffect : ∀ op, view (m.effect op i next) = view m)
    (happly : (Operation.execute i next).apply m = some m') : view m' = view m := by
  cases hexecute : execute i next m with
  | ok _ m'' =>
    obtain ⟨op, -, -, rfl⟩ := execute_ok hexecute
    simp only [Operation.apply, hexecute, Option.some.injEq] at happly
    rw [← happly, heffect]
  | error cause m'' =>
    simp only [Operation.apply, hexecute, Option.some.injEq] at happly
    rw [← happly, execute_error hexecute]

-- No operation changes the sizes, and only one that is there for it changes the step limit.
theorem apply_limits {operation : Operation t} (happly : operation.apply m = some m') :
    m'.sizes = m.sizes ∧ m'.maxSteps = operation.limit m.maxSteps := by
  cases operation <;> simp only [Operation.apply, Option.some.injEq] at happly
  case load program => exact happly ▸ ⟨load_sizes m program, rfl⟩
  case tick => exact happly ▸ after_limits 1 m
  case run fuel program =>
    obtain ⟨result, hrun, rfl⟩ := Option.map_eq_some_iff.mp happly
    obtain ⟨hsizes, hlimit⟩ := after_limits fuel (m.load program)
    rw [(run_spec hrun).2.1]
    exact ⟨hsizes.trans (load_sizes m program), hlimit⟩
  case execute i next =>
    exact Prod.mk.inj (apply_execute_unchanged (fun m => (m.sizes, m.maxSteps)) i next
      (fun op => Prod.ext (effect_sizes op i next m) (effect_maxSteps op i next m)) happly)
  case writeRegister id value =>
    exact happly ▸ ⟨sizes_eq (m.registers.size_write id value) rfl rfl, rfl⟩
  case resetRegisters => exact happly ▸ ⟨sizes_eq m.registers.size_reset rfl rfl, rfl⟩
  case push value => exact happly ▸ ⟨sizes_eq rfl (m.stack.capacity_push value) rfl, rfl⟩
  case pop => exact happly ▸ ⟨sizes_eq rfl m.stack.capacity_pop rfl, rfl⟩
  case resetStack => exact happly ▸ ⟨rfl, rfl⟩
  case storeWord address value =>
    exact happly ▸ ⟨sizes_eq rfl rfl (m.memory.size_write _ value.toOctets), rfl⟩
  case writeAt offset bytes =>
    exact happly ▸ ⟨sizes_eq rfl rfl (m.memory.size_writeAt offset bytes), rfl⟩
  case resetMemory => exact happly ▸ ⟨sizes_eq rfl rfl m.memory.size_reset, rfl⟩
  case setMaxSteps maxSteps => exact happly ▸ ⟨rfl, rfl⟩
  case setVerbose verbose => exact happly ▸ ⟨rfl, rfl⟩

theorem drive_limits {operations : List (Operation t)} (h : m.drive operations = some m') :
    m'.sizes = m.sizes ∧ m'.maxSteps = lastLimit m.maxSteps operations := by
  induction operations generalizing m with
  | nil =>
    cases h
    exact ⟨rfl, rfl⟩
  | cons operation rest ih =>
    rw [drive_cons] at h
    obtain ⟨next, happly, hrest⟩ := Option.bind_eq_some_iff.mp h
    obtain ⟨hsizes, hlimit⟩ := apply_limits happly
    obtain ⟨hsizes', hlimit'⟩ := ih hrest
    refine ⟨hsizes'.trans hsizes, hlimit'.trans ?_⟩
    rw [hlimit]
    rfl

theorem alike_iff : m.Alike m' ↔ m.sizes = m'.sizes ∧ m.maxSteps = m'.maxSteps := by
  simp only [Machine.sizes, Sizes.mk.injEq]
  constructor
  · intro h
    exact ⟨⟨h.registers, h.capacity, h.memory⟩, h.maxSteps⟩
  · rintro ⟨⟨hregisters, hcapacity, hmemory⟩, hmaxSteps⟩
    exact ⟨hregisters, hcapacity, hmemory, hmaxSteps⟩

end Machine

-- All that a run leaves and answers but for what it says.
def Outcome.unsaid (result : Outcome t) : Machine t × Option Stop :=
  (result.machine.speaking false, result.stop)

namespace Machine

-- Whatever program is loaded, two machines go through the same states with the same answers and
-- their runs end alike.
structure SameRuns (a b : Machine t) : Prop where
  states (program : Array UInt8) (n : Nat) :
    ((a.load program).after n).speaking false = ((b.load program).after n).speaking false
  answers (program : Array UInt8) (n : Nat) :
    ((a.load program).after n).tick.stop = ((b.load program).after n).tick.stop
  runs (program : Array UInt8) (fuel : Nat) :
    (a.run fuel program).map Outcome.unsaid = (b.run fuel program).map Outcome.unsaid

theorem Alike.sameRuns {a b : Machine t} (h : a.Alike b) : a.SameRuns b := by
  have hafter (program : Array UInt8) (n : Nat) :
      (a.load program).after n = ((b.load program).after n).speaking a.verbose := by
    rw [h.load_eq, after_speaking]
  constructor
  case states =>
    intro program n
    rw [hafter]
    rfl
  case answers =>
    intro program n
    rw [hafter]
    exact (tick_speaking _ _).2
  case runs =>
    intro program fuel
    obtain ⟨log, hrun⟩ := run_eq fuel a program
    obtain ⟨log', hrun'⟩ := run_eq fuel b program
    rw [hrun, hrun', hafter, speaking_status]
    split_ifs <;> rfl

end Machine

namespace Emulator

-- What can be done to an emulator, its machine included.
inductive Operation (t : WordType) where
  | load (source : Except Octets (Array UInt8))
  | reset
  | tick
  | run (fuel : Nat) (grants : Option Nat)
  | setVerbose (verbose : Bool)
  | machine (operation : Machine.Operation t)

namespace Operation

def apply (e : Emulator t) : Operation t → Option (Emulator t)
  | .load source => some (e.load source).emulator
  | .reset => some e.reset.1
  | .tick => some e.tick.2.emulator
  | .run fuel grants => (e.run fuel grants).map (·.emulator)
  | .setVerbose verbose => some { e with verbose }
  | .machine operation => (operation.apply e.machine).map ({ e with machine := · })

def limit (maxSteps : UInt64) : Operation t → UInt64
  | .machine operation => operation.limit maxSteps
  | _ => maxSteps

end Operation

def lastLimit (maxSteps : UInt64) (operations : List (Operation t)) : UInt64 :=
  operations.foldl Operation.limit maxSteps

def drive (e : Emulator t) (operations : List (Operation t)) : Option (Emulator t) :=
  operations.foldlM (fun e operation => operation.apply e) e

-- What a start leaves alone, but for the image.
def limits (e : Emulator t) : Sizes × UInt64 × Octets :=
  (e.machine.sizes, e.machine.maxSteps, e.name)

theorem tick_limits (e : Emulator t) : e.tick.2.emulator.limits = e.limits := by
  have hmachine : e.tick.2.emulator =
      { e with machine := (e.machine.speaking e.verbose).tick.machine } := by
    obtain ⟨m, config, name, image, verbose⟩ := e
    simp only [tick]
    cases (Machine.tick { m with verbose }).stop with
    | none => rfl
    | some stop => cases stop <;> rfl
  obtain ⟨hsizes, hlimit⟩ := Machine.after_limits 1 (e.machine.speaking e.verbose)
  rw [hmachine]
  exact Prod.ext hsizes (Prod.ext hlimit rfl)

theorem rounds_limits {fuel : Nat} {n : Int64} {done : Bool} {grants : Option Nat} {e : Emulator t}
    {log : Array (Event t)} {result : Outcome t}
    (h : rounds fuel n done grants e log = some result) : result.emulator.limits = e.limits := by
  induction fuel generalizing n done grants e log with
  | zero =>
    cases done with
    | true => cases h; rfl
    | false => cases h
  | succ fuel ih =>
    cases done with
    | true => cases h; rfl
    | false =>
      simp only [rounds, Bool.false_eq_true, if_false] at h
      split at h
      · cases h
        rfl
      · split at h
        · cases h
          exact e.tick_limits
        · exact (ih h).trans e.tick_limits

theorem run_limits {fuel : Nat} {grants : Option Nat} {e : Emulator t} {result : Outcome t}
    (h : e.run fuel grants = some result) : result.emulator.limits = e.limits := by
  obtain ⟨ended, hrounds, hresult⟩ := Option.bind_eq_some_iff.mp h
  cases hresult
  show ended.emulator.limits = e.limits
  exact rounds_limits hrounds

theorem apply_limits {operation : Operation t} {e e' : Emulator t}
    (happly : operation.apply e = some e') :
    e'.limits = (e.machine.sizes, operation.limit e.machine.maxSteps, e.name) := by
  cases operation <;> simp only [Operation.apply, Option.some.injEq] at happly
  case load source =>
    subst happly
    cases source with
    | error reason => rfl
    | ok image => exact Prod.ext (Machine.load_sizes _ image) rfl
  case reset => exact happly ▸ Prod.ext (Machine.load_sizes _ e.image) rfl
  case tick => exact happly ▸ e.tick_limits
  case run fuel grants =>
    obtain ⟨result, hrun, rfl⟩ := Option.map_eq_some_iff.mp happly
    exact run_limits hrun
  case setVerbose verbose => exact happly ▸ rfl
  case machine operation =>
    obtain ⟨m, hm, rfl⟩ := Option.map_eq_some_iff.mp happly
    obtain ⟨hsizes, hlimit⟩ := Machine.apply_limits hm
    exact Prod.ext hsizes (Prod.ext hlimit rfl)

theorem drive_limits {operations : List (Operation t)} {e e' : Emulator t}
    (h : e.drive operations = some e') :
    e'.limits = (e.machine.sizes, lastLimit e.machine.maxSteps operations, e.name) := by
  induction operations generalizing e with
  | nil =>
    cases h
    rfl
  | cons operation rest ih =>
    rw [drive, List.foldlM_cons] at h
    obtain ⟨next, happly, hrest⟩ := Option.bind_eq_some_iff.mp h
    have hlimits := apply_limits happly
    simp only [limits, Prod.mk.injEq] at hlimits
    obtain ⟨hsizes, hlimit, hname⟩ := hlimits
    rw [ih hrest, hsizes, hlimit, hname]
    rfl

def Outcome.unsaid (result : Outcome t) : Machine t × Option RuntimeError :=
  (result.emulator.machine.speaking false, result.error)

-- Runs of emulators in step depend on the machine, however much it says, and on the name.
theorem run_unsaid {e e' : Emulator t} (h : e.InStep) (h' : e'.InStep)
    (hmachine : e.machine = e'.machine.speaking e.verbose) (hname : e.name = e'.name)
    (fuel : Nat) (grants : Option Nat) :
    (e.run fuel grants).map Outcome.unsaid = (e'.run fuel grants).map Outcome.unsaid := by
  have hafter (n : Nat) :
      (e.after n).machine = (e'.after n).machine.speaking e.verbose := by
    rw [after, hmachine, Machine.after_speaking]
    rfl
  obtain ⟨log, hrun⟩ := run_eq_runResult fuel grants h
  obtain ⟨log', hrun'⟩ := run_eq_runResult fuel grants h'
  simp only [hrun, hrun', runResult, hafter, Machine.speaking_status, hname]
  split_ifs
  · simp only [Option.map_some, Outcome.unsaid, hafter]
    rfl
  · simp only [Option.map_some, Outcome.unsaid, hafter]
    rfl
  · rfl

end Emulator

-- Runs do not depend on history. Machines that were made alike, whatever has been done to them
-- since, run every program alike from its load on, and an emulator that is reset repeats the first
-- run of its image, whatever has been done to it since that was loaded.
theorem runs_forget_history (t : WordType) :
    (∀ (registers stack memory : Int) (maxSteps maxSteps' : UInt64) (verbose verbose' : Bool)
        (made made' m m' : Machine t) (operations operations' : List (Machine.Operation t)),
      Machine.make t registers stack memory maxSteps verbose = .ok made →
      Machine.make t registers stack memory maxSteps' verbose' = .ok made' →
      Machine.lastLimit maxSteps operations = Machine.lastLimit maxSteps' operations' →
      made.drive operations = some m → made'.drive operations' = some m' → m.SameRuns m') ∧
    ∀ (e e' : Emulator t) (image : Array UInt8) (operations : List (Emulator.Operation t)),
      Emulator.lastLimit e.machine.maxSteps operations = e.machine.maxSteps →
      (e.load (.ok image)).emulator.drive operations = some e' → e'.image = image →
      ∀ fuel grants, (e'.reset.1.run fuel grants).map Emulator.Outcome.unsaid =
        ((e.load (.ok image)).emulator.run fuel grants).map Emulator.Outcome.unsaid := by
  constructor
  · intro registers stack memory maxSteps maxSteps' verbose verbose' made made' m m' operations
      operations' hmake hmake' hlimit hdriven hdriven'
    apply Machine.Alike.sameRuns
    rw [Machine.alike_iff]
    obtain ⟨hregisters, hcapacity, hmemory, hmaxSteps⟩ := Machine.make_sizes hmake
    obtain ⟨hregisters', hcapacity', hmemory', hmaxSteps'⟩ := Machine.make_sizes hmake'
    obtain ⟨hsizes, hlast⟩ := Machine.drive_limits hdriven
    obtain ⟨hsizes', hlast'⟩ := Machine.drive_limits hdriven'
    have hmade : made.sizes = made'.sizes :=
      Machine.sizes_eq (hregisters.trans hregisters'.symm) (hcapacity.trans hcapacity'.symm)
        (hmemory.trans hmemory'.symm)
    rw [hsizes, hsizes', hlast, hlast', hmaxSteps, hmaxSteps']
    exact ⟨hmade, hlimit⟩
  · intro e e' image operations hlimit hdriven himage fuel grants
    have hlimits := Emulator.drive_limits hdriven
    simp only [Emulator.limits, Prod.mk.injEq] at hlimits
    obtain ⟨hsizes, hlast, hname⟩ := hlimits
    have hload : (e.load (.ok image)).emulator.machine.sizes = e.machine.sizes :=
      Machine.load_sizes _ image
    have halike : e.machine.Alike e'.machine :=
      Machine.alike_iff.mpr ⟨(hsizes.trans hload).symm, (hlast.trans hlimit).symm⟩
    have hreset : e'.reset.1 = (e'.load (.ok image)).emulator := by
      rw [← himage]
      rfl
    have hmachine : e'.reset.1.machine =
        (e.load (.ok image)).emulator.machine.speaking e'.verbose := by
      rw [hreset, Emulator.load_machine halike]
      rfl
    have hstep : e'.reset.1.InStep := hreset ▸ Emulator.load_inStep e' image
    exact Emulator.run_unsaid hstep (Emulator.load_inStep e image) hmachine hname fuel grants

namespace Machine

-- Runs to a halt.
def smooth : List (Operation ⟨.one, true⟩) := [.run 2 #[0x0f, 1, 0xff]]

-- Fails for its step limit, is refused a register, and leaves something on the stack and in memory.
def rough : List (Operation ⟨.one, true⟩) :=
  [.setMaxSteps 1, .run 2 #[0x0e, 0, 0x0e, 0], .push 7, .storeWord 1 3, .writeRegister 9 9,
    .setMaxSteps 0]

-- Interferes with a run, takes no new image and goes on.
def meddling : List (Emulator.Operation ⟨.one, true⟩) :=
  [.tick, .machine (.push 1), .load (.error []), .run 9 none, .setVerbose false]

theorem runs_forget_history_used :
    make ⟨.one, true⟩ 2 2 2 0 false = .ok (sized 2 2 2) ∧
    (∃ m m', (sized 2 2 2).drive smooth = some m ∧ (sized 2 2 2).drive rough = some m' ∧
      m.status ≠ m'.status ∧ m.flags ≠ m'.flags ∧ m.stack ≠ m'.stack ∧ m.memory ≠ m'.memory ∧
      m.SameRuns m') ∧
    ∃ first e', first = (Emulator.load ⟨sized 2 2 2, Emulator.small, [], #[], true⟩
        (.ok #[0x0f, 1, 0x0f, 1])).emulator ∧ first.drive meddling = some e' ∧
      (first.run 3 none).isSome = true ∧
      (e'.reset.1.run 3 none).map Emulator.Outcome.unsaid =
        (first.run 3 none).map Emulator.Outcome.unsaid := by
  obtain ⟨hmachines, hemulators⟩ := runs_forget_history ⟨.one, true⟩
  have hmake : make ⟨.one, true⟩ 2 2 2 0 false = .ok (sized 2 2 2) := rfl
  have hsmooth : (sized 2 2 2).drive smooth = some _ := rfl
  have hrough : (sized 2 2 2).drive rough = some _ := rfl
  have hmeddling : (Emulator.load ⟨sized 2 2 2, Emulator.small, [], #[], true⟩
    (.ok #[0x0f, 1, 0x0f, 1])).emulator.drive meddling = some _ := rfl
  refine ⟨hmake, ⟨_, _, hsmooth, hrough, by decide +kernel, by decide +kernel, by decide +kernel,
    by decide +kernel, ?_⟩, _, _, rfl, hmeddling, by decide +kernel, ?_⟩
  · exact hmachines 2 2 2 0 0 false false _ _ _ _ smooth rough hmake hmake rfl hsmooth hrough
  · exact hemulators _ _ #[0x0f, 1, 0x0f, 1] meddling rfl hmeddling rfl 3 none

end Machine

end RegisterMachine
