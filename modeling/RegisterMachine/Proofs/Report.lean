import RegisterMachine.Proofs.SnapshotFile

namespace RegisterMachine

variable {t : WordType}

theorem WordType.name_of_ofName? {text : Octets} (h : ofName? text = some t) :
    text = octets t.name := by
  have hfound := List.find?_some h
  exact (eq_of_beq hfound).symm

theorem WordType.length_name_lt (t : WordType) : (octets t.name).length < Cbor.maxLength := by
  have hshort : (octets t.name).length ≤ 3 := by
    rcases t with ⟨_ | _ | _ | _, _ | _⟩ <;> decide
  exact hshort.trans_lt (by decide)

theorem Config.exists_ofName? {config : Config} (h : config.validate = []) :
    ∃ t, WordType.ofName? config.word = some t := by
  cases hname : WordType.ofName? config.word with
  | some t => exact ⟨t, rfl⟩
  | none => simp [validate, hname] at h

-- Whether a machine can be made does not depend on how much it says.
theorem Machine.make_verbose {registers stack memory : Int} {maxSteps : UInt64} {verbose : Bool}
    {m : Machine t} (h : make t registers stack memory maxSteps verbose = .ok m) (other : Bool) :
    ∃ m', make t registers stack memory maxSteps other = .ok m' := by
  simp only [make, Registers.make, Stack.make, Memory.make, bind, Except.bind, pure,
    Except.pure] at h ⊢
  split_ifs at h ⊢
  exact ⟨_, rfl⟩

namespace Emulator

theorem exists_make {config : Config} {verbose : Bool} {m : Machine t}
    (h : Machine.make t config.registers config.stackCapacity config.memorySize config.maxSteps
      verbose = .ok m) :
    ∃ e : Emulator t, make t config = .ok e ∧ e.config = config ∧ e.verbose = config.verbose ∧
      m.Alike e.machine := by
  obtain ⟨m', hm'⟩ := Machine.make_verbose h false
  have he : make t config = .ok ⟨m', config, octets "-", #[], config.verbose⟩ := by
    simp only [make, hm']
    rfl
  exact ⟨_, he, rfl, rfl, alike_of_make he h⟩

theorem run_endless_names {fuel : Nat} {e : Emulator t} {result : Outcome t} (h : e.InStep)
    (hrun : e.run fuel none = some result) :
    result.emulator.config = e.config ∧ result.emulator.name = e.name := by
  obtain ⟨log, heq⟩ := run_endless fuel h
  rw [heq] at hrun
  split_ifs at hrun
  cases hrun
  exact ⟨rfl, rfl⟩

end Emulator

-- What the sink adds to the errors.
def Sink.errors : Sink → List ImageError
  | .broken reason => [.unwritten reason]
  | .none | .file => []

-- The report tells one and the same machine in each of its parts.
structure Report.Tells (config : Config) (name : Octets) (sink : Sink) (m : Machine t)
    (report : Report) : Prop where
  steps : report.steps = m.steps
  errors : (m.status = .halted ∧ report.errors = sink.errors) ∨
    ∃ fault, m.status = .failed fault ∧
      report.errors = .runtime ⟨name, .fault fault⟩ :: sink.errors
  out : report.out = octets " word: " ++ config.word ++ octets "\nimage: " ++ name ++
    octets ("\n" ++ m.dump)
  unsaved : sink ≠ .file → report.snapshot = []
  saved : sink = .file → name.isText = true → name.length < Cbor.maxLength →
    (t = ⟨.one, false⟩ ∨ m.stack.words.size ≤ 131072) →
    Snapshot.read t report.snapshot = .ok
      { word := config.word, image := name, pc := m.pc, state := Int64.ofInt m.status.code,
        steps := m.steps, flags := m.flags, registers := m.registers.values.toList,
        stack := m.stack.words.toList, memory := m.memory.bytes.toList,
        fault := m.status.faultText }

theorem runImage_refused {config : Config} (h : config.validate ≠ []) (fuel : Nat)
    (grants : Option Nat) (name : Octets) (source : Except Octets (Array UInt8)) (sink : Sink) :
    runImage fuel grants config name source sink =
      .ok (some (.refused (config.validate.map .config))) := by
  unfold runImage
  split
  · contradiction
  · rfl

section

variable {config : Config} {e : Emulator t} (hvalid : config.validate = [])
  (ht : WordType.ofName? config.word = some t) (he : Emulator.make t config = .ok e)

include hvalid ht he

theorem runImage_unreadable (fuel : Nat) (grants : Option Nat) (name reason : Octets)
    (sink : Sink) : runImage fuel grants config name (.error reason) sink =
      .ok (some (.refused [.runtime ⟨name, .unreadable reason⟩])) := by
  simp only [runImage, hvalid, ht, he]
  rfl

theorem runImage_loaded (fuel : Nat) (grants : Option Nat) (name : Octets)
    (image : Array UInt8) (sink : Sink) :
    runImage fuel grants config name (.ok image) sink =
      .ok ((({ e with name }.load (.ok image)).emulator.run fuel grants).map
        (Report.ofOutcome sink ({ e with name }.load (.ok image)).log)) := by
  simp only [runImage, hvalid, ht, he]
  rfl

end

theorem Report.ofOutcome_errors (sink : Sink) (log : List (Emulator.Event t))
    (result : Emulator.Outcome t) :
    (ofOutcome sink log result).errors =
      (result.error.map ImageError.runtime).toList ++ sink.errors := by
  cases sink <;> rfl

theorem Report.ofOutcome_tells {config : Config} {name : Octets} (sink : Sink)
    (log : List (Emulator.Event t)) {result : Emulator.Outcome t} {m : Machine t}
    {registers stack memory : Int} (ht : WordType.ofName? config.word = some t)
    (hreachable : m.Reachable registers stack memory) (hstopped : m.status ≠ .running)
    (hconfig : result.emulator.config = config) (hname : result.emulator.name = name)
    (hmachine : result.emulator.machine = { m with verbose := config.verbose })
    (herror : result.error = m.status.trouble? name) :
    (ofOutcome sink log result).Tells config name sink m := by
  constructor
  case steps => simp [ofOutcome, hmachine]
  case errors =>
    rw [ofOutcome_errors, herror]
    cases hstatus : m.status with
    | running => exact absurd hstatus hstopped
    | halted => exact .inl ⟨rfl, rfl⟩
    | failed fault => exact .inr ⟨fault, rfl, rfl⟩
  case out =>
    simp only [ofOutcome, Emulator.dump, hconfig, hname, hmachine]
    rfl
  case unsaved =>
    intro hsink
    cases sink with
    | none | broken => rfl
    | file => contradiction
  case saved =>
    rintro rfl htext hlength hstack
    have hword : result.emulator.config.word = octets t.name := by
      rw [hconfig]
      exact WordType.name_of_ofName? ht
    have hlast : result.emulator.machine.Reachable registers stack memory :=
      .apply (.setVerbose config.verbose) hreachable (congrArg some hmachine.symm)
    have hfits : result.emulator.snapshot.Fits := by
      apply Emulator.snapshot_fits hlast
      · rwa [hname]
      · rw [hword]
        exact t.length_name_lt
    have htexts :
        result.emulator.name.isText = true ∧ result.emulator.config.word.isText = true := by
      rw [hname, hword]
      exact ⟨htext, Octets.isText_octets t.name⟩
    have hroom : Snapshot.isByte t = true ∨ result.emulator.snapshot.stack.length ≤ 131072 := by
      simpa [Snapshot.isByte, Emulator.snapshot, hmachine] using hstack
    have hread := (Snapshot.read_write_iff hfits result.emulator.isText_snapshot_fault).1.mpr
      ⟨htexts, hroom⟩
    show Snapshot.read t result.emulator.snapshot.write = _
    rw [hread, Emulator.snapshot_eq, hconfig, hname, hmachine]

-- A run of an image tells one and the same final state through all that it leaves behind, and
-- tells nothing if there is none. The configuration is any that is invalid or that a machine can be
-- made from: there may be too little room for what a valid one asks for. No host has a name of
-- `maxLength` bytes.
theorem runImage_tells (config : Config) (name : Octets)
    (source : Except Octets (Array UInt8)) (sink : Sink) :
    (config.validate ≠ [] → ∀ fuel, ∃ errors, errors ≠ [] ∧
      runImage fuel none config name source sink = .ok (some ⟨0, errors, [], [], []⟩)) ∧
    (config.validate = [] → ∃ t, WordType.ofName? config.word = some t ∧
      ∀ (verbose : Bool) (m : Machine t), Machine.make t config.registers config.stackCapacity
          config.memorySize config.maxSteps verbose = .ok m →
        (∀ reason, source = .error reason → ∀ fuel,
          runImage fuel none config name source sink =
            .ok (some ⟨0, [.runtime ⟨name, .unreadable reason⟩], [], [], []⟩)) ∧
        ∀ image ticks finished, source = .ok image → m.run ticks image = some finished →
          (∃ bound, ∀ fuel ≥ bound, ∃ report,
            runImage fuel none config name source sink = .ok (some report)) ∧
          ∀ fuel report, runImage fuel none config name source sink = .ok (some report) →
            report.Tells config name sink finished.machine) := by
  constructor
  · intro hinvalid fuel
    exact ⟨_, by simpa using hinvalid, runImage_refused hinvalid fuel none name source sink⟩
  · intro hvalid
    obtain ⟨t, ht⟩ := Config.exists_ofName? hvalid
    refine ⟨t, ht, ?_⟩
    intro verbose m hmake
    obtain ⟨e, he, hconfig, hverbose, halike⟩ := Emulator.exists_make hmake
    constructor
    · rintro reason rfl fuel
      exact runImage_unreadable hvalid ht he fuel none name reason sink
    · rintro image ticks finished rfl hfinished
      have hloaded (fuel : Nat) := runImage_loaded hvalid ht he fuel none name image sink
      obtain ⟨⟨bound, hbound⟩, hend⟩ :=
        Emulator.run_endless_of_run (e := { e with name }) halike 0 hfinished
      constructor
      · refine ⟨bound, ?_⟩
        intro fuel hfuel
        obtain ⟨result, hresult⟩ := Option.isSome_iff_exists.mp (hbound fuel hfuel)
        change ({ e with name }.load (.ok image)).emulator.run fuel none = some result at hresult
        rw [hloaded fuel, hresult]
        exact ⟨_, rfl⟩
      · intro fuel report hreport
        rw [hloaded fuel, Except.ok.injEq] at hreport
        obtain ⟨result, hresult, rfl⟩ := Option.map_eq_some_iff.mp hreport
        obtain ⟨hmachine, herror⟩ := hend fuel result hresult
        obtain ⟨hstopped, hfinal, -⟩ := Machine.run_spec hfinished
        obtain ⟨hconfig', hname⟩ :=
          Emulator.run_endless_names (Emulator.load_inStep { e with name } image) hresult
        have hreachable : finished.machine.Reachable config.registers config.stackCapacity
            config.memorySize :=
          .apply (.run ticks image) (.make hmake) (by simp [Machine.Operation.apply, hfinished])
        exact Report.ofOutcome_tells sink _ ht hreachable (hfinal ▸ hstopped)
          (hconfig'.trans hconfig) hname (hverbose ▸ hmachine) herror

-- Divides by a register that holds zero after one step.
theorem runImage_tells_small :
    ∃ fuel report finished,
      (∃ m, Machine.make ⟨.one, true⟩ 3 2 4 0 false = .ok m ∧
        m.run 5 #[0x0e, 0, 0x0c, 1, 0, 2] = some finished) ∧
      runImage fuel none Emulator.small (octets "a") (.ok #[0x0e, 0, 0x0c, 1, 0, 2]) .file =
        .ok (some report) ∧
      report.steps = 1 ∧
      report.errors = [.runtime ⟨octets "a", .fault ⟨2, 0x0c, 1, .divisionByZero⟩⟩] ∧
      Snapshot.read ⟨.one, true⟩ report.snapshot = .ok
        { word := octets "i8", image := octets "a", pc := 2, state := 2, steps := 1,
          flags := ⟨false, false, true⟩, registers := [1, 0, 0], stack := [],
          memory := [0, 0, 0, 0], fault := octets "pc 0x0002 DIV: division by zero" } := by
  have hmake : Machine.make ⟨.one, true⟩ 3 2 4 0 false = .ok _ := rfl
  obtain ⟨t, ht, hall⟩ := (runImage_tells Emulator.small (octets "a")
    (.ok #[0x0e, 0, 0x0c, 1, 0, 2]) .file).2 (by decide)
  obtain rfl : t = ⟨.one, true⟩ := Option.some.inj (ht.symm.trans (by decide))
  obtain ⟨-, hend⟩ := hall false _ hmake
  obtain ⟨⟨bound, hbound⟩, htells⟩ := hend _ 5 _ rfl rfl
  obtain ⟨report, hreport⟩ := hbound bound (Nat.le_refl _)
  obtain ⟨hsteps, herrors, -, -, hsaved⟩ := htells bound report hreport
  refine ⟨bound, report, _, ⟨_, hmake, rfl⟩, hreport, hsteps.trans rfl, ?_, ?_⟩
  · obtain ⟨hhalted, -⟩ | ⟨fault, hfailed, herrors⟩ := herrors
    · cases hhalted
    · cases hfailed
      exact herrors
  · exact (hsaved rfl (by decide) (by decide) (.inr (by decide +kernel))).trans
      (by decide +kernel)

-- A valid configuration that asks for more memory than any host has.
def roomless : Config := { Config.standard with
  word := octets "i8"
  memorySize := 9223372036854775807 }

theorem runImage_roomless : roomless.validate = [] ∧
    runImage 1 none roomless (octets "x") (.error (octets "injected failure")) .file =
      .error .memory := by
  decide

end RegisterMachine
