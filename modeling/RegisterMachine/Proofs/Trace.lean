import RegisterMachine.Proofs.FaultCode
import RegisterMachine.Proofs.FreshStart

namespace RegisterMachine

variable {t : WordType}

namespace Machine

-- The instruction that the next tick of a running machine reads, if it comes so far.
def fetch? (m : Machine t) : Option (Instruction t) :=
  if m.limitReached then none
  else (Instruction.decode t m.program m.pc.toInt).toOption.map Prod.fst

-- The instructions that the first `n` ticks read, each with its place, in the order of the ticks.
def trace (n : Nat) (m : Machine t) : List (Int64 × Instruction t) :=
  (List.range n).filterMap fun j => (m.after j).fetch?.map ((m.after j).pc, ·)

theorem fetch?_limitReached {m : Machine t} (hlimit : m.limitReached = true) :
    m.fetch? = none := by
  rw [fetch?, if_pos hlimit]

theorem fetch?_decode_error {m : Machine t} {cause : Cause}
    (hdecode : Instruction.decode t m.program m.pc.toInt = .error cause) : m.fetch? = none := by
  rw [fetch?, hdecode]
  split_ifs <;> rfl

theorem fetch?_decode_ok {m : Machine t} {i : Instruction t} {size : Nat}
    (hlimit : m.limitReached = false)
    (hdecode : Instruction.decode t m.program m.pc.toInt = .ok (i, size)) :
    m.fetch? = some i := by
  rw [fetch?, hlimit, hdecode]
  rfl

theorem trace_succ (n : Nat) (m : Machine t) :
    m.trace (n + 1) = m.trace n ++ ((m.after n).fetch?.map ((m.after n).pc, ·)).toList := by
  rw [trace, List.range_succ, List.filterMap_append, ← trace]
  cases h : (m.after n).fetch? <;> simp [h]

theorem trace_speaking (n : Nat) (m : Machine t) (verbose : Bool) :
    (m.speaking verbose).trace n = m.trace n := by
  simp only [trace, after_speaking]
  rfl

theorem after_verbose (n : Nat) (m : Machine t) : (m.after n).verbose = m.verbose :=
  after_unchanged (·.verbose) (fun _ _ => rfl) (fun _ op _ => by cases op <;> rfl) n m

-- A tick writes down the instruction that it reads, before it is known whether it can be carried
-- out.
theorem tick_log {m : Machine t} (hrun : m.status = .running) :
    m.tick.log = if m.verbose then (m.fetch?.map (.fetched m.pc ·)).toList else [] := by
  obtain hlimit | ⟨hlimit, cause, hdecode⟩ | ⟨hlimit, op, i, hdecode, hop⟩ := m.fetch_cases
  · rw [tick_limitReached hrun hlimit, fetch?_limitReached hlimit]
    exact (ite_self _).symm
  · rw [tick_decode_error hrun hlimit hdecode, fetch?_decode_error hdecode]
    exact (ite_self _).symm
  · rw [tick_decode_ok hrun hlimit hdecode hop, fetch?_decode_ok hlimit hdecode]
    cases m.refusal? op i (m.following op) <;> rfl

theorem ticks_log {m : Machine t} {n : Nat} (hrunning : ∀ j < n, (m.after j).status = .running) :
    ((List.range n).flatMap fun j => (m.after j).tick.log) =
      if m.verbose then (m.trace n).map fun line => .fetched line.1 line.2 else [] := by
  induction n with
  | zero => exact (ite_self _).symm
  | succ n ih =>
    rw [List.range_succ, List.flatMap_append, ih fun j hj => hrunning j (by omega), trace_succ,
      List.flatMap_singleton, tick_log (hrunning n (by omega)), after_verbose]
    split_ifs
    · cases (m.after n).fetch? <;> simp
    · rfl

theorem runOn_of_stopped {m : Machine t} (h : m.status ≠ .running) (fuel : Nat)
    (log : Array (Event t)) : runOn fuel m log = some ⟨m, none, log.toList⟩ := by
  unfold runOn
  cases hstatus : m.status with
  | running => exact absurd hstatus h
  | halted | failed => rfl

-- What a run writes down is what its ticks write down, one after the other.
theorem runOn_ticks {fuel : Nat} {m : Machine t} {log : Array (Event t)} {result : Outcome t}
    (h : runOn fuel m log = some result) :
    ∃ n, (∀ j < n, (m.after j).status = .running) ∧ (m.after n).status ≠ .running ∧
      result.machine = m.after n ∧
      result.log = log.toList ++ (List.range n).flatMap fun j => (m.after j).tick.log := by
  induction fuel generalizing m log with
  | zero =>
    by_cases hrun : m.status = .running
    · unfold runOn at h
      rw [hrun] at h
      cases h
    · rw [runOn_of_stopped hrun] at h
      cases h
      exact ⟨0, by simp, hrun, rfl, by simp⟩
  | succ fuel ih =>
    by_cases hrun : m.status = .running
    · unfold runOn at h
      simp only [hrun] at h
      cases hstop : m.tick.stop with
      | none =>
        simp only [hstop] at h
        obtain ⟨n, hrunning, hstopped, hmachine, hlog⟩ := ih h
        refine ⟨n + 1, ?_, hstopped, hmachine, ?_⟩
        · intro j hj
          cases j with
          | zero => exact hrun
          | succ j => exact hrunning j (by omega)
        · rw [hlog, List.range_succ_eq_map, List.flatMap_cons, List.flatMap_map]
          simp [after_succ]
      | some stop =>
        simp only [hstop] at h
        cases h
        refine ⟨1, ?_, ?_, rfl, by simp⟩
        · intro j hj
          obtain rfl : j = 0 := by omega
          exact hrun
        · intro hgoes
          rw [tick_stop_of_running hrun, show m.tick.machine.status = .running from hgoes] at hstop
          cases hstop
    · rw [runOn_of_stopped hrun] at h
      cases h
      exact ⟨0, by simp, hrun, rfl, by simp⟩

theorem run_ticks {fuel : Nat} {m : Machine t} {program : Array UInt8} {result : Outcome t}
    (h : m.run fuel program = some result) :
    ∃ n, (∀ j < n, ((m.load program).after j).status = .running) ∧
      result.machine = (m.load program).after n ∧
      (m.verbose = false → result.log = []) ∧
      (m.verbose = true → result.log = .loaded program.size ::
        ((m.load program).trace n).map (fun line => .fetched line.1 line.2) ++
          [.finished result.machine.status result.machine.steps]) := by
  rw [run, Option.bind_eq_bind, Option.bind_eq_some_iff] at h
  obtain ⟨ended, hended, hresult⟩ := h
  cases hresult
  obtain ⟨n, hrunning, -, hmachine, hlog⟩ := runOn_ticks hended
  have hload : (m.load program).verbose = m.verbose := rfl
  have hend : ended.machine.verbose = m.verbose := by rw [hmachine, after_verbose, hload]
  refine ⟨n, hrunning, hmachine, fun hverbose => ?_, fun hverbose => ?_⟩
  · simp [hlog, ticks_log hrunning, say, hend, hload, hverbose]
  · simp [hlog, ticks_log hrunning, say, hend, hload, hverbose]

theorem fetch?_of_success {m : Machine t} (h : m.tick.stop = none) :
    m.limitReached = false ∧ ∃ i, m.fetch? = some i := by
  obtain ⟨-, -, hrun, -⟩ := tick_success h
  obtain ⟨code, cause, log, hfail⟩ | ⟨op, i, hlimit, hdecode, -⟩ := tick_cases hrun
  · rw [hfail] at h
    cases h
  · exact ⟨hlimit, i, fetch?_decode_ok hlimit hdecode⟩

theorem length_trace {m : Machine t} {n : Nat} (hticks : ∀ j < n, (m.after j).tick.stop = none) :
    (m.trace n).length = n := by
  induction n with
  | zero => rfl
  | succ n ih =>
    obtain ⟨-, i, hfetch⟩ := fetch?_of_success (hticks n (by omega))
    rw [trace_succ, hfetch, List.length_append, ih fun j hj => hticks j (by omega)]
    rfl

theorem ticks_of_halted {m : Machine t} {n : Nat}
    (hrunning : ∀ j < n, (m.after j).status = .running) (hhalted : (m.after n).status = .halted) :
    ∀ j < n, (m.after j).tick.stop = none := by
  intro j hj
  rw [tick_stop_of_running (hrunning j hj), ← after_succ_eq_tick]
  obtain hlt | heq := Nat.lt_or_eq_of_le (Nat.succ_le_of_lt hj)
  · rw [hrunning _ hlt]
    rfl
  · rw [show j + 1 = n from heq, hhalted]
    rfl

-- The tick that fails is the last one, and all before it succeed.
theorem ticks_of_failed {m : Machine t} {n : Nat} {fault : Fault} (hrun : m.status = .running)
    (hrunning : ∀ j < n, (m.after j).status = .running)
    (hfailed : (m.after n).status = .failed fault) :
    ∃ k, n = k + 1 ∧ (∀ j < k, (m.after j).tick.stop = none) ∧
      (m.after k).tick.stop = some (.fault fault) := by
  cases n with
  | zero =>
    rw [after_zero, hrun] at hfailed
    cases hfailed
  | succ k =>
    have hlast := hrunning k (by omega)
    refine ⟨k, rfl, fun j hj => tick_stop_of_after_running hlast hj, ?_⟩
    rw [tick_stop_of_running hlast, ← after_succ_eq_tick, hfailed]
    rfl

-- As long as a limit leaves one more instruction, fewer than that have been carried out. The number
-- of ticks is below the limit, so that the counter has not wrapped around.
theorem lt_maxSteps {m : Machine t} {k : Nat} (hlimited : 0 < m.maxSteps) (hsteps : m.steps = 0)
    (hticks : ∀ j < k, (m.after j).tick.stop = none) (hfree : (m.after k).limitReached = false) :
    k < m.maxSteps.toNat := by
  induction k with
  | zero => exact UInt64.lt_iff_toNat_lt.mp hlimited
  | succ k ih =>
    have hk := ih (fun j hj => hticks j (by omega)) (fetch?_of_success (hticks k (by omega))).1
    have hmax := m.maxSteps.toNat_lt
    have hcount : (m.after (k + 1)).steps.toNat = k + 1 := by
      rw [after_steps hticks, hsteps, UInt64.zero_add, UInt64.toNat_ofNat']
      omega
    rw [limitReached, (after_limits _ m).2] at hfree
    simp only [hlimited, decide_true, Bool.true_and, decide_eq_false_iff_not,
      UInt64.le_iff_toNat_le, hcount] at hfree
    omega

theorem le_maxSteps {m : Machine t} {n : Nat} (hlimited : 0 < m.maxSteps) (hsteps : m.steps = 0)
    (hticks : ∀ j < n, (m.after j).tick.stop = none) : n ≤ m.maxSteps.toNat := by
  cases n with
  | zero => exact Nat.zero_le _
  | succ k =>
    exact lt_maxSteps hlimited hsteps (fun j hj => hticks j (by omega))
      (fetch?_of_success (hticks k (by omega))).1

-- A run that fails has the instruction in its trace only if the instruction was what failed.
theorem trace_of_failed {m : Machine t} {n : Nat} {fault : Fault} (hrun : m.status = .running)
    (hrunning : ∀ j < n, (m.after j).status = .running)
    (hfailed : (m.after n).status = .failed fault) :
    ∃ k, n = k + 1 ∧ (∀ j < k, (m.after j).tick.stop = none) ∧
      m.after k = { m.after n with status := .running } ∧
      ((fault.cause = .stepLimit ∨
          ∃ cause, Instruction.decode t m.program fault.offset.toInt = .error cause) ∧
          m.trace n = m.trace k ∨
        ∃ i size, (m.after k).limitReached = false ∧ fault.cause ≠ .stepLimit ∧
          Instruction.decode t m.program fault.offset.toInt = .ok (i, size) ∧
          execute i (fault.offset + Int64.ofNat size) (m.after k) =
            .error fault.cause (m.after k) ∧
          m.trace n = m.trace k ++ [(fault.offset, i)]) := by
  obtain ⟨k, rfl, hticks, hstop⟩ := ticks_of_failed hrun hrunning hfailed
  have hlast := hrunning k (by omega)
  have hbefore : m.after k = { m.after (k + 1) with status := .running } := by
    obtain ⟨status, hmachine⟩ := tick_of_stop (m := m.after k) (by simp [hstop])
    rw [after_succ_eq_tick, hmachine, ← hlast]
  refine ⟨k, rfl, hticks, hbefore, ?_⟩
  rw [trace_succ, ← after_program k m]
  obtain ⟨hlimit, rfl, -⟩ | ⟨cause, -, hdecode, rfl, -⟩ |
      ⟨op, i, cause, hlimit, hdecode, hop, hrefusal, rfl, -⟩ := tick_fault_cases hlast hstop
  · rw [fetch?_limitReached hlimit]
    exact .inl ⟨.inl rfl, List.append_nil _⟩
  · rw [fetch?_decode_error hdecode]
    exact .inl ⟨.inr ⟨cause, hdecode⟩, List.append_nil _⟩
  · have hexecute :
        execute i ((m.after k).following op) (m.after k) = .error cause (m.after k) := by
      rw [execute_eq_outcome hop, outcome, hrefusal]
    rw [fetch?_decode_ok hlimit hdecode]
    refine .inr ⟨i, _, hlimit, ?_, hdecode, hexecute, rfl⟩
    rintro rfl
    exact refusal?_ne_stepLimit op i _ _ hrefusal

theorem run_speaking (m : Machine t) (verbose : Bool) (fuel : Nat) (program : Array UInt8) :
    ∃ log, (m.speaking verbose).run fuel program =
      if ((m.load program).after fuel).status = .running then none
      else some ⟨((m.load program).after fuel).speaking verbose,
        ((m.load program).after fuel).status.failure?, log⟩ := by
  obtain ⟨log, hrun⟩ := run_eq fuel (m.speaking verbose) program
  have hload : (m.speaking verbose).load program = (m.load program).speaking verbose := rfl
  rw [hload, after_speaking, speaking_status] at hrun
  exact ⟨log, hrun⟩

end Machine

-- How many lines there are for a run that ends with the machine `last`: as many as steps, and one
-- more if the last instruction was read but refused. Steps are counted with 64 bits, which a limit
-- never exceeds.
structure Counted (start last : Machine t) (lines : List (Int64 × Instruction t)) : Prop where
  halted : last.status = .halted → UInt64.ofNat lines.length = last.steps
  unread : ∀ fault, last.status = .failed fault →
    (fault.cause = .stepLimit ∨
      ∃ cause, Instruction.decode t start.program fault.offset.toInt = .error cause) →
    UInt64.ofNat lines.length = last.steps
  refused : ∀ fault i size, last.status = .failed fault → fault.cause ≠ .stepLimit →
    Instruction.decode t start.program fault.offset.toInt = .ok (i, size) →
    UInt64.ofNat lines.length = last.steps + 1 ∧ lines.getLast? = some (fault.offset, i) ∧
      let before : Machine t := { last with status := .running }
      Machine.execute i (fault.offset + Int64.ofNat size) before = .error fault.cause before
  bounded : 0 < start.maxSteps → lines.length ≤ start.maxSteps.toNat

theorem Machine.trace_counted {m : Machine t} {n : Nat} (hrun : m.status = .running)
    (hsteps : m.steps = 0) (hrunning : ∀ j < n, (m.after j).status = .running)
    (hstopped : (m.after n).status ≠ .running) : Counted m (m.after n) (m.trace n) := by
  cases hstatus : (m.after n).status with
  | running => exact absurd hstatus hstopped
  | halted =>
    have hticks := ticks_of_halted hrunning hstatus
    constructor
    case halted =>
      intro _
      rw [length_trace hticks, after_steps hticks, hsteps, UInt64.zero_add]
    case unread | refused => simp [hstatus]
    case bounded =>
      intro hlimited
      rw [length_trace hticks]
      exact le_maxSteps hlimited hsteps hticks
  | failed fault =>
    obtain ⟨k, rfl, hticks, hbefore, hwhy⟩ := trace_of_failed hrun hrunning hstatus
    have hlength := length_trace hticks
    have hcount : UInt64.ofNat k = (m.after (k + 1)).steps := by
      have hsame : (m.after k).steps = (m.after (k + 1)).steps := by rw [hbefore]
      rw [← hsame, after_steps hticks, hsteps, UInt64.zero_add]
    obtain ⟨hunread, htrace⟩ | ⟨i, size, hfree, hcause, hdecode, hexecute, htrace⟩ := hwhy
    · constructor
      case halted => simp [hstatus]
      case unread =>
        intro _ _ _
        rw [htrace, hlength, hcount]
      case refused =>
        intro _ _ _ hfault hne hok
        cases hstatus.symm.trans hfault
        obtain heq | ⟨cause, herror⟩ := hunread
        · exact absurd heq hne
        · cases herror.symm.trans hok
      case bounded =>
        intro hlimited
        rw [htrace, hlength]
        exact le_maxSteps hlimited hsteps hticks
    · constructor
      case halted => simp [hstatus]
      case unread =>
        intro _ hfault hunread
        cases hstatus.symm.trans hfault
        obtain heq | ⟨cause, herror⟩ := hunread
        · exact absurd heq hcause
        · cases hdecode.symm.trans herror
      case refused =>
        intro _ _ _ hfault _ hok
        cases hstatus.symm.trans hfault
        cases hdecode.symm.trans hok
        rw [htrace, List.length_append, hlength, UInt64.ofNat_add, hcount, ← hbefore]
        exact ⟨rfl, List.getLast?_concat, hexecute⟩
      case bounded =>
        intro hlimited
        rw [htrace, List.length_append, hlength]
        exact lt_maxSteps hlimited hsteps hticks hfree

-- What a verbose run leaves behind beside the same run without a word, both from `start` on: the
-- same end, and a line for each instruction that a tick has read.
structure Traces (start : Machine t) (quiet loud : Outcome t)
    (lines : List (Int64 × Instruction t)) : Prop where
  stop : loud.stop = quiet.stop
  machine : loud.machine = quiet.machine.speaking true
  silence : quiet.log = []
  log : loud.log = .loaded start.program.size :: lines.map (fun line => .fetched line.1 line.2) ++
    [.finished quiet.machine.status quiet.machine.steps]
  texts : loud.log.map Event.text =
    ("vm: load " ++ Text.decimal start.program.size ++ " bytes") ::
      lines.map (fun line => Text.hex 4 line.1.toInt ++ ": " ++ line.2.text) ++
      ["vm: " ++ quiet.machine.status.text ++ " after " ++
        Text.decimal quiet.machine.steps.toNat ++ " steps"]
  order : ∃ n, (∀ j < n, (start.after j).status = .running) ∧ quiet.machine = start.after n ∧
    lines = start.trace n
  counted : Counted start quiet.machine lines

namespace Machine

-- To write down what it does changes nothing about a run, and what is written down is its trace.
theorem verbose_run_traces (m : Machine t) (program : Array UInt8) (fuel : Nat) :
    ((m.speaking true).run fuel program = none ↔ (m.speaking false).run fuel program = none) ∧
    ∀ quiet, (m.speaking false).run fuel program = some quiet →
      ∃ loud lines, (m.speaking true).run fuel program = some loud ∧
        Traces ((m.speaking false).load program) quiet loud lines := by
  obtain ⟨log, hquiet⟩ := run_speaking m false fuel program
  obtain ⟨log', hloud⟩ := run_speaking m true fuel program
  by_cases hstatus : ((m.load program).after fuel).status = .running
  · rw [hquiet, hloud, if_pos hstatus, if_pos hstatus]
    refine ⟨Iff.rfl, ?_⟩
    intro quiet hrun
    cases hrun
  · rw [if_neg hstatus] at hquiet hloud
    refine ⟨by simp [hquiet, hloud], ?_⟩
    intro quiet hrun
    cases hquiet.symm.trans hrun
    obtain ⟨_, -, -, hsilence, -⟩ := run_ticks hquiet
    obtain ⟨n, hrunning, hmachine, -, hlog⟩ := run_ticks hloud
    have hload : (m.speaking true).load program = ((m.speaking false).load program).speaking true :=
      rfl
    rw [hload, trace_speaking] at hlog
    simp only [hload, after_speaking, speaking_status] at hrunning hmachine
    have hend : ((m.load program).after fuel).speaking false =
        ((m.speaking false).load program).after n := by
      have hquieter := congrArg (·.speaking false) hmachine
      change ((m.load program).after fuel).speaking false =
        (((m.speaking false).load program).after n).speaking false at hquieter
      exact hquieter.trans (after_speaking n _ false).symm
    have hstopped : (((m.speaking false).load program).after n).status ≠ .running := by
      rw [← hend]
      exact hstatus
    refine ⟨_, ((m.speaking false).load program).trace n, hloud, ?_⟩
    constructor
    case stop | machine => rfl
    case silence => exact hsilence rfl
    case log => exact hlog rfl
    case texts =>
      rw [hlog rfl, List.map_append, List.map_cons, List.map_map]
      rfl
    case order => exact ⟨n, hrunning, hend, rfl⟩
    case counted =>
      rw [hend]
      exact trace_counted rfl rfl hrunning hstopped

-- The end of one up and then a return although nothing was called.
def uncalled : Outcome ⟨.one, true⟩ :=
  let fault : Fault := ⟨2, 0x17, 1, .stackUnderflow⟩
  { machine := { sized 1 1 0 with
      registers := ⟨#[1]⟩, flags := ⟨false, false, true⟩, program := #[0x0e, 0, 0x17], pc := 2,
      steps := 1, status := .failed fault }
    stop := some (.fault fault)
    log := [] }

theorem verbose_run_traces_uncalled :
    ((sized 1 1 0).speaking false).run 2 #[0x0e, 0, 0x17] = some uncalled ∧
      ∃ loud lines, ((sized 1 1 0).speaking true).run 2 #[0x0e, 0, 0x17] = some loud ∧
        Traces (((sized 1 1 0).speaking false).load #[0x0e, 0, 0x17]) uncalled loud lines ∧
        UInt64.ofNat lines.length = 2 ∧ lines.getLast? = some (2, ⟨0x17, 0, 0, 0, 0, 0⟩) := by
  have hquiet : ((sized 1 1 0).speaking false).run 2 #[0x0e, 0, 0x17] = some uncalled := by
    decide +kernel
  obtain ⟨loud, lines, hloud, htraces⟩ := (verbose_run_traces _ _ _).2 uncalled hquiet
  obtain ⟨hcount, hlast, -⟩ := htraces.counted.refused ⟨2, 0x17, 1, .stackUnderflow⟩
    ⟨0x17, 0, 0, 0, 0, 0⟩ 1 rfl nofun rfl
  exact ⟨hquiet, loud, lines, hloud, htraces, hcount, hlast⟩

end Machine

end RegisterMachine
