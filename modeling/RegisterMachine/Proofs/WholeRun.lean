import RegisterMachine.Proofs.Simulation

namespace RegisterMachine

variable {t : WordType}

-- What a run answers whose machine ends like this: nothing unless it failed.
def Status.failure? : Status → Option Stop
  | .failed fault => some (.fault fault)
  | .running | .halted => none

namespace Machine

-- The same machine, verbose or not.
def speaking (m : Machine t) (verbose : Bool) : Machine t := { m with verbose }

@[simp]
theorem speaking_status (m : Machine t) (verbose : Bool) :
    (m.speaking verbose).status = m.status := rfl

@[simp]
theorem speaking_self (m : Machine t) : m.speaking m.verbose = m := rfl

theorem effect_speaking (op : Opcode) (i : Instruction t) (next : Int64) (m : Machine t)
    (verbose : Bool) :
    (m.speaking verbose).effect op i next = (m.effect op i next).speaking verbose := by
  cases op <;> rfl

-- Verbosity decides only what is written down.
theorem tick_speaking (m : Machine t) (verbose : Bool) :
    (m.speaking verbose).tick.machine = m.tick.machine.speaking verbose ∧
      (m.speaking verbose).tick.stop = m.tick.stop := by
  refine tick_related (R := fun a b => b = a.speaking verbose) rfl rfl rfl rfl ?_ ?_
  · exact fun code cause _ h => ⟨h, fun fault => rfl⟩
  · intro op i _ h
    refine ⟨i, h, ?_⟩
    rw [complete, complete, effect_speaking]
    rfl

theorem after_speaking (n : Nat) (m : Machine t) (verbose : Bool) :
    (m.speaking verbose).after n = (m.after n).speaking verbose := by
  induction n generalizing m with
  | zero => rfl
  | succ n ih => rw [after_succ, after_succ, (tick_speaking m verbose).1, ih]

-- A stopped machine is done with its program.
theorem tick_of_stopped {m : Machine t} (h : m.status ≠ .running) : m.tick.machine = m := by
  cases hstatus : m.status with
  | running => exact absurd hstatus h
  | halted => rw [tick_halted hstatus]
  | failed fault => rw [tick_failed hstatus]

theorem after_of_stopped {m : Machine t} (h : m.status ≠ .running) (n : Nat) : m.after n = m :=
  after_of_tick_machine (tick_of_stopped h) n

-- Whatever number of ticks a stopped machine has been given, it is the same machine.
theorem after_eq_of_stopped {m : Machine t} {a b : Nat} (ha : (m.after a).status ≠ .running)
    (h : a ≤ b) : m.after b = m.after a := by
  obtain ⟨k, rfl⟩ := Nat.exists_eq_add_of_le h
  rw [after_add, after_of_stopped ha]

theorem effect_status (op : Opcode) (i : Instruction t) (next : Int64) (m : Machine t) :
    (m.effect op i next).status = m.status ∨ (m.effect op i next).status = .halted := by
  cases op
  case hlt => exact .inr rfl
  all_goals exact .inl rfl

-- The answer of a running machine's tick can be told from the run state that it leaves.
theorem tick_stop_of_running {m : Machine t} (h : m.status = .running) :
    m.tick.stop = m.tick.machine.status.failure? := by
  obtain ⟨code, cause, log, hfail⟩ | ⟨op, i, -, -, -, -, htick⟩ := tick_cases h
  · rw [hfail]
    rfl
  · rw [htick]
    change none = (m.effect op i (m.following op)).status.failure?
    obtain hsame | hhalted := effect_status op i (m.following op) m
    · rw [hsame, h]
      rfl
    · rw [hhalted]
      rfl

-- If the machine still runs in the end, every tick on the way has succeeded.
theorem tick_stop_of_after_running {m : Machine t} {n : Nat} (h : (m.after n).status = .running)
    {j : Nat} (hj : j < n) : (m.after j).tick.stop = none := by
  have hrunning : ∀ k ≤ n, (m.after k).status = .running := by
    intro k hk
    by_contra hstopped
    rw [after_eq_of_stopped hstopped hk] at h
    exact hstopped h
  rw [tick_stop_of_running (hrunning j (by omega)), ← after_succ_eq_tick,
    hrunning (j + 1) (by omega)]
  rfl

-- A tick that fails on the way is the last one, so that its cause is the one that the run ends with.
theorem failed_of_verdict_error {m : Machine t} {n j : Nat} {code : UInt8} {cause : Cause}
    (hj : j < n) (hrun : (m.after j).status = .running)
    (hverdict : (m.after j).verdict = .error (code, cause)) :
    ∃ fault, (m.after n).status = .failed fault ∧ fault.cause = cause := by
  obtain ⟨log, htick⟩ := tick_of_verdict_error hrun hverdict
  have hfailed : (m.after (j + 1)).status =
      .failed ⟨(m.after j).pc, code, (m.after j).steps, cause⟩ := by
    rw [after_succ_eq_tick, htick]
    rfl
  have hend : m.after n = m.after (j + 1) := after_eq_of_stopped (by simp [hfailed]) hj
  rw [hend]
  exact ⟨_, hfailed, rfl⟩

-- A run of a running machine ends if and only if so many ticks stop the machine; what it answers is
-- told by the run state.
theorem runOn_spec (fuel : Nat) (m : Machine t) (log : Array (Event t))
    (h : m.status = .running) :
    ∃ log', runOn fuel m log =
      if (m.after fuel).status = .running then none
      else some ⟨m.after fuel, (m.after fuel).status.failure?, log'⟩ := by
  induction fuel generalizing m log with
  | zero =>
    refine ⟨[], ?_⟩
    rw [after_zero, if_pos h, runOn]
    simp only [h]
  | succ fuel ih =>
    have hstop := tick_stop_of_running h
    cases hstatus : m.tick.machine.status with
    | running =>
      obtain ⟨log', hrest⟩ := ih m.tick.machine (log ++ m.tick.log) hstatus
      rw [hstatus, Status.failure?] at hstop
      refine ⟨log', ?_⟩
      rw [after_succ, ← hrest, runOn]
      simp only [h, hstop]
    | halted =>
      have hstopped : m.tick.machine.status ≠ .running := by simp [hstatus]
      rw [hstatus, Status.failure?] at hstop
      refine ⟨(log ++ m.tick.log).toList, ?_⟩
      rw [after_succ, after_of_stopped hstopped, if_neg hstopped, runOn]
      simp only [h, hstop]
      unfold runOn
      simp only [hstatus, Status.failure?]
    | failed fault =>
      have hstopped : m.tick.machine.status ≠ .running := by simp [hstatus]
      rw [hstatus, Status.failure?] at hstop
      refine ⟨(log ++ m.tick.log).toList, ?_⟩
      rw [after_succ, after_of_stopped hstopped, if_neg hstopped, runOn]
      simp only [h, hstop, hstatus, Status.failure?]

-- A run ends if and only if so many ticks of the loaded machine stop it.
theorem run_eq (fuel : Nat) (m : Machine t) (program : Array UInt8) :
    ∃ log, m.run fuel program =
      if ((m.load program).after fuel).status = .running then none
      else some ⟨(m.load program).after fuel,
        ((m.load program).after fuel).status.failure?, log⟩ := by
  obtain ⟨log, hrun⟩ := runOn_spec fuel (m.load program)
    (m.say (.loaded program.size)).toArray rfl
  rw [run, hrun]
  by_cases hstatus : ((m.load program).after fuel).status = .running
  · simp only [if_pos hstatus]
    exact ⟨[], rfl⟩
  · simp only [if_neg hstatus]
    exact ⟨_, rfl⟩

theorem run_spec {fuel : Nat} {m : Machine t} {program : Array UInt8} {result : Outcome t}
    (h : m.run fuel program = some result) :
    ((m.load program).after fuel).status ≠ .running ∧
      result.machine = (m.load program).after fuel ∧
      result.stop = ((m.load program).after fuel).status.failure? := by
  obtain ⟨log, hrun⟩ := run_eq fuel m program
  rw [hrun] at h
  split_ifs at h with hstatus
  cases h
  exact ⟨hstatus, rfl, rfl⟩

-- More ticks than a run needs change nothing about it.
theorem runOn_mono {fuel fuel' : Nat} {m : Machine t} {log : Array (Event t)} {result : Outcome t}
    (h : runOn fuel m log = some result) (hle : fuel ≤ fuel') :
    runOn fuel' m log = some result := by
  induction fuel generalizing fuel' m log with
  | zero =>
    unfold runOn at h ⊢
    cases hstatus : m.status with
    | running =>
      rw [hstatus] at h
      cases h
    | halted | failed =>
      rw [hstatus] at h
      exact h
  | succ fuel ih =>
    obtain ⟨more, rfl⟩ : ∃ more, fuel' = more + 1 := ⟨fuel' - 1, by omega⟩
    unfold runOn at h ⊢
    cases hstatus : m.status with
    | running =>
      simp only [hstatus] at h ⊢
      cases hstop : m.tick.stop with
      | none =>
        simp only [hstop] at h ⊢
        exact ih h (by omega)
      | some stop =>
        simp only [hstop] at h ⊢
        exact h
    | halted | failed =>
      rw [hstatus] at h
      exact h

theorem run_mono {fuel fuel' : Nat} {m : Machine t} {program : Array UInt8} {result : Outcome t}
    (h : m.run fuel program = some result) (hle : fuel ≤ fuel') :
    m.run fuel' program = some result := by
  rw [run, Option.bind_eq_bind, Option.bind_eq_some_iff] at h ⊢
  obtain ⟨ended, hended, hresult⟩ := h
  exact ⟨ended, runOn_mono hended hle, hresult⟩

end Machine

end RegisterMachine
