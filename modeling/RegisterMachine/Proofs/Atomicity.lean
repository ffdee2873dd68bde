import RegisterMachine.Proofs.Tick

namespace RegisterMachine

namespace Machine

variable {t : WordType}

-- An instruction that is refused leaves the machine as it was.
theorem execute_error {i : Instruction t} {next : Int64} {m m' : Machine t} {cause : Cause}
    (h : execute i next m = .error cause m') : m' = m := by
  cases hop : Opcode.ofByte? i.code with
  | none =>
    rw [execute_unassigned hop] at h
    cases h
    rfl
  | some op =>
    rw [execute_eq_outcome hop, outcome] at h
    cases hrefusal : m.refusal? op i next with
    | none =>
      rw [hrefusal] at h
      cases h
    | some cause =>
      rw [hrefusal] at h
      cases h
      rfl

-- An instruction that is carried out has an assigned opcode and finds nothing in its way.
theorem execute_ok {i : Instruction t} {next : Int64} {m m' : Machine t}
    (h : execute i next m = .ok () m') :
    ∃ op, Opcode.ofByte? i.code = some op ∧ m.refusal? op i next = none ∧
      m' = m.effect op i next := by
  cases hop : Opcode.ofByte? i.code with
  | none =>
    rw [execute_unassigned hop] at h
    cases h
  | some op =>
    rw [execute_eq_outcome hop, outcome] at h
    cases hrefusal : m.refusal? op i next with
    | none =>
      rw [hrefusal] at h
      cases h
      exact ⟨op, rfl, hrefusal, rfl⟩
    | some cause =>
      rw [hrefusal] at h
      cases h

-- A failed machine only repeats its fault.
theorem fail_after (m : Machine t) (offset : Int64) (code : UInt8) (cause : Cause)
    (log : List (Event t)) (n : Nat) :
    let failed := m.fail offset code cause log
    failed.machine.after n = failed.machine ∧
      (failed.machine.after n).tick = ⟨failed.machine, failed.stop, []⟩ := by
  intro failed
  have htick : failed.machine.tick = ⟨failed.machine, failed.stop, []⟩ := tick_failed rfl
  have hstay : failed.machine.after n = failed.machine := after_of_tick_machine (by rw [htick]) n
  exact ⟨hstay, by rw [hstay, htick]⟩

-- Faults are atomic: a refused instruction changes nothing, and a tick that fails changes only the
-- run state. The machine has then stopped for good.
theorem fault_atomicity (m : Machine t) :
    (∀ (i : Instruction t) (next : Int64) (cause : Cause) (m' : Machine t),
      execute i next m = .error cause m' → m' = m) ∧
    (m.status = .running → ∀ stop, m.tick.stop = some stop →
      ∃ fault : Fault, stop = .fault fault ∧ fault.offset = m.pc ∧ fault.steps = m.steps ∧
        m.tick.machine = { m with status := .failed fault } ∧
        ∀ n, m.tick.machine.after n = m.tick.machine ∧
          (m.tick.machine.after n).tick = ⟨m.tick.machine, some stop, []⟩) := by
  refine ⟨fun i next cause m' h => execute_error h, ?_⟩
  intro hrun stop hstop
  obtain ⟨code, cause, log, hfail⟩ | ⟨op, i, -, -, -, -, htick⟩ := tick_cases hrun
  · have hafter := fail_after m m.pc code cause log
    rw [hfail] at hstop ⊢
    cases hstop
    exact ⟨_, rfl, rfl, rfl, rfl, hafter⟩
  · rw [htick] at hstop
    cases hstop

-- About to divide by a register that holds zero, with something in every other part.
def dividing : Machine ⟨.one, true⟩ where
  registers := ⟨#[7, 9, 0]⟩
  flags := ⟨false, false, true⟩
  stack := ⟨#[5], 2⟩
  memory := ⟨#[1]⟩
  program := #[0x0c, 0, 1, 2]
  pc := 0
  steps := 3
  status := .running
  maxSteps := 0
  verbose := true

theorem fault_atomicity_dividing :
    (∃ m', execute ⟨0x0c, 0, 1, 2, 0, 0⟩ 4 dividing = .error .divisionByZero m' ∧ m' = dividing) ∧
      dividing.tick.stop = some (.fault ⟨0, 0x0c, 3, .divisionByZero⟩) ∧
      dividing.after 5 = { dividing with status := .failed ⟨0, 0x0c, 3, .divisionByZero⟩ } := by
  have hexecute : execute ⟨0x0c, 0, 1, 2, 0, 0⟩ 4 dividing = .error .divisionByZero dividing := by
    rfl
  have hstop : dividing.tick.stop = some (.fault ⟨0, 0x0c, 3, .divisionByZero⟩) := by
    decide +kernel
  obtain ⟨fault, hfault, -, -, hmachine, hafter⟩ := (fault_atomicity dividing).2 rfl _ hstop
  cases hfault
  refine ⟨⟨_, hexecute, (fault_atomicity dividing).1 _ _ _ _ hexecute⟩, hstop, ?_⟩
  exact (hafter 4).1.trans hmachine

end Machine

end RegisterMachine
