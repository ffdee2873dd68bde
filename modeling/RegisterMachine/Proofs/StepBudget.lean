import RegisterMachine.Proofs.WholeRun

namespace RegisterMachine

variable {t : WordType}

namespace Machine

def budgeted (m : Machine t) (budget : UInt64) : Machine t := { m with maxSteps := budget }

theorem effect_budgeted (op : Opcode) (i : Instruction t) (next : Int64) (m : Machine t)
    (budget : UInt64) :
    (m.budgeted budget).effect op i next = (m.effect op i next).budgeted budget := by
  cases op <;> rfl

theorem effect_maxSteps (op : Opcode) (i : Instruction t) (next : Int64) (m : Machine t) :
    (m.effect op i next).maxSteps = m.maxSteps := by
  cases op <;> rfl

theorem limitReached_of_unlimited {m : Machine t} (h : m.maxSteps = 0) :
    m.limitReached = false := by
  simp [limitReached, h]

theorem limitReached_budgeted {m : Machine t} {budget : UInt64} (hbudget : 0 < budget) :
    (m.budgeted budget).limitReached = true ↔ budget ≤ m.steps := by
  change (decide (0 < budget) && decide (budget ≤ m.steps)) = true ↔ budget ≤ m.steps
  simp [hbudget]

-- A limit that is not reached yet is not noticed.
theorem tick_budgeted {m : Machine t} {budget : UInt64} (hfree : m.maxSteps = 0)
    (hlimit : (m.budgeted budget).limitReached = false) :
    m.tick.machine.maxSteps = 0 ∧
      (m.budgeted budget).tick.machine = m.tick.machine.budgeted budget := by
  have hverdict : (m.budgeted budget).verdict = m.verdict := by
    unfold verdict
    rw [hlimit, limitReached_of_unlimited hfree]
    rfl
  refine (tick_related (R := fun a b => a.maxSteps = 0 ∧ b = a.budgeted budget)
    ⟨hfree, rfl⟩ rfl rfl rfl ?_ ?_).1
  · exact fun code cause _ h => ⟨hverdict.trans h, fun fault => ⟨hfree, rfl⟩⟩
  · intro op i _ h
    refine ⟨i, hverdict.trans h, ?_, ?_⟩
    · exact (effect_maxSteps op i _ m).trans hfree
    · rw [complete, complete, effect_budgeted]
      rfl

theorem tick_steps_le (m : Machine t) : m.tick.machine.steps.toNat ≤ m.steps.toNat + 1 := by
  cases hstatus : m.status with
  | halted =>
    rw [tick_halted hstatus]
    exact Nat.le_succ _
  | failed fault =>
    rw [tick_failed hstatus]
    exact Nat.le_succ _
  | running =>
    obtain ⟨code, cause, log, htick⟩ | ⟨op, i, -, -, -, -, htick⟩ := tick_cases hstatus
    · rw [htick]
      exact Nat.le_succ _
    · rw [htick, complete, UInt64.toNat_add]
      exact Nat.mod_le _ _

theorem after_steps_le (n : Nat) (m : Machine t) :
    (m.after n).steps.toNat ≤ m.steps.toNat + n := by
  induction n with
  | zero => exact Nat.le_refl _
  | succ n ih =>
    have hstep := tick_steps_le (m.after n)
    rw [after_succ_eq_tick]
    omega

theorem after_steps {m : Machine t} {n : Nat} (hticks : ∀ j < n, (m.after j).tick.stop = none) :
    (m.after n).steps = m.steps + UInt64.ofNat n := by
  induction n with
  | zero => exact (UInt64.add_zero _).symm
  | succ n ih =>
    obtain ⟨op, i, -, -, -, -, htick⟩ := tick_success (hticks n (by omega))
    rw [after_succ_eq_tick, htick, complete]
    simp only
    rw [ih fun j hj => hticks j (by omega), UInt64.ofNat_add, UInt64.add_assoc]
    rfl

-- Until its budget is used up, a machine runs as one without a limit does.
theorem after_budgeted {m : Machine t} {budget : UInt64} {n : Nat} (hbudget : 0 < budget)
    (hfree : m.maxSteps = 0) (hsteps : m.steps = 0) (hn : n ≤ budget.toNat) :
    (m.budgeted budget).after n = (m.after n).budgeted budget := by
  have hstep (a b : Machine t) (h : a.maxSteps = 0 ∧ b = a.budgeted budget)
      (hlimit : (a.budgeted budget).limitReached = false) :
      a.tick.machine.maxSteps = 0 ∧ b.tick.machine = a.tick.machine.budgeted budget := by
    obtain ⟨hfree, rfl⟩ := h
    exact tick_budgeted hfree hlimit
  refine (after_related hstep (n := n) ⟨hfree, rfl⟩ ?_).2
  -- A tick counts one instruction at most, so fewer ticks than the budget cannot use it up.
  intro j hj
  have hle := after_steps_le j m
  rw [hsteps, UInt64.toNat_zero] at hle
  rw [← Bool.not_eq_true, limitReached_budgeted hbudget, UInt64.le_iff_toNat_le]
  omega

theorem after_budget_steps {m : Machine t} {budget : UInt64} (hsteps : m.steps = 0)
    (hstatus : (m.after budget.toNat).status = .running) :
    (m.after budget.toNat).steps = budget := by
  rw [after_steps fun j hj => tick_stop_of_after_running hstatus hj, hsteps, UInt64.zero_add,
    UInt64.ofNat_toNat]

def cutOff (m : Machine t) (budget : UInt64) : Machine t :=
  { m with maxSteps := budget, status := .failed ⟨m.pc, 0, budget, .stepLimit⟩ }

-- One tick more than the budget allows brings every run to its end.
theorem after_budget_end {m : Machine t} {budget : UInt64} (hbudget : 0 < budget)
    (hfree : m.maxSteps = 0) (hsteps : m.steps = 0) :
    (m.budgeted budget).after (budget.toNat + 1) =
      if (m.after budget.toNat).status = .running then (m.after budget.toNat).cutOff budget
      else (m.after budget.toNat).budgeted budget := by
  rw [after_succ_eq_tick, after_budgeted hbudget hfree hsteps (Nat.le_refl _)]
  split_ifs with hstatus
  · have hcount := after_budget_steps hsteps hstatus
    have hlimit : ((m.after budget.toNat).budgeted budget).limitReached = true :=
      (limitReached_budgeted hbudget).mpr (UInt64.le_of_eq hcount.symm)
    have hstatus' : ((m.after budget.toNat).budgeted budget).status = .running := hstatus
    rw [tick_limitReached hstatus' hlimit, fail, cutOff]
    simp only [budgeted, hcount]
  · exact tick_of_stopped hstatus

-- How many instructions a machine completes within so many ticks.
def completed : Nat → Machine t → Nat
  | 0, _ => 0
  | fuel + 1, m => if m.tick.stop = none then completed fuel m.tick.machine + 1 else 0

theorem tick_stop_of_lt_completed {m : Machine t} {fuel j : Nat} (h : j < m.completed fuel) :
    (m.after j).tick.stop = none := by
  induction fuel generalizing m j with
  | zero => exact absurd h (Nat.not_lt_zero j)
  | succ fuel ih =>
    rw [completed] at h
    split_ifs at h with hstop
    · cases j with
      | zero => exact hstop
      | succ j => exact ih (m := m.tick.machine) (by omega)
    · exact absurd h (Nat.not_lt_zero j)

theorem tick_of_stop_ne_none {m : Machine t} (h : m.tick.stop ≠ none) :
    (∃ fault, m.tick.machine.status = .failed fault) ∨ m.status ≠ .running := by
  by_cases hrun : m.status = .running
  · rw [tick_stop_of_running hrun] at h
    cases hstatus : m.tick.machine.status with
    | running | halted =>
      rw [hstatus] at h
      exact absurd rfl h
    | failed fault => exact .inl ⟨fault, rfl⟩
  · exact .inr hrun

-- A machine that halts has done so with the last instruction that it completed.
theorem after_completed_of_halted {m : Machine t} {fuel : Nat}
    (h : (m.after fuel).status = .halted) : m.after (m.completed fuel) = m.after fuel := by
  induction fuel generalizing m with
  | zero => rfl
  | succ fuel ih =>
    rw [completed]
    split_ifs with hstop
    · exact ih h
    · obtain ⟨fault, hfailed⟩ | hstopped := tick_of_stop_ne_none hstop
      · rw [after_succ, after_of_stopped (by simp [hfailed]), hfailed] at h
        cases h
      · rw [after_of_stopped hstopped, after_of_stopped hstopped]

-- A machine that fails has done so one tick after the last instruction that it completed.
theorem after_completed_of_failed {m : Machine t} {fuel : Nat} {fault : Fault}
    (hrun : m.status = .running) (h : (m.after fuel).status = .failed fault) :
    (m.after (m.completed fuel)).status = .running ∧
      m.after (m.completed fuel + 1) = m.after fuel := by
  induction fuel generalizing m with
  | zero =>
    rw [after_zero, hrun] at h
    cases h
  | succ fuel ih =>
    rw [completed]
    split_ifs with hstop
    · -- A machine that had halted here would not have failed in the end.
      have hrunning : m.tick.machine.status = .running := by
        by_contra hhalted
        rw [after_succ, after_of_stopped hhalted] at h
        rw [tick_stop_of_running hrun, h] at hstop
        cases hstop
      exact ih hrunning h
    · obtain ⟨fault, hfailed⟩ | hstopped := tick_of_stop_ne_none hstop
      · refine ⟨hrun, ?_⟩
        rw [after_succ, after_succ, after_zero, after_of_stopped (by simp [hfailed])]
      · exact absurd hrun hstopped

theorem running_of_lt_completed {m : Machine t} {fuel j : Nat} (h : j < m.completed fuel) :
    (m.after j).status = .running := by
  obtain ⟨-, -, hrunning, -⟩ := tick_success (tick_stop_of_lt_completed h)
  exact hrunning

theorem after_of_halted {m : Machine t} {fuel : Nat} (h : (m.after fuel).status = .halted)
    (n : Nat) :
    (m.completed fuel ≤ n → m.after n = m.after fuel) ∧
      (n < m.completed fuel → (m.after n).status = .running) := by
  refine ⟨fun hn => ?_, running_of_lt_completed⟩
  have hend := after_completed_of_halted h
  rw [← hend]
  exact after_eq_of_stopped (by simp [hend, h]) hn

theorem after_of_failed {m : Machine t} {fuel : Nat} {fault : Fault} (hrun : m.status = .running)
    (h : (m.after fuel).status = .failed fault) (n : Nat) :
    (m.completed fuel < n → m.after n = m.after fuel) ∧
      (n ≤ m.completed fuel → (m.after n).status = .running) := by
  obtain ⟨hrunning, hend⟩ := after_completed_of_failed hrun h
  constructor
  · intro hn
    rw [← hend]
    exact after_eq_of_stopped (by simp [hend, h]) hn
  · intro hn
    obtain hlt | rfl := Nat.lt_or_eq_of_le hn
    · exact running_of_lt_completed hlt
    · exact hrunning

-- A run was cut off by its limit: it ends on the machine that a run without a limit has after as
-- many ticks, and that machine has completed an instruction in each of them.
def IsCutOff (result : Outcome t) (free : Machine t) (budget : UInt64) : Prop :=
  result.stop = some (.fault ⟨(free.after budget.toNat).pc, 0, budget, .stepLimit⟩) ∧
    result.machine = (free.after budget.toNat).cutOff budget ∧ result.machine.steps = budget

theorem run_budgeted (m : Machine t) (program : Array UInt8) {budget : UInt64}
    (hbudget : 0 < budget) :
    let free := (m.budgeted 0).load program
    ∃ result, (m.budgeted budget).run (budget.toNat + 1) program = some result ∧
      ((free.after budget.toNat).status = .running → IsCutOff result free budget) ∧
      ((free.after budget.toNat).status ≠ .running →
        result.machine = (free.after budget.toNat).budgeted budget ∧
        result.stop = (free.after budget.toNat).status.failure?) := by
  intro free
  have hload : (m.budgeted budget).load program = free.budgeted budget := rfl
  have hend := after_budget_end (m := free) hbudget rfl rfl
  obtain ⟨log, hrun⟩ := run_eq (budget.toNat + 1) (m.budgeted budget) program
  rw [hload, hend] at hrun
  by_cases hstatus : (free.after budget.toNat).status = .running
  · have hcount := after_budget_steps (m := free) rfl hstatus
    have hfailed : ((free.after budget.toNat).cutOff budget).status ≠ .running := nofun
    simp only [if_pos hstatus, if_neg hfailed] at hrun
    exact ⟨_, hrun, fun _ => ⟨rfl, rfl, hcount⟩, fun hstopped => absurd hstatus hstopped⟩
  · have hstopped : ((free.after budget.toNat).budgeted budget).status ≠ .running := hstatus
    simp only [if_neg hstatus, if_neg hstopped] at hrun
    exact ⟨_, hrun, fun hrunning => absurd hrunning hstatus, fun _ => ⟨rfl, rfl⟩⟩

-- A step limit only cuts runs short: within the limit a run is the unlimited one to its end, and
-- beyond it stops where the unlimited run is by then. The instruction that halts the machine
-- counts, the one that fails does not.
theorem budget_only_cuts_short (m : Machine t) (program : Array UInt8) (budget : UInt64)
    (hbudget : 0 < budget) :
    let free := (m.budgeted 0).load program
    ∃ result, (∀ fuel > budget.toNat, (m.budgeted budget).run fuel program = some result) ∧
      result.machine.steps ≤ budget ∧
      (∀ fuel full, (m.budgeted 0).run fuel program = some full →
        (full.stop = none →
          (free.completed fuel ≤ budget.toNat →
            result.stop = none ∧ result.machine = full.machine.budgeted budget) ∧
          (budget.toNat < free.completed fuel → IsCutOff result free budget)) ∧
        (∀ fault, full.stop = some (.fault fault) →
          (free.completed fuel < budget.toNat →
            result.stop = some (.fault fault) ∧ result.machine = full.machine.budgeted budget) ∧
          (budget.toNat ≤ free.completed fuel → IsCutOff result free budget))) ∧
      ((∀ fuel, (m.budgeted 0).run fuel program = none) → IsCutOff result free budget) := by
  intro free
  obtain ⟨result, hresult, hcut, hwhole⟩ := run_budgeted m program hbudget
  refine ⟨result, fun fuel hfuel => run_mono hresult hfuel, ?_, ?_, ?_⟩
  · by_cases hstatus : (free.after budget.toNat).status = .running
    · exact UInt64.le_of_eq (hcut hstatus).2.2
    · rw [(hwhole hstatus).1, UInt64.le_iff_toNat_le]
      have hle := after_steps_le budget.toNat free
      rwa [show free.steps.toNat = 0 from rfl, Nat.zero_add] at hle
  · intro fuel full hfull
    obtain ⟨hstopped, hmachine, hstop⟩ := run_spec hfull
    rw [hstop, hmachine]
    cases hstatus : (free.after fuel).status with
    | running => exact absurd hstatus hstopped
    | halted =>
      obtain ⟨hwithin, hbeyond⟩ := after_of_halted hstatus budget.toNat
      refine ⟨fun _ => ⟨fun hle => ?_, fun hlt => hcut (hbeyond hlt)⟩, fun fault h => nomatch h⟩
      rw [hwithin hle, hstatus] at hwhole
      exact (hwhole (by simp)).symm
    | failed fault =>
      obtain ⟨hwithin, hbeyond⟩ := after_of_failed rfl hstatus budget.toNat
      refine ⟨fun h => (nomatch h), fun fault' h => ?_⟩
      cases h
      refine ⟨fun hlt => ?_, fun hle => hcut (hbeyond hle)⟩
      rw [hwithin hlt, hstatus] at hwhole
      exact (hwhole (by simp)).symm
  · intro hnever
    apply hcut
    by_contra hstatus
    obtain ⟨log, hrun⟩ := run_eq budget.toNat (m.budgeted 0) program
    rw [if_neg hstatus, hnever] at hrun
    cases hrun

def rootless : Machine ⟨.two, false⟩ where
  registers := ⟨#[0]⟩
  flags := .clear
  stack := ⟨#[], 1⟩
  memory := ⟨#[]⟩
  program := #[]
  pc := 0
  steps := 0
  status := .halted
  maxSteps := 0
  verbose := false

-- The return fails after one instruction: a limit of two lets it, a limit of one does not.
theorem budget_only_cuts_short_rootless :
    (∃ result, (rootless.budgeted 1).run 2 #[0x00, 0x17] = some result ∧
      result.stop = some (.fault ⟨1, 0, 1, .stepLimit⟩)) ∧
    ∃ result, (rootless.budgeted 2).run 3 #[0x00, 0x17] = some result ∧
      result.stop = some (.fault ⟨1, 0x17, 1, .stackUnderflow⟩) := by
  have hcompleted : ((rootless.budgeted 0).load #[0x00, 0x17]).completed 2 = 1 := by decide +kernel
  constructor
  · obtain ⟨result, hresult, -, hends, -⟩ :=
      budget_only_cuts_short rootless #[0x00, 0x17] 1 (by decide)
    obtain ⟨hstop, -⟩ := ((hends 2 _ rfl).2 _ rfl).2 (Nat.le_of_eq hcompleted.symm)
    exact ⟨result, hresult 2 (by decide), hstop⟩
  · obtain ⟨result, hresult, -, hends, -⟩ :=
      budget_only_cuts_short rootless #[0x00, 0x17] 2 (by decide)
    obtain ⟨hstop, -⟩ := ((hends 2 _ rfl).2 _ rfl).1 (by rw [hcompleted]; decide)
    exact ⟨result, hresult 3 (by decide), hstop⟩

end Machine

end RegisterMachine
