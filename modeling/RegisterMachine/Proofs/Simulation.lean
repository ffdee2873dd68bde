import RegisterMachine.Proofs.Tick

namespace RegisterMachine

namespace Machine

variable {t t' : WordType} {R : Machine t → Machine t' → Prop}

-- A relation is kept by a tick on both sides if the two verdicts on a running machine agree and the
-- relation survives what they lead to. The word types may differ, so the instructions may too.
theorem tick_related {a : Machine t} {b : Machine t'} (h : R a b)
    (hstatus : b.status = a.status) (hpc : b.pc = a.pc) (hsteps : b.steps = a.steps)
    (hfail : ∀ code cause, a.status = .running → a.verdict = .error (code, cause) →
      b.verdict = .error (code, cause) ∧
        ∀ fault, R { a with status := .failed fault } { b with status := .failed fault })
    (hcomplete : ∀ op i, a.status = .running → a.verdict = .ok (op, i) →
      ∃ i', b.verdict = .ok (op, i') ∧ R (a.complete op i) (b.complete op i')) :
    R a.tick.machine b.tick.machine ∧ b.tick.stop = a.tick.stop := by
  cases ha : a.status with
  | halted =>
    rw [tick_halted ha, tick_halted (hstatus.trans ha)]
    exact ⟨h, rfl⟩
  | failed fault =>
    rw [tick_failed ha, tick_failed (hstatus.trans ha)]
    exact ⟨h, rfl⟩
  | running =>
    have hb : b.status = .running := hstatus.trans ha
    cases hverdict : a.verdict with
    | error failure =>
      obtain ⟨code, cause⟩ := failure
      obtain ⟨hverdict', hfailed⟩ := hfail code cause ha hverdict
      obtain ⟨log, htick⟩ := tick_of_verdict_error ha hverdict
      obtain ⟨log', htick'⟩ := tick_of_verdict_error hb hverdict'
      have hfault : (⟨b.pc, code, b.steps, cause⟩ : Fault) = ⟨a.pc, code, a.steps, cause⟩ := by
        rw [hpc, hsteps]
      rw [htick, htick']
      simp only [fail, hfault, and_true]
      exact hfailed _
    | ok read =>
      obtain ⟨op, i⟩ := read
      obtain ⟨i', hverdict', hcompleted⟩ := hcomplete op i ha hverdict
      rw [tick_of_verdict_ok ha hverdict, tick_of_verdict_ok hb hverdict']
      exact ⟨hcompleted, rfl⟩

-- What one tick keeps under a condition on the first machine, a run keeps while the condition
-- holds.
theorem after_related {P : Machine t → Prop}
    (hstep : ∀ a b, R a b → P a → R a.tick.machine b.tick.machine)
    {a : Machine t} {b : Machine t'} {n : Nat} (h : R a b) (hP : ∀ j < n, P (a.after j)) :
    R (a.after n) (b.after n) := by
  induction n with
  | zero => exact h
  | succ n ih =>
    have hrelated := ih fun j hj => hP j (by omega)
    rw [after_succ_eq_tick, after_succ_eq_tick]
    exact hstep _ _ hrelated (hP n (by omega))

-- What neither a failure nor a completed instruction changes stays as it is.
theorem after_unchanged {α : Type} (view : Machine t → α)
    (hfail : ∀ m status, view { m with status } = view m)
    (hcomplete : ∀ m op i, view (m.complete op i) = view m) (n : Nat) (m : Machine t) :
    view (m.after n) = view m := by
  induction n with
  | zero => rfl
  | succ n ih =>
    rw [after_succ_eq_tick, ← ih]
    cases hstatus : (m.after n).status with
    | halted => rw [tick_halted hstatus]
    | failed fault => rw [tick_failed hstatus]
    | running =>
      obtain ⟨code, cause, log, htick⟩ | ⟨op, i, -, -, -, -, htick⟩ := tick_cases hstatus
      · rw [htick]
        exact hfail _ _
      · rw [htick]
        exact hcomplete _ op i

theorem after_program (n : Nat) (m : Machine t) : (m.after n).program = m.program :=
  after_unchanged (·.program) (fun _ _ => rfl) (fun _ op _ => by cases op <;> rfl) n m

end Machine

end RegisterMachine
