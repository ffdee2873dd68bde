import RegisterMachine.Proofs.Codec
import RegisterMachine.Proofs.Resources

namespace RegisterMachine

variable {t : WordType}

-- The one cause that a longer program might not have met.
def Cause.isTruncation : Cause → Bool
  | .truncated _ _ _ => true
  | _ => false

namespace Instruction

-- What is read lies inside the program, so that bytes behind it can only complete what was cut off.
theorem decode_append {program : Array UInt8} {pc : Int}
    (h : ∀ cause, decode t program pc = .error cause → cause.isTruncation = false)
    (more : Array UInt8) : decode t (program ++ more) pc = decode t program pc := by
  by_cases hout : pc < 0 ∨ program.size ≤ pc
  · have hnot := h _ (decode_of_outside hout)
    cases hnot
  · have hlt : pc.toNat < program.size := by omega
    have hsize : (program ++ more).size = program.size + more.size := Array.size_append
    have hinside : ¬(pc < 0 ∨ (program ++ more).size ≤ pc) := by omega
    have hbyte : (program ++ more).getD pc.toNat 0 = program.getD pc.toNat 0 := by
      simp only [Array.getD_eq_getD_getElem?, Array.getElem?_append_left hlt]
    have hread := decode_of_inside (t := t) hout
    rw [hread, decode_of_inside hinside, hbyte]
    cases hop : Opcode.ofByte? (program.getD pc.toNat 0) with
    | none => rfl
    | some op =>
      simp only [hop] at hread
      have hwhole : ¬program.size - pc.toNat < op.size t.bytes := by
        intro hshort
        rw [if_pos hshort] at hread
        have hnot := h _ hread
        cases hnot
      have hwhole' : ¬(program ++ more).size - pc.toNat < op.size t.bytes := by omega
      have hbytes : (program ++ more).extract (pc.toNat + 1) (pc.toNat + op.size t.bytes) =
          program.extract (pc.toNat + 1) (pc.toNat + op.size t.bytes) := by
        have hnone : pc.toNat + op.size t.bytes - program.size = 0 := by omega
        rw [Array.extract_append, hnone]
        simp
      simp only [if_neg hwhole, if_neg hwhole', hbytes]

end Instruction

namespace Machine

def lengthened (m : Machine t) (more : Array UInt8) : Machine t :=
  { m with program := m.program ++ more }

-- The next tick does not find its instruction cut off.
def FetchesWhole (m : Machine t) : Prop :=
  ∀ code cause, m.status = .running → m.verdict = .error (code, cause) → cause.isTruncation = false

theorem nextCode_lengthened {m : Machine t} (hlt : m.pc.toInt.toNat < m.program.size)
    (more : Array UInt8) : (m.lengthened more).nextCode = m.nextCode := by
  simp only [nextCode, lengthened, Array.getElem?_append_left hlt]

theorem verdict_lengthened {m : Machine t} (hrun : m.status = .running) (h : m.FetchesWhole)
    (more : Array UInt8) : (m.lengthened more).verdict = m.verdict := by
  obtain hlimit | ⟨hlimit, cause, hdecode⟩ | ⟨hlimit, op, i, hdecode, hop⟩ := m.fetch_cases
  · rw [verdict_limitReached hlimit, verdict_limitReached (m := m.lengthened more) hlimit]
  · have hverdict := verdict_decode_error hlimit hdecode
    have hcause : cause.isTruncation = false := h _ _ hrun hverdict
    have hsame : Instruction.decode t (m.program ++ more) m.pc.toInt = .error cause := by
      rw [Instruction.decode_append _ more, hdecode]
      intro found hfound
      rw [hdecode] at hfound
      cases hfound
      exact hcause
    have hinside : ¬(m.pc.toInt < 0 ∨ m.program.size ≤ m.pc.toInt) := by
      intro hout
      rw [decode_of_outside hout] at hdecode
      cases hdecode
      cases hcause
    rw [hverdict, verdict_decode_error (m := m.lengthened more) hlimit hsame,
      nextCode_lengthened (by omega)]
  · have hsame : Instruction.decode t (m.program ++ more) m.pc.toInt =
        .ok (i, op.size t.bytes) := by
      rw [Instruction.decode_append _ more, hdecode]
      intro found hfound
      rw [hdecode] at hfound
      cases hfound
    rw [verdict_decode_ok hlimit hdecode hop,
      verdict_decode_ok (m := m.lengthened more) hlimit hsame hop]
    rfl

theorem effect_lengthened (op : Opcode) (i : Instruction t) (next : Int64) (m : Machine t)
    (more : Array UInt8) :
    (m.lengthened more).effect op i next = (m.effect op i next).lengthened more := by
  cases op <;> rfl

theorem tick_lengthened {m : Machine t} (h : m.FetchesWhole) (more : Array UInt8) :
    (m.lengthened more).tick.machine = m.tick.machine.lengthened more := by
  refine (tick_related (R := fun a b => b = a.lengthened more) rfl rfl rfl rfl ?_ ?_).1
  · intro code cause hrun hverdict
    exact ⟨(verdict_lengthened hrun h more).trans hverdict, fun fault => rfl⟩
  · intro op i hrun hverdict
    refine ⟨i, (verdict_lengthened hrun h more).trans hverdict, ?_⟩
    rw [complete, complete, effect_lengthened]
    rfl

theorem after_lengthened {m : Machine t} {n : Nat} (h : ∀ j < n, (m.after j).FetchesWhole)
    (more : Array UInt8) : (m.lengthened more).after n = (m.after n).lengthened more := by
  refine after_related (R := fun a b => b = a.lengthened more) ?_ rfl h
  rintro a b rfl hwhole
  exact tick_lengthened hwhole more

-- Bytes behind a program do not matter until they are fetched: a run that does not end at a cut off
-- instruction ends in the same way, with the same machine, when more bytes follow its program.
theorem bytes_behind_unread (m : Machine t) (program more : Array UInt8) (fuel : Nat)
    (result : Outcome t) (hrun : m.run fuel program = some result)
    (hend : ∀ fault, result.stop = some (.fault fault) → fault.cause.isTruncation = false) :
    ∃ result', m.run fuel (program ++ more) = some result' ∧ result'.stop = result.stop ∧
      result'.machine = { result.machine with program := program ++ more } := by
  obtain ⟨hstopped, hmachine, hstop⟩ := run_spec hrun
  have hwhole : ∀ j < fuel, ((m.load program).after j).FetchesWhole := by
    intro j hj code cause hrunning hverdict
    obtain ⟨fault, hfailed, rfl⟩ := failed_of_verdict_error hj hrunning hverdict
    rw [hfailed] at hstop
    exact hend fault hstop
  have hprogram : result.machine.program = program := by
    rw [hmachine]
    exact after_program fuel (m.load program)
  have hafter : (m.load (program ++ more)).after fuel = result.machine.lengthened more := by
    rw [hmachine]
    exact after_lengthened hwhole more
  rw [← hmachine] at hstopped hstop
  have hstopped' : (result.machine.lengthened more).status ≠ .running := hstopped
  obtain ⟨log, hlonger⟩ := run_eq fuel m (program ++ more)
  rw [hafter, if_neg hstopped'] at hlonger
  refine ⟨_, hlonger, hstop.symm, ?_⟩
  simp only [lengthened, hprogram]

-- Calls its last instruction, comes back from it and then returns although nothing was called.
def thereAndBack : Array UInt8 := #[0x16, 6, 0, 0, 0, 0x17, 0x17]

theorem bytes_behind_unread_thereAndBack :
    ∃ result result', (sized 1 1 1).run 3 thereAndBack = some result ∧
      result.stop = some (.fault ⟨5, 0x17, 2, .stackUnderflow⟩) ∧
      (sized 1 1 1).run 3 (thereAndBack ++ #[0x0c, 0xff]) = some result' ∧
      result'.stop = some (.fault ⟨5, 0x17, 2, .stackUnderflow⟩) ∧
      result'.machine.pc = 5 ∧ result'.machine.steps = 2 := by
  have hrun : (sized 1 1 1).run 3 thereAndBack = some _ := rfl
  obtain ⟨result', hrun', hstop, hmachine⟩ :=
    bytes_behind_unread _ _ #[0x0c, 0xff] _ _ hrun <| by
      intro fault hfault
      cases hfault
      rfl
  exact ⟨_, result', hrun, rfl, hrun', hstop, by rw [hmachine]; rfl, by rw [hmachine]; rfl⟩

end Machine

end RegisterMachine
