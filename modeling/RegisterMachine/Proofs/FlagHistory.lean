import RegisterMachine.Proofs.CallReturn
import RegisterMachine.Proofs.Frame
import RegisterMachine.Proofs.Signedness

namespace RegisterMachine

variable {t : WordType}

namespace Machine

-- The next tick computes a value.
def Computes (m : Machine t) : Prop := ∃ op ∈ Opcode.cmp :: Opcode.computing, m.Executes op

-- The value that the next tick computes: what it stores, or the difference that it only looks at,
-- which wraps around as words do.
inductive Yields (m : Machine t) (w : Word t) : Prop where
  | stored {op : Opcode} {i : Instruction t} (hop : op ∈ Opcode.computing)
      (hexecutes : m.Executes op)
      (hread : Instruction.decode t m.program m.pc.toInt = .ok (i, op.size t.bytes))
      (hstored : m.tick.machine.registers.values[i.first.toNat]? = some w)
  | compared {i : Instruction t} {a b : Word t} (hexecutes : m.Executes .cmp)
      (hread : Instruction.decode t m.program m.pc.toInt = .ok (i, Opcode.cmp.size t.bytes))
      (ha : m.registers.values[i.first.toNat]? = some a)
      (hb : m.registers.values[i.second.toNat]? = some b)
      (hdifference : w.value ≡ a.value - b.value [ZMOD 2 ^ t.bits])

-- In the first `n` ticks, every value was computed before the flags were last cleared.
def Unmarked (m : Machine t) (n : Nat) : Prop :=
  ∀ j < n, (m.after j).Computes → ∃ k, j < k ∧ k < n ∧ (m.after k).Executes .clf

-- Of the values that the first `n` ticks compute, `w` is the last. It comes from tick `j`.
structure LastResult (m : Machine t) (n j : Nat) (w : Word t) : Prop where
  before : j < n
  yields : (m.after j).Yields w
  last : ∀ k, j < k → k < n → ¬(m.after k).Computes

variable {m : Machine t}

theorem Executes.eq {op op' : Opcode} (h : m.Executes op) (h' : m.Executes op') : op = op' := by
  have hbyte : Opcode.ofByte? op.byte = Opcode.ofByte? op'.byte := by rw [← h.2, ← h'.2]
  rwa [Opcode.ofByte?_byte, Opcode.ofByte?_byte, Option.some.injEq] at hbyte

theorem Computes.not_clf (h : m.Computes) : ¬m.Executes .clf := by
  obtain ⟨op, hop, hexecutes⟩ := h
  intro hclf
  rw [hexecutes.eq hclf] at hop
  exact absurd hop (by decide)

theorem tick_flags_of_idle (hcomputes : ¬m.Computes) (hclf : ¬m.Executes .clf) :
    m.tick.machine.flags = m.flags := by
  by_cases hstop : m.tick.stop = none
  · obtain ⟨op, i, -, hdecode, hop, -, htick⟩ := tick_success hstop
    have hexecutes : m.Executes op :=
      ⟨hstop, (nextCode_of_decode hdecode).trans (Opcode.byte_of_ofByte? hop).symm⟩
    have hidle : op ∉ Opcode.flagging := by
      intro hmem
      obtain rfl | hmem := List.mem_cons.mp hmem
      · exact hcomputes ⟨.cmp, List.mem_cons_self, hexecutes⟩
      · obtain rfl | hmem := List.mem_cons.mp hmem
        · exact hclf hexecutes
        · exact hcomputes ⟨op, List.mem_cons_of_mem _ hmem, hexecutes⟩
    rw [htick]
    exact effect_flags_of_not_mem hidle i _ m
  · obtain ⟨status, hmachine⟩ := tick_of_stop hstop
    rw [hmachine]

theorem Executes.clf_flags (h : m.Executes .clf) : m.tick.machine.flags = .clear := by
  obtain ⟨i, -, -, htick⟩ := h.read
  rw [htick]
  rfl

theorem Computes.flags (h : m.Computes) :
    ∃ w, m.Yields w ∧ m.tick.machine.flags = .ofInt w.value := by
  obtain ⟨op, hop, hexecutes⟩ := h
  obtain ⟨i, hread, hrefusal, htick⟩ := hexecutes.read
  obtain ⟨hids, -⟩ := refusal?_eq_none hrefusal
  obtain rfl | hop := List.mem_cons.mp hop
  · have hfirst := getElem?_registers (hids i.first (.head _))
    have hsecond := getElem?_registers (hids i.second (.tail _ (.head _)))
    refine ⟨_, .compared hexecutes hread hfirst hsecond (Word.value_sub_modEq _ _), ?_⟩
    rw [htick]
    rfl
  · have hsettled : m.tick.machine =
        { m.settle i.first (m.result op i) (m.following op) with steps := m.steps + 1 } := by
      rw [htick, complete, effect_of_computing hop]
    have hdest := hids i.first (first_mem_registerIds hop i)
    refine ⟨m.result op i, .stored hop hexecutes hread ?_, by rw [hsettled]; rfl⟩
    rw [hsettled]
    exact (settle_stores hdest _ (m.following op)).register

theorem unmarked_succ_iff {n : Nat} (hcomputes : ¬(m.after n).Computes)
    (hclf : ¬(m.after n).Executes .clf) : m.Unmarked (n + 1) ↔ m.Unmarked n := by
  constructor
  · intro h j hj hj'
    obtain ⟨k, hjk, hk, hclear⟩ := h j (by omega) hj'
    have hne : k ≠ n := fun heq => hclf (heq ▸ hclear)
    exact ⟨k, hjk, by omega, hclear⟩
  · intro h j hj hj'
    have hne : j ≠ n := fun heq => hcomputes (heq ▸ hj')
    obtain ⟨k, hjk, hk, hclear⟩ := h j (by omega) hj'
    exact ⟨k, hjk, by omega, hclear⟩

-- The invariant of a run whose flags are clear at the start, by what its last tick does.
theorem after_flags (hstart : m.flags = .clear) (n : Nat) :
    m.Unmarked n ∧ (m.after n).flags = .clear ∨
      ¬m.Unmarked n ∧ ∃ j w, m.LastResult n j w ∧ (m.after n).flags = .ofInt w.value := by
  induction n with
  | zero => exact .inl ⟨fun j hj => absurd hj (Nat.not_lt_zero j), hstart⟩
  | succ n ih =>
    rw [after_succ_eq_tick]
    by_cases hcomputes : (m.after n).Computes
    · obtain ⟨w, hyields, hflags⟩ := hcomputes.flags
      refine .inr ⟨?_, n, w, ⟨Nat.lt_succ_self n, hyields, fun k hk hk' => by omega⟩, hflags⟩
      intro h
      obtain ⟨k, hk, hk', -⟩ := h n (Nat.lt_succ_self n) hcomputes
      omega
    · by_cases hclf : (m.after n).Executes .clf
      · refine .inl ⟨?_, hclf.clf_flags⟩
        intro j hj hj'
        have hne : j ≠ n := fun heq => hcomputes (heq ▸ hj')
        exact ⟨n, by omega, Nat.lt_succ_self n, hclf⟩
      · rw [tick_flags_of_idle hcomputes hclf, unmarked_succ_iff hcomputes hclf]
        obtain hclear | ⟨hmarked, j, w, ⟨hj, hyields, hlast⟩, hflags⟩ := ih
        · exact .inl hclear
        · refine .inr ⟨hmarked, j, w, ⟨by omega, hyields, ?_⟩, hflags⟩
          intro k hjk hk
          by_cases heq : k = n
          · exact heq ▸ hcomputes
          · exact hlast k hjk (by omega)

-- The flags describe the most recent result: they are clear as long as nothing has been computed
-- since the start or since they were cleared, and afterwards show the sign of the last value that
-- was, whatever else the program did and wherever it failed.
theorem flags_show_last_result (m : Machine t) (program : Array UInt8) (n : Nat) :
    ((m.load program).Unmarked n → ((m.load program).after n).flags = .clear) ∧
    (¬(m.load program).Unmarked n → ∃ j w, (m.load program).LastResult n j w ∧
      ((m.load program).after n).flags.SignOf w.value) := by
  obtain ⟨hunmarked, hclear⟩ | ⟨hmarked, j, w, hlast, hflags⟩ :=
    after_flags (m := m.load program) rfl n
  · exact ⟨fun _ => hclear, absurd hunmarked⟩
  · refine ⟨fun h => absurd h hmarked, fun _ => ⟨j, w, hlast, ?_⟩⟩
    rw [hflags]
    exact Flags.signOf_ofInt w.value

-- One up, cleared, one down, and then through the stack to a return that fails.
def clearing : Array UInt8 := #[0x0e, 0, 0x18, 0x0f, 1, 0x10, 1, 0x11, 0, 0x17]

theorem flags_show_last_result_clearing :
    (((sized 2 1 0).load clearing).Unmarked 2 ∧
      (((sized 2 1 0).load clearing).after 2).flags = .clear) ∧
    ¬((sized 2 1 0).load clearing).Unmarked 7 ∧
      ∃ j w, ((sized 2 1 0).load clearing).LastResult 7 j w ∧
        (((sized 2 1 0).load clearing).after 7).flags.SignOf w.value := by
  have hunmarked : ((sized 2 1 0).load clearing).Unmarked 2 := by
    have hclf : (((sized 2 1 0).load clearing).after 1).Executes .clf := by decide +kernel
    intro j hj hj'
    have hne : j ≠ 1 := fun heq => (heq ▸ hj').not_clf hclf
    exact ⟨1, by omega, by decide, hclf⟩
  have hmarked : ¬((sized 2 1 0).load clearing).Unmarked 7 := by
    have hdec : (((sized 2 1 0).load clearing).after 2).Executes .dec := by decide +kernel
    have hnone : ∀ k < 7, 2 < k → ¬(((sized 2 1 0).load clearing).after k).Executes .clf := by
      decide +kernel
    intro h
    obtain ⟨k, hk, hk', hclf⟩ := h 2 (by decide) ⟨.dec, by decide, hdec⟩
    exact hnone k hk' hk hclf
  exact ⟨⟨hunmarked, (flags_show_last_result (sized 2 1 0) clearing 2).1 hunmarked⟩, hmarked,
    (flags_show_last_result (sized 2 1 0) clearing 7).2 hmarked⟩

end Machine

end RegisterMachine
