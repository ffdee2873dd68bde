import RegisterMachine.Proofs.SnapshotFile

namespace RegisterMachine

variable {t : WordType}

namespace Cbor

theorem parse_part {item : Item} (h : item.Plain maxLevels) {piece : Octets}
    (hpiece : piece <+: item.encode) (hne : piece ≠ item.encode) :
    parse piece = .error (if piece = [] then .empty else .cutShort) := by
  by_cases hnil : piece = []
  · simp only [parse, if_pos hnil]
    rfl
  · have hread := (level_takes h).part hpiece hne
    simp only [parse, if_neg hnil, hread]
    rfl

theorem parse_extended {item : Item} (h : item.Plain maxLevels) {more : Octets}
    (hmore : more ≠ []) : parse (item.encode ++ more) = .error .trailing := by
  have hne : item.encode ++ more ≠ [] := by simp [hmore]
  have hread := (level_takes h).whole more
  simp only [parse, if_neg hne, hread]
  show (if more ≠ [] then _ else _) = _
  rw [if_pos hmore]
  rfl

-- A part of an encoding is found cut short while an encoding is found whole, so it is none.
theorem encode_eq_of_part {item item' : Item} (h : item.Plain maxLevels)
    (h' : item'.Plain maxLevels) (hpart : item.encode <+: item'.encode) :
    item.encode = item'.encode := by
  by_contra hne
  have hwhole := parse_encode h
  rw [parse_part h' hpart hne] at hwhole
  cases hwhole

end Cbor

namespace Emulator

-- An emulator whose state goes into a file that can be read as far as its form is concerned.
-- Whether the names in it are texts does not matter to that.
structure Storable (e : Emulator t) : Prop where
  reachable : ∃ registers stack memory, e.machine.Reachable registers stack memory
  name : e.name.length < Cbor.maxLength
  word : e.config.word.length < Cbor.maxLength
  stack : t = ⟨.one, false⟩ ∨ e.machine.stack.words.size ≤ 131072

theorem Storable.plain {e : Emulator t} (h : e.Storable) :
    e.snapshot.toItem.Plain Cbor.maxLevels := by
  obtain ⟨registers, stack, memory, hreachable⟩ := h.reachable
  apply Snapshot.plain_toItem (snapshot_fits hreachable h.name h.word)
  have hwords : e.snapshot.stack.length = e.machine.stack.words.size := Array.length_toList
  rw [hwords]
  rcases h.stack with hbyte | hfew
  · exact .inl (decide_eq_true hbyte)
  · exact .inr hfew

-- Damage to a file is noticed: every part of it is found empty or cut short, and whatever stands
-- behind it is found to be too much, at whichever word type it is read. So no file is a part of
-- another one.
theorem damage_noticed (e : Emulator t) (h : e.Storable) (reader : WordType) :
    (∀ piece, piece <+: e.snapshot.write → piece ≠ e.snapshot.write →
      Snapshot.read reader piece = .error (if piece = [] then .empty else .cutShort)) ∧
    (∀ more, more ≠ [] → Snapshot.read reader (e.snapshot.write ++ more) = .error .trailing) ∧
    ∀ (t' : WordType) (e' : Emulator t'), e'.Storable →
      e.snapshot.write <+: e'.snapshot.write → e.snapshot.write = e'.snapshot.write := by
  refine ⟨?_, ?_, ?_⟩
  · intro piece hpiece hne
    have hparse : Cbor.parse piece = .error (if piece = [] then .empty else .cutShort) :=
      Cbor.parse_part h.plain hpiece hne
    simp only [Snapshot.read, hparse]
    rfl
  · intro more hmore
    have hparse : Cbor.parse (e.snapshot.write ++ more) = .error .trailing :=
      Cbor.parse_extended h.plain hmore
    simp only [Snapshot.read, hparse]
    rfl
  · intro t' e' h' hpart
    exact Cbor.encode_eq_of_part h.plain h'.plain hpart

-- Has pushed a register and failed to push it once more.
def overflown : Emulator ⟨.two, true⟩ where
  machine :=
    { registers := ⟨#[-1]⟩
      flags := ⟨false, true, false⟩
      stack := ⟨#[-1], 1⟩
      memory := ⟨#[]⟩
      program := #[0x0f, 0, 0x10, 0, 0x10, 0]
      pc := 4
      steps := 2
      status := .failed ⟨4, 0x10, 2, .stackOverflow⟩
      maxSteps := 0
      verbose := false }
  config := small
  name := octets "a"
  image := #[]
  verbose := false

theorem overflown_storable : overflown.Storable := by
  have hmake : Machine.make ⟨.two, true⟩ 1 1 0 0 false = .ok _ := rfl
  have hran : overflown.machine.Reachable 1 1 0 :=
    .apply (.run 3 #[0x0f, 0, 0x10, 0, 0x10, 0]) (.make hmake) (by decide +kernel)
  exact ⟨⟨1, 1, 0, hran⟩, by decide, by decide, .inr (by decide)⟩

theorem damage_noticed_overflown :
    overflown.snapshot.write.length = 84 ∧
      Snapshot.read ⟨.two, true⟩ (overflown.snapshot.write.take 83) = .error .cutShort ∧
      Snapshot.read ⟨.two, true⟩ [] = .error .empty ∧
      Snapshot.read ⟨.two, true⟩ (overflown.snapshot.write ++ [0]) = .error .trailing := by
  obtain ⟨hpart, hmore, -⟩ := damage_noticed overflown overflown_storable ⟨.two, true⟩
  have hlength : overflown.snapshot.write.length = 84 := by decide +kernel
  have htake : (overflown.snapshot.write.take 83).length = 83 := by
    rw [List.length_take, hlength]
    rfl
  refine ⟨hlength, ?_, ?_, hmore [0] (by simp)⟩
  · have hne : overflown.snapshot.write.take 83 ≠ overflown.snapshot.write := by
      intro heq
      rw [heq, hlength] at htake
      cases htake
    have hcut := hpart _ (List.take_prefix 83 _) hne
    rwa [if_neg (List.ne_nil_of_length_pos (by omega))] at hcut
  · refine hpart [] List.nil_prefix fun heq => ?_
    rw [← heq] at hlength
    cases hlength

end Emulator

end RegisterMachine
