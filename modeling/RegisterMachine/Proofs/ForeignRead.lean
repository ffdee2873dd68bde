import RegisterMachine.Proofs.DamagedFile

namespace RegisterMachine

variable {t t' : WordType}

-- The word of another type with the same number, if there is one.
def Word.into (t' : WordType) (w : Word t) : Word t' := ofInt t' w.value

namespace Cbor

-- A list of items that are read or refused one by one is read if none is refused.
theorem mapM_map_ite {α β : Type} {read : Item → Except Error α} {write : β → Item}
    {accepts : β → Bool} {f : β → α} {error : Error}
    (h : ∀ b, read (write b) = if accepts b then .ok (f b) else .error error) (bs : List β) :
    (bs.map write).mapM read = if bs.all accepts then .ok (bs.map f) else .error error := by
  induction bs with
  | nil => rfl
  | cons b rest ih =>
    rw [List.map_cons, List.mapM_cons, h b, List.all_cons]
    cases accepts b with
    | true =>
      show (do return f b :: (← (rest.map write).mapM read)) = _
      rw [ih]
      cases rest.all accepts <;> rfl
    | false => rfl

-- A fold that succeeds has succeeded at each of its steps.
theorem foldlM_ok_of_mem {φ σ : Type} {set : σ → φ → Except Error σ} {fields : List φ} {r r' : σ}
    (h : fields.foldlM set r = .ok r') {field : φ} (hfield : field ∈ fields) :
    ∃ before after, set before field = .ok after := by
  induction fields generalizing r with
  | nil => cases hfield
  | cons first rest ih =>
    rw [List.foldlM_cons] at h
    cases hfirst : set r first with
    | error e =>
      rw [hfirst] at h
      cases h
    | ok next =>
      rw [hfirst] at h
      rcases List.mem_cons.mp hfield with rfl | hmem
      · exact ⟨r, next, hfirst⟩
      · exact ih h hmem

theorem Item.byte_ofInt (n : Int) :
    (Item.ofInt n).byte =
      if Word.Fits ⟨.one, false⟩ n then .ok (UInt8.ofNat n.toNat) else .error .wrongType := by
  have hleast : Snapshot.least ⟨.one, false⟩ = 0 := by decide
  have hgreatest : Snapshot.greatest ⟨.one, false⟩ = 255 := by decide
  simp only [Item.byte, Item.int_ofInt, inRange, Word.fits_iff, hleast, hgreatest]
  split_ifs <;> rfl

end Cbor

namespace Snapshot

open Cbor

theorem wordOfItem_ofInt_eq (n : Int) :
    wordOfItem t' (.ofInt n) =
      if Word.Fits t' n then .ok (Word.ofInt t' n) else .error .wrongType := by
  simp only [wordOfItem, Item.int_ofInt, inRange, Word.fits_iff]
  split_ifs <;> rfl

-- Whether words are found where they are read as words of another type: each has its number there,
-- and a byte string is read as plain bytes only.
def Readable (t' : WordType) (words : List (Word t)) : Prop :=
  (∀ w ∈ words, Word.Fits t' w.value) ∧ (isByte t = true → isByte t' = true)

instance (t' : WordType) (words : List (Word t)) : Decidable (Readable t' words) :=
  inferInstanceAs (Decidable (_ ∧ _))

theorem ofNat_byte {n : Int} (h : Word.Fits ⟨.one, false⟩ n) :
    BitVec.ofNat 8 (UInt8.ofNat n.toNat).toNat = Word.ofInt ⟨.one, false⟩ n := by
  have hleast : least ⟨.one, false⟩ = 0 := by decide
  have hgreatest : greatest ⟨.one, false⟩ = 255 := by decide
  rw [Word.fits_iff, hleast, hgreatest] at h
  apply BitVec.eq_of_toNat_eq
  show _ = (BitVec.ofInt 8 n).toNat
  rw [BitVec.toNat_ofNat, UInt8.toNat_ofNat', BitVec.toNat_ofInt]
  omega

theorem wordsOfItem_array (hbyte : ¬isByte t = true) (words : List (Word t)) :
    wordsOfItem t' (wordsToItem words) =
      if words.all (Word.Fits t' ·.value) then .ok (words.map (·.into t'))
      else .error .wrongType := by
  unfold wordsOfItem wordsToItem
  rw [if_neg hbyte]
  by_cases hbyte' : isByte t' = true
  · obtain rfl : t' = ⟨.one, false⟩ := of_decide_eq_true hbyte'
    have hread (w : Word t) : (Item.ofInt w.value).byte =
        if decide (Word.Fits ⟨.one, false⟩ w.value) then .ok (UInt8.ofNat w.value.toNat)
        else .error .wrongType := by
      simp only [Item.byte_ofInt, decide_eq_true_eq]
    rw [if_pos hbyte']
    show (do return (← (words.map fun w : Word t => Item.ofInt w.value).mapM Item.byte).map _) = _
    rw [mapM_map_ite hread]
    split_ifs with hfits
    · have hword (w : Word t) (hw : w ∈ words) :=
        ofNat_byte (of_decide_eq_true (List.all_eq_true.mp hfits w hw))
      show Except.ok ((words.map _).map _) = _
      rw [List.map_map]
      exact congrArg Except.ok (List.map_congr_left hword)
    · rfl
  · have hread (w : Word t) : wordOfItem t' (.ofInt w.value) =
        if decide (Word.Fits t' w.value) then .ok (w.into t') else .error .wrongType := by
      simp only [wordOfItem_ofInt_eq, decide_eq_true_eq]
      rfl
    rw [if_neg hbyte']
    exact mapM_map_ite hread words

theorem wordsOfItem_wordsToItem_into (words : List (Word t)) :
    wordsOfItem t' (wordsToItem words) =
      if Readable t' words then .ok (words.map (·.into t')) else .error .wrongType := by
  by_cases hbyte : isByte t = true
  · by_cases hbyte' : isByte t' = true
    · obtain rfl : t = t' := (of_decide_eq_true hbyte).trans (of_decide_eq_true hbyte').symm
      have hinto : words.map (·.into t) = words := List.map_id'' Word.ofInt_value words
      rw [if_pos ⟨fun w _ => w.fits_value, id⟩, hinto, wordsOfItem_wordsToItem]
    · rw [if_neg fun h => hbyte' (h.2 hbyte), wordsToItem, if_pos hbyte, wordsOfItem, if_neg hbyte']
      rfl
  · have hreadable : words.all (Word.Fits t' ·.value) = true ↔ Readable t' words := by
      simp [Readable, hbyte]
    rw [wordsOfItem_array hbyte]
    simp only [hreadable]

-- The same snapshot with words of another type.
def into (t' : WordType) (s : Snapshot t) : Snapshot t' where
  word := s.word
  image := s.image
  pc := s.pc
  state := s.state
  steps := s.steps
  flags := s.flags
  registers := s.registers.map (·.into t')
  stack := s.stack.map (·.into t')
  memory := s.memory
  fault := s.fault

-- Sets a field of a record to what a record of another word type has in its file.
def carry (s : Snapshot t) (r : Snapshot t') (field : Field) : Except Error (Snapshot t') :=
  match s.fieldItem? field with
  | none => .ok r
  | some item => setField field item r

theorem ofItem_foreign (t' : WordType) (s : Snapshot t) :
    ofItem t' s.toItem = Field.all.foldlM s.carry (zero t') :=
  fill_eq_foldlM Field.key_number s.fieldItem? (by decide) (by simp) (zero t')

theorem readable_into {words : List (Word t)} (h : Readable t' words) :
    wordsOfItem t' (wordsToItem words) = wordsOfItem t' (wordsToItem (words.map (·.into t'))) := by
  rw [wordsOfItem_wordsToItem_into, if_pos h, wordsOfItem_wordsToItem]

-- As far as its words can be read, a file is read as if its words had been of the reader's type.
theorem carry_eq_transfer {s : Snapshot t} (hregisters : Readable t' s.registers)
    (hstack : Readable t' s.stack) (r : Snapshot t') (field : Field) :
    s.carry r field = (s.into t').transfer r field := by
  cases field
  case registers =>
    simp only [carry, transfer, fieldItem?, setField, readable_into hregisters, into]
  case stack =>
    simp only [carry, transfer, fieldItem?, setField, into, List.isEmpty_map]
    split_ifs
    · rfl
    · simp only [readable_into hstack]
  all_goals rfl

theorem ofItem_into {s : Snapshot t} (hword : s.word.isText = true) (himage : s.image.isText = true)
    (hfault : s.fault.isText = true) (hregisters : Readable t' s.registers)
    (hstack : Readable t' s.stack) : ofItem t' s.toItem = .ok (s.into t') := by
  have hcarry : s.carry = (s.into t').transfer := by
    funext r field
    exact carry_eq_transfer hregisters hstack r field
  rw [ofItem_foreign, hcarry, ← ofItem_toItem]
  exact ofItem_of_text hword himage hfault

theorem readable_of_bind {words : List (Word t)} {set : List (Word t') → Except Error (Snapshot t')}
    {r : Snapshot t'} (h : (wordsOfItem t' (wordsToItem words) >>= set) = .ok r) :
    Readable t' words := by
  by_contra hnot
  rw [wordsOfItem_wordsToItem_into, if_neg hnot] at h
  cases h

-- A file that is read has its words read, if only because the registers are never left out.
theorem readable_of_ofItem {s : Snapshot t} {s' : Snapshot t'} (h : ofItem t' s.toItem = .ok s') :
    Readable t' s.registers ∧ Readable t' s.stack := by
  rw [ofItem_foreign] at h
  have hregisters : Readable t' s.registers := by
    obtain ⟨r, r', hset⟩ := foldlM_ok_of_mem h (show Field.registers ∈ Field.all by decide)
    exact readable_of_bind hset
  refine ⟨hregisters, ?_⟩
  cases hstack : s.stack with
  | nil => exact ⟨fun w hw => absurd hw List.not_mem_nil, hregisters.2⟩
  | cons w rest =>
    obtain ⟨r, r', hset⟩ := foldlM_ok_of_mem h (show Field.stack ∈ Field.all by decide)
    simp only [carry, fieldItem?, hstack, List.isEmpty_cons, Bool.false_eq_true, if_false] at hset
    exact readable_of_bind hset

-- Two snapshots tell the same, whatever types their words have.
structure SameNumbers (s : Snapshot t) (s' : Snapshot t') : Prop where
  word : s'.word = s.word
  image : s'.image = s.image
  pc : s'.pc = s.pc
  state : s'.state = s.state
  steps : s'.steps = s.steps
  flags : s'.flags = s.flags
  registers : s'.registers.map Word.value = s.registers.map Word.value
  stack : s'.stack.map Word.value = s.stack.map Word.value
  memory : s'.memory = s.memory
  fault : s'.fault = s.fault

theorem map_value_into {words : List (Word t)} (h : Readable t' words) :
    (words.map (·.into t')).map Word.value = words.map Word.value := by
  rw [List.map_map]
  exact List.map_congr_left fun w hw => h.1 w hw

theorem into_sameNumbers {s : Snapshot t} (hregisters : Readable t' s.registers)
    (hstack : Readable t' s.stack) : s.SameNumbers (s.into t') :=
  ⟨rfl, rfl, rfl, rfl, rfl, rfl, map_value_into hregisters, map_value_into hstack, rfl, rfl⟩

end Snapshot

namespace Emulator

-- A file that is read at a word type it was not written for is refused, or the numbers in it are
-- the ones that were written. It is read exactly if all of them are numbers of that type, except that
-- plain bytes are read as nothing else.
theorem foreign_read_keeps_numbers (e : Emulator t) (h : e.Storable)
    (hname : e.name.isText = true) (hword : e.config.word.isText = true) (reader : WordType) :
    (∀ s, Snapshot.read reader e.snapshot.write = .ok s → e.snapshot.SameNumbers s) ∧
    ((∃ s, Snapshot.read reader e.snapshot.write = .ok s) ↔
      (∀ w ∈ e.machine.registers.values, Word.Fits reader w.value) ∧
      (∀ w ∈ e.machine.stack.words, Word.Fits reader w.value) ∧
      (reader ≠ ⟨.one, false⟩ → t ≠ ⟨.one, false⟩)) := by
  have hread : Snapshot.read reader e.snapshot.write = Snapshot.ofItem reader e.snapshot.toItem := by
    have hparse : Cbor.parse e.snapshot.write = .ok e.snapshot.toItem := Cbor.parse_encode h.plain
    simp only [Snapshot.read, hparse]
    rfl
  have hreadable : Snapshot.Readable reader e.snapshot.registers ∧
      Snapshot.Readable reader e.snapshot.stack ↔
      (∀ w ∈ e.machine.registers.values, Word.Fits reader w.value) ∧
        (∀ w ∈ e.machine.stack.words, Word.Fits reader w.value) ∧
        (reader ≠ ⟨.one, false⟩ → t ≠ ⟨.one, false⟩) := by
    simp only [Snapshot.Readable, snapshot, Array.mem_toList_iff, Snapshot.isByte,
      decide_eq_true_eq, ne_eq, not_imp_not]
    tauto
  have hinto (hregisters : Snapshot.Readable reader e.snapshot.registers)
      (hstack : Snapshot.Readable reader e.snapshot.stack) :
      Snapshot.ofItem reader e.snapshot.toItem = .ok (e.snapshot.into reader) :=
    Snapshot.ofItem_into hword hname e.isText_snapshot_fault hregisters hstack
  rw [hread, ← hreadable]
  constructor
  · intro s hs
    obtain ⟨hregisters, hstack⟩ := Snapshot.readable_of_ofItem hs
    rw [hinto hregisters hstack] at hs
    cases hs
    exact Snapshot.into_sameNumbers hregisters hstack
  · constructor
    · rintro ⟨s, hs⟩
      exact Snapshot.readable_of_ofItem hs
    · rintro ⟨hregisters, hstack⟩
      exact ⟨_, hinto hregisters hstack⟩

-- Minus one is read at a narrower signed type, and not at an unsigned one.
theorem foreign_read_keeps_numbers_overflown :
    (∃ s, Snapshot.read ⟨.one, true⟩ overflown.snapshot.write = .ok s ∧
      s.registers.map Word.value = [-1] ∧ s.stack.map Word.value = [-1]) ∧
    ¬∃ s, Snapshot.read ⟨.two, false⟩ overflown.snapshot.write = .ok s := by
  have hforeign := foreign_read_keeps_numbers overflown overflown_storable (by decide) (by decide)
  have hword (w : Word ⟨.two, true⟩) (hw : w ∈ #[(-1 : Word ⟨.two, true⟩)]) :
      Word.Fits ⟨.one, true⟩ w.value := by
    obtain rfl : w = -1 := by simpa using hw
    decide
  constructor
  · obtain ⟨s, hs⟩ := (hforeign ⟨.one, true⟩).2.mpr ⟨hword, hword, by decide⟩
    have hsame := (hforeign ⟨.one, true⟩).1 s hs
    exact ⟨s, hs, hsame.registers, hsame.stack⟩
  · rw [(hforeign ⟨.two, false⟩).2]
    rintro ⟨hfits, -⟩
    exact absurd (hfits (-1) (Array.mem_singleton.mpr rfl)) (by decide)

end Emulator

end RegisterMachine
