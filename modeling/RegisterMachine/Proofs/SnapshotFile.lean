import RegisterMachine.Proofs.Cbor
import RegisterMachine.Proofs.FaultText
import RegisterMachine.Proofs.WordValue

namespace RegisterMachine

variable {t : WordType}

namespace Cbor

theorem Item.int_ofInt (low high n : Int) : (Item.ofInt n).int low high = inRange low high n := by
  unfold Item.ofInt
  split_ifs with hneg
  · show inRange low high (-1 - ((-1 - n).toNat : Int)) = _
    rw [Int.toNat_of_nonneg (by omega), Int.sub_sub_self]
  · show inRange low high (n.toNat : Int) = _
    rw [Int.toNat_of_nonneg (by omega)]

theorem Item.plain_ofInt (levels : Nat) {n : Int} (h : -2 ^ 64 ≤ n ∧ n < 2 ^ 64) :
    (Item.ofInt n).Plain levels := by
  unfold Item.ofInt
  split_ifs with hneg
  · simp only [Item.Plain]
    omega
  · simp only [Item.Plain]
    omega

theorem Item.bool_ofBool (b : Bool) : (Item.ofBool b).bool = .ok b := by
  cases b <;> rfl

theorem Item.string_text (value : Octets) :
    (Item.text [value]).string = if value.isText then .ok value else .error .badText := by
  show joinText [value] = _
  simp [joinText]

theorem mapM_map {α : Type} {read : Item → Except Error α} {write : α → Item} {as : List α}
    (h : ∀ a ∈ as, read (write a) = .ok a) : (as.map write).mapM read = .ok as := by
  induction as with
  | nil => rfl
  | cons a rest ih =>
    rw [List.map_cons, List.mapM_cons, h a List.mem_cons_self,
      ih fun b hb => h b (List.mem_cons_of_mem a hb)]
    rfl

-- Entries that name each field at most once set the fields one after the other.
theorem fill_eq_foldlM {φ σ : Type} [DecidableEq φ] {field : Key → Option φ}
    {set : φ → Item → σ → Except Error σ} {key : φ → Item}
    (hkey : ∀ f, ∃ k, (key f).key = .ok k ∧ field k = some f) (item? : φ → Option Item)
    {fields seen : List φ} (hnodup : fields.Nodup) (hseen : ∀ f ∈ fields, f ∉ seen) (record : σ) :
    fill field set (fields.filterMap fun f => (item? f).map (key f, ·)) seen record =
      fields.foldlM (fun record f =>
        match item? f with
        | none => .ok record
        | some item => set f item record) record := by
  induction fields generalizing seen record with
  | nil => rfl
  | cons f rest ih =>
    obtain ⟨hf, hrest⟩ := List.nodup_cons.mp hnodup
    have hunseen := hseen f List.mem_cons_self
    have hlater (g : φ) (hg : g ∈ rest) := hseen g (List.mem_cons_of_mem f hg)
    rw [List.foldlM_cons]
    cases hitem : item? f with
    | none =>
      simp only [List.filterMap_cons, hitem, Option.map_none]
      exact ih hrest hlater record
    | some item =>
      obtain ⟨k, hk, hfield⟩ := hkey f
      have hnext (g : φ) (hg : g ∈ rest) : g ∉ f :: seen := by
        rw [List.mem_cons, not_or]
        exact ⟨fun heq => hf (heq ▸ hg), hlater g hg⟩
      simp only [List.filterMap_cons, hitem, Option.map_some, fill, hk, bind, Except.bind, hfield,
        if_neg hunseen]
      cases set f item record with
      | error e => rfl
      | ok record => exact ih hrest hnext record

end Cbor

namespace Snapshot

open Cbor

theorem wordOfItem_ofInt (w : Word t) : wordOfItem t (.ofInt w.value) = .ok w := by
  have hrange : inRange (least t) (greatest t) w.value = .ok w.value := if_pos w.value_bounds
  simp only [wordOfItem, Item.int_ofInt, hrange]
  exact congrArg Except.ok w.ofInt_value

theorem wordsOfItem_wordsToItem (words : List (Word t)) :
    wordsOfItem t (wordsToItem words) = .ok words := by
  unfold wordsOfItem wordsToItem
  by_cases hbyte : isByte t = true
  · have hpow : 2 ^ t.bits = 256 := by
      rw [of_decide_eq_true hbyte]
      rfl
    have hword (w : Word t) : BitVec.ofNat t.bits (UInt8.ofNat w.toNat).toNat = w := by
      have hlt := w.isLt
      apply BitVec.eq_of_toNat_eq
      rw [BitVec.toNat_ofNat, UInt8.toNat_ofNat', hpow]
      omega
    simp only [if_pos hbyte]
    show Except.ok ((words.map _).map _) = _
    rw [List.map_map]
    exact congrArg Except.ok (List.map_id'' hword words)
  · simp only [if_neg hbyte]
    exact mapM_map fun w _ => wordOfItem_ofInt w

theorem FlagField.key_name (field : FlagField) :
    ∃ k, (Item.text [octets field.name]).key = .ok k ∧ ofKey? k = some field := by
  refine ⟨.text (octets field.name), ?_, ?_⟩
  · have hjoin : joinText [octets field.name] = .ok (octets field.name) := by
      simp [joinText, Octets.isText_octets]
    simp only [Item.key, hjoin]
  · cases field <;> decide +kernel

-- The value of a flag in the file.
def flagItem (flags : Flags) : FlagField → Item
  | .zero => .ofBool flags.zero
  | .negative => .ofBool flags.negative
  | .positive => .ofBool flags.positive

theorem flagsOfItem_flagsToItem (flags : Flags) : flagsOfItem (flagsToItem flags) = .ok flags := by
  have hnodup : [FlagField.zero, .negative, .positive].Nodup := by decide
  refine (fill_eq_foldlM FlagField.key_name (fun field => some (flagItem flags field)) hnodup
    (fun _ _ => List.not_mem_nil) Flags.clear).trans ?_
  simp only [List.foldlM_cons, List.foldlM_nil, setFlag, flagItem, Item.bool_ofBool]
  rfl

theorem Field.key_number (field : Field) :
    ∃ k, (Item.unsigned field.number).key = .ok k ∧ ofKey? k = some field := by
  refine ⟨.int field.number, rfl, ?_⟩
  cases field <;> decide

-- Sets a field of a record to what another record has in its file.
def transfer (s r : Snapshot t) (field : Field) : Except Error (Snapshot t) :=
  match s.fieldItem? field with
  | none => .ok r
  | some item => setField field item r

theorem ofItem_toItem (s : Snapshot t) :
    ofItem t s.toItem = Field.all.foldlM s.transfer (zero t) :=
  fill_eq_foldlM Field.key_number s.fieldItem? (by decide) (by simp) (zero t)

def take (s r : Snapshot t) : Field → Snapshot t
  | .word => { r with word := s.word }
  | .image => { r with image := s.image }
  | .pc => { r with pc := s.pc }
  | .state => { r with state := s.state }
  | .steps => { r with steps := s.steps }
  | .flags => { r with flags := s.flags }
  | .registers => { r with registers := s.registers }
  | .stack => { r with stack := s.stack }
  | .memory => { r with memory := s.memory }
  | .fault => { r with fault := s.fault }

-- The text in a field, if it holds one.
def text? (s : Snapshot t) : Field → Option Octets
  | .word => some s.word
  | .image => some s.image
  | .fault => some s.fault
  | _ => none

theorem int64OfItem (n : Int64) :
    (Item.ofInt n.toInt).int (least ⟨.eight, true⟩) (greatest ⟨.eight, true⟩) = .ok n.toInt := by
  have hrange : least ⟨.eight, true⟩ ≤ n.toInt ∧ n.toInt ≤ greatest ⟨.eight, true⟩ := by
    have hleast : least ⟨.eight, true⟩ = -2 ^ 63 := by decide
    have hgreatest : greatest ⟨.eight, true⟩ = 2 ^ 63 - 1 := by decide
    have hle := n.le_toInt
    have hlt := n.toInt_lt
    omega
  rw [Item.int_ofInt, inRange, if_pos hrange]

theorem transfer_eq {s r : Snapshot t} {field : Field}
    (htext : ∀ text ∈ s.text? field, text.isText = true) (hblank : (zero t).take r field = r) :
    s.transfer r field = .ok (s.take r field) := by
  cases field with
  | word =>
    have hword : s.word.isText = true := htext _ rfl
    simp only [transfer, fieldItem?, setField, Item.string_text, hword, if_true]
    rfl
  | image =>
    have himage : s.image.isText = true := htext _ rfl
    simp only [transfer, fieldItem?, setField, Item.string_text, himage, if_true]
    rfl
  | pc =>
    simp only [transfer, fieldItem?, setField, int64OfItem]
    show Except.ok { r with pc := Int64.ofInt s.pc.toInt } = _
    rw [Int64.ofInt_toInt]
    rfl
  | state =>
    simp only [transfer, fieldItem?, setField, int64OfItem]
    show Except.ok { r with state := Int64.ofInt s.state.toInt } = _
    rw [Int64.ofInt_toInt]
    rfl
  | steps =>
    have hgreatest : greatest ⟨.eight, false⟩ = 2 ^ 64 - 1 := by decide
    have hlt := s.steps.toNat_lt
    have hint : (Item.unsigned s.steps.toNat).int 0 (greatest ⟨.eight, false⟩) =
        .ok (s.steps.toNat : Int) := by
      show inRange _ _ _ = _
      rw [inRange, if_pos (by omega)]
    simp only [transfer, fieldItem?, setField, hint]
    show Except.ok { r with steps := UInt64.ofNat s.steps.toNat } = _
    rw [UInt64.ofNat_toNat]
    rfl
  | flags =>
    simp only [transfer, fieldItem?, setField, flagsOfItem_flagsToItem]
    rfl
  | registers =>
    simp only [transfer, fieldItem?, setField, wordsOfItem_wordsToItem]
    rfl
  | stack =>
    cases hstack : s.stack with
    | nil =>
      simp only [transfer, fieldItem?, hstack, List.isEmpty_nil, if_true, take]
      exact congrArg Except.ok hblank.symm
    | cons w rest =>
      simp only [transfer, fieldItem?, hstack, List.isEmpty_cons, Bool.false_eq_true, if_false,
        setField, wordsOfItem_wordsToItem, take]
      rfl
  | memory =>
    cases hmemory : s.memory with
    | nil =>
      simp only [transfer, fieldItem?, hmemory, List.isEmpty_nil, if_true, take]
      exact congrArg Except.ok hblank.symm
    | cons byte rest =>
      simp only [transfer, fieldItem?, hmemory, List.isEmpty_cons, Bool.false_eq_true, if_false,
        take]
      rfl
  | fault =>
    have hfault : s.fault.isText = true := htext _ rfl
    cases htext : s.fault with
    | nil =>
      simp only [transfer, fieldItem?, htext, List.isEmpty_nil, if_true, take]
      exact congrArg Except.ok hblank.symm
    | cons byte rest =>
      rw [htext] at hfault
      simp only [transfer, fieldItem?, htext, List.isEmpty_cons, Bool.false_eq_true, if_false,
        setField, Item.string_text, hfault, if_true, take]
      rfl

theorem take_take_of_ne (s s' r : Snapshot t) {field other : Field} (h : field ≠ other) :
    s'.take (s.take r field) other = s.take (s'.take r other) field := by
  revert h
  cases field <;> cases other <;> simp [take]

-- Each field is still blank when its turn comes, as none has two turns.
theorem foldlM_transfer {s : Snapshot t}
    (htext : ∀ field, ∀ text ∈ s.text? field, text.isText = true) {fields : List Field} (hnodup : fields.Nodup) {r : Snapshot t}
    (hblank : ∀ field ∈ fields, (zero t).take r field = r) :
    fields.foldlM s.transfer r = .ok (fields.foldl s.take r) := by
  induction fields generalizing r with
  | nil => rfl
  | cons field rest ih =>
    obtain ⟨hfield, hrest⟩ := List.nodup_cons.mp hnodup
    rw [List.foldlM_cons, transfer_eq (htext field) (hblank field List.mem_cons_self)]
    apply ih hrest
    intro other hother
    have hne : field ≠ other := fun heq => hfield (heq ▸ hother)
    rw [take_take_of_ne s (zero t) r hne, hblank other (List.mem_cons_of_mem field hother)]

theorem ofItem_of_text {s : Snapshot t} (hword : s.word.isText = true)
    (himage : s.image.isText = true) (hfault : s.fault.isText = true) :
    ofItem t s.toItem = .ok s := by
  have htext (field : Field) : ∀ text ∈ s.text? field, text.isText = true := by
    cases field <;> simp [text?, hword, himage, hfault]
  have hblank (field : Field) : (zero t).take (zero t) field = zero t := by
    cases field <;> rfl
  have hall : Field.all.foldl s.take (zero t) = s := by
    simp only [Field.all, List.foldl_cons, List.foldl_nil, take]
  rw [ofItem_toItem, foldlM_transfer htext (by decide) fun field _ => hblank field, hall]

theorem ofItem_badText {s : Snapshot t} (h : ¬(s.word.isText = true ∧ s.image.isText = true)) :
    ofItem t s.toItem = .error .badText := by
  rw [ofItem_toItem, Field.all, List.foldlM_cons]
  by_cases hword : s.word.isText = true
  · have himage : ¬s.image.isText = true := fun himage => h ⟨hword, himage⟩
    have hfirst : s.transfer (zero t) .word = .ok (s.take (zero t) .word) :=
      transfer_eq (by simpa [text?] using hword) rfl
    have hsecond (r : Snapshot t) : s.transfer r .image = .error .badText := by
      simp only [transfer, fieldItem?, setField, Item.string_text, if_neg himage]
      rfl
    rw [hfirst]
    show List.foldlM s.transfer _ _ = _
    rw [List.foldlM_cons, hsecond]
    rfl
  · have hfirst (r : Snapshot t) : s.transfer r .word = .error .badText := by
      simp only [transfer, fieldItem?, setField, Item.string_text, if_neg hword]
      rfl
    rw [hfirst]
    rfl

-- What fits into a file: no buffer is as long as the longest length, and an array has not more
-- elements than a reader takes.
structure Fits (s : Snapshot t) : Prop where
  word : s.word.length < maxLength
  image : s.image.length < maxLength
  registers : s.registers.length ≤ maxElements
  stack : s.stack.length < maxLength
  memory : s.memory.length < maxLength
  fault : s.fault.length < maxLength

theorem plain_wordsToItem (levels : Nat) {words : List (Word t)}
    (hlength : words.length < maxLength) (h : isByte t = true ∨ words.length ≤ maxElements) :
    (wordsToItem words).Plain (levels + 1) := by
  unfold wordsToItem
  by_cases hbyte : isByte t = true
  · rw [if_pos hbyte]
    simpa [Item.Plain] using hlength
  · rw [if_neg hbyte]
    simp only [Item.Plain, List.length_map, List.forall_mem_map]
    refine ⟨h.resolve_left hbyte, ?_⟩
    intro w _
    have hvalue := w.value_bounds
    have hbounds := Word.least_greatest_le t
    exact Item.plain_ofInt levels (by omega)

theorem plain_flagsToItem (levels : Nat) (flags : Flags) :
    (flagsToItem flags).Plain (levels + 1) := by
  have hname (field : FlagField) : (Item.text [octets field.name]).Plain levels := by
    simp only [Item.Plain]
    refine ⟨_, rfl, ?_⟩
    cases field <;> decide +kernel
  have hflag (b : Bool) : (Item.ofBool b).Plain levels := by
    cases b <;> simp [Item.ofBool, Item.Plain]
  simp [flagsToItem, Item.Plain, maxPairs, hname, hflag]

theorem plain_fieldItem? {s : Snapshot t} (h : s.Fits) (levels : Nat) {field : Field} {item : Item}
    (hstack : field = .stack → isByte t = true ∨ s.stack.length ≤ maxElements)
    (hitem : s.fieldItem? field = some item) : item.Plain (levels + 1) := by
  have hint (n : Int64) : (Item.ofInt n.toInt).Plain (levels + 1) := by
    have hle := n.le_toInt
    have hlt := n.toInt_lt
    exact Item.plain_ofInt (levels + 1) (by omega)
  cases field with
  | word =>
    cases hitem
    exact ⟨_, rfl, h.word⟩
  | image =>
    cases hitem
    exact ⟨_, rfl, h.image⟩
  | pc =>
    cases hitem
    exact hint s.pc
  | state =>
    cases hitem
    exact hint s.state
  | steps =>
    cases hitem
    exact s.steps.toNat_lt
  | flags =>
    cases hitem
    exact plain_flagsToItem levels s.flags
  | registers =>
    cases hitem
    exact plain_wordsToItem levels (h.registers.trans_lt maxElements_lt) (.inr h.registers)
  | stack =>
    simp only [fieldItem?] at hitem
    split_ifs at hitem
    cases hitem
    exact plain_wordsToItem levels h.stack (hstack rfl)
  | memory =>
    simp only [fieldItem?] at hitem
    split_ifs at hitem
    cases hitem
    exact h.memory
  | fault =>
    simp only [fieldItem?] at hitem
    split_ifs at hitem
    cases hitem
    exact ⟨_, rfl, h.fault⟩

-- The entry of a field, unless the field is left out.
def entryOf (s : Snapshot t) (field : Field) : Option (Item × Item) :=
  (s.fieldItem? field).map (.unsigned field.number, ·)

theorem plain_entryOf {s : Snapshot t} (h : s.Fits) (levels : Nat) {field : Field}
    {entry : Item × Item}
    (hstack : field = .stack → isByte t = true ∨ s.stack.length ≤ maxElements)
    (hentry : s.entryOf field = some entry) :
    entry.1.Plain (levels + 1) ∧ entry.2.Plain (levels + 1) := by
  obtain ⟨item, hitem, rfl⟩ := Option.map_eq_some_iff.mp hentry
  refine ⟨?_, plain_fieldItem? h levels hstack hitem⟩
  show field.number < 2 ^ 64
  cases field <;> decide

theorem length_entries_le (s : Snapshot t) : (Field.all.filterMap s.entryOf).length ≤ maxPairs :=
  (List.length_filterMap_le _ _).trans (by decide)

theorem plain_toItem {s : Snapshot t} (h : s.Fits)
    (hstack : isByte t = true ∨ s.stack.length ≤ maxElements) : s.toItem.Plain maxLevels := by
  show (Item.map (Field.all.filterMap s.entryOf)).Plain (31 + 1)
  refine ⟨s.length_entries_le, ?_⟩
  intro entry hentry
  obtain ⟨field, -, hfield⟩ := List.mem_filterMap.mp hentry
  exact plain_entryOf h 30 (fun _ => hstack) hfield

-- As far as the file can be read at all, its one item is the record that was written.
theorem parse_write {s : Snapshot t} (h : s.Fits)
    (hstack : isByte t = true ∨ s.stack.length ≤ maxElements) : parse s.write = .ok s.toItem :=
  parse_encode (plain_toItem h hstack)

theorem parse_write_overfull {s : Snapshot t} (h : s.Fits) (hbyte : ¬isByte t = true)
    (hmany : maxElements < s.stack.length) : parse s.write = .error .tooManyElements := by
  have hsplit : Field.all = [.word, .image, .pc, .state, .steps, .flags, .registers] ++
      .stack :: [.memory, .fault] := rfl
  have hne : s.stack.isEmpty = false := by
    cases hstack : s.stack with
    | nil => simp [hstack] at hmany
    | cons w rest => rfl
  have hentry : s.entryOf .stack =
      some (.unsigned 8, .array (s.stack.map fun w => .ofInt w.value)) := by
    simp only [entryOf, fieldItem?, hne, Bool.false_eq_true, if_false, wordsToItem, if_neg hbyte]
    rfl
  have hpairs := s.length_entries_le
  show parse (Item.map (Field.all.filterMap s.entryOf)).encode = _
  rw [hsplit, List.filterMap_append, List.filterMap_cons_some hentry] at hpairs ⊢
  apply parse_overfull _ _ _ _ hpairs
  · intro entry hmem
    obtain ⟨field, hfield, hsome⟩ := List.mem_filterMap.mp hmem
    refine plain_entryOf h 30 ?_ hsome
    rintro rfl
    simp at hfield
  · show 8 < 2 ^ 64
    decide
  · simpa using hmany
  · simpa using h.stack

-- A file that was written is read as what was written exactly if its texts are texts and its stack
-- is not too long for an array.
theorem read_write_iff {s : Snapshot t} (h : s.Fits) (hfault : s.fault.isText = true) :
    (read t s.write = .ok s ↔ (s.image.isText = true ∧ s.word.isText = true) ∧
      (isByte t = true ∨ s.stack.length ≤ maxElements)) ∧
    (read t s.write ≠ .ok s → ∃ error, read t s.write = .error error) := by
  by_cases hstack : isByte t = true ∨ s.stack.length ≤ maxElements
  · have hread : read t s.write = ofItem t s.toItem := by
      simp only [read, parse_write h hstack]
      rfl
    by_cases htexts : s.word.isText = true ∧ s.image.isText = true
    · have hok : read t s.write = .ok s := hread.trans (ofItem_of_text htexts.1 htexts.2 hfault)
      exact ⟨⟨fun _ => ⟨htexts.symm, hstack⟩, fun _ => hok⟩, fun hne => absurd hok hne⟩
    · have herror : read t s.write = .error .badText := hread.trans (ofItem_badText htexts)
      rw [herror]
      refine ⟨⟨?_, fun hall => absurd hall.1.symm htexts⟩, fun _ => ⟨_, rfl⟩⟩
      intro hok
      cases hok
  · rw [not_or, Nat.not_le] at hstack
    have herror : read t s.write = .error .tooManyElements := by
      simp only [read, parse_write_overfull h hstack.1 hstack.2]
      rfl
    rw [herror]
    refine ⟨⟨?_, ?_⟩, fun _ => ⟨_, rfl⟩⟩
    · intro hok
      cases hok
    · rintro ⟨-, hbyte | hle⟩
      · exact absurd hbyte hstack.1
      · omega

end Snapshot

namespace Emulator

variable {registers stack memory : Int}

theorem snapshot_eq (e : Emulator t) : e.snapshot =
    { word := e.config.word, image := e.name, pc := e.machine.pc,
      state := Int64.ofInt e.machine.status.code, steps := e.machine.steps,
      flags := e.machine.flags, registers := e.machine.registers.values.toList,
      stack := e.machine.stack.words.toList, memory := e.machine.memory.bytes.toList,
      fault := e.machine.status.faultText } := by
  rw [snapshot]
  cases e.machine.status <;> rfl

theorem isText_snapshot_fault (e : Emulator t) : e.snapshot.fault.isText = true := by
  rw [snapshot_eq]
  exact e.machine.status.isText_faultText

theorem snapshot_fits {e : Emulator t} (h : e.machine.Reachable registers stack memory)
    (hname : e.name.length < Cbor.maxLength) (hword : e.config.word.length < Cbor.maxLength) :
    e.snapshot.Fits := by
  have hinvariant := h.invariant
  obtain ⟨hregisters, hstack, hmemory⟩ := h.bounds
  have hfault : e.snapshot.fault.length ≤ 4000 := by
    rw [snapshot_eq]
    exact h.length_faultText_le
  have hlimit : hostLimit = 281474976710656 := by decide
  have hlength : Cbor.maxLength = 9223372036854775808 := by decide
  refine ⟨hword, hname, ?_, ?_, ?_, by omega⟩
  · have hcount : e.machine.registers.values.size = registers.toNat := hinvariant.registers
    show e.machine.registers.values.toList.length ≤ 131072
    rw [Array.length_toList]
    omega
  · have hroom : e.machine.stack.words.size ≤ stack.toNat := hinvariant.stack.2
    -- a word takes at least one byte
    have hbytes : stack * 1 ≤ stack * t.bytes := by
      have hpos := t.bytes_pos
      exact Int.mul_le_mul_of_nonneg_left (by omega) hstack.1
    show e.machine.stack.words.toList.length < Cbor.maxLength
    rw [Array.length_toList]
    omega
  · have hsize : e.machine.memory.bytes.size = memory.toNat := hinvariant.memory
    show e.machine.memory.bytes.toList.length < Cbor.maxLength
    rw [Array.length_toList]
    omega

-- The file of an emulator in any state is read as that state if the names are texts and the stack
-- has no more words than an array may have elements, which does not matter for plain bytes.
-- Otherwise it is not read at all. No host has names of `maxLength` bytes.
theorem snapshot_round_trip (e : Emulator t) (h : e.machine.Reachable registers stack memory)
    (hname : e.name.length < Cbor.maxLength) (hword : e.config.word.length < Cbor.maxLength) :
    (Snapshot.read t e.snapshot.write = .ok e.snapshot ↔
      (e.name.isText = true ∧ e.config.word.isText = true) ∧
        (t = ⟨.one, false⟩ ∨ e.machine.stack.words.size ≤ 131072)) ∧
    (Snapshot.read t e.snapshot.write ≠ .ok e.snapshot →
      ∃ error, Snapshot.read t e.snapshot.write = .error error) := by
  have hbyte : Snapshot.isByte t = true ↔ t = ⟨.one, false⟩ := by simp [Snapshot.isByte]
  have hread := Snapshot.read_write_iff (snapshot_fits h hname hword) e.isText_snapshot_fault
  have hwords : e.snapshot.stack.length = e.machine.stack.words.size := Array.length_toList
  rw [hbyte, hwords] at hread
  exact hread

-- A machine that returned to a negative offset and failed there with a word on its stack, under a
-- name that is a text and under one that is none.
theorem snapshot_round_trip_negative_offset :
    ∃ m : Machine ⟨.eight, true⟩, m.Reachable 2 4 3 ∧ m.pc = -1 ∧ m.stack.words = #[-1] ∧
      m.status.code = 2 ∧
      Snapshot.read ⟨.eight, true⟩ (snapshot ⟨m, small, octets "a", #[], false⟩).write =
        .ok (snapshot ⟨m, small, octets "a", #[], false⟩) ∧
      ∃ error, Snapshot.read ⟨.eight, true⟩ (snapshot ⟨m, small, [0xff], #[], false⟩).write =
        .error error := by
  have hmake : Machine.make ⟨.eight, true⟩ 2 4 3 0 false = .ok _ := rfl
  have hran := Machine.Reachable.apply (.run 5 #[0x0f, 0, 0x10, 0, 0x10, 0, 0x17]) (.make hmake) rfl
  have htext := snapshot_round_trip ⟨_, small, octets "a", #[], false⟩ hran (by decide) (by decide)
  have hnone := snapshot_round_trip ⟨_, small, [0xff], #[], false⟩ hran (by decide) (by decide)
  refine ⟨_, hran, by decide +kernel, by decide +kernel, rfl,
    htext.1.mpr ⟨⟨by decide, by decide⟩, .inr (by decide +kernel)⟩, hnone.2 ?_⟩
  intro hok
  exact absurd (hnone.1.mp hok).1.1 (by decide)

end Emulator

end RegisterMachine
