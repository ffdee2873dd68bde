import RegisterMachine.Machine.State
import RegisterMachine.Proofs.Spelling
import RegisterMachine.Proofs.WordValue

namespace RegisterMachine

variable {t : WordType}

theorem Status.code_eq_of_text {status status' : Status} (h : status.text = status'.text) :
    status.code = status'.code := by
  have hcode : Status.textOfCode status.code = Status.textOfCode status'.code := h
  cases status <;> cases status' <;> simp [Status.code, Status.textOfCode] at hcode ⊢

theorem Flags.text_injective : Function.Injective Flags.text := by
  intro flags flags' h
  obtain ⟨zero, negative, positive⟩ := flags
  obtain ⟨zero', negative', positive'⟩ := flags'
  have hletter {c : Char} (hc : c ≠ '-') {b b' : Bool}
      (hb : (if b then c else '-') = if b' then c else '-') : b = b' := by
    cases b <;> cases b' <;> grind
  have hletters := String.ofList_injective h
  simp only [List.cons.injEq, and_true] at hletters
  obtain ⟨hzero, hnegative, hpositive⟩ := hletters
  rw [hletter (by decide) hzero, hletter (by decide) hnegative, hletter (by decide) hpositive]

namespace Stack

def wordsText (stack : Stack t) : String :=
  String.intercalate " " (stack.words.toList.map (Text.decimal ·.value))

-- The row of a stack, without its name.
def text (stack : Stack t) : String :=
  "[" ++ stack.wordsText ++ "] " ++ Text.decimal stack.words.size ++ "/" ++
    Text.decimal stack.capacity

theorem notMem_wordsText {c : Char} (hnumeral : Text.isNumeral c = false) (hblank : c ≠ ' ')
    (stack : Stack t) : c ∉ stack.wordsText.toList := by
  intro hmem
  rcases Text.mem_intercalate hmem with hseparator | ⟨x, hx, hc⟩
  · exact hblank (List.mem_singleton.mp hseparator)
  · obtain ⟨w, -, rfl⟩ := List.mem_map.mp hx
    exact Text.notMem_decimal hnumeral w.value hc

theorem newline_notMem_text (stack : Stack t) : '\n' ∉ stack.text.toList := by
  have hwords := stack.notMem_wordsText (c := '\n') (by decide) (by decide)
  have hdecimal (n : Int) : '\n' ∉ (Text.decimal n).toList :=
    Text.notMem_decimal (by decide) n
  simp only [text, String.toList_append, List.mem_append, not_or]
  exact ⟨⟨⟨⟨⟨by decide, hwords⟩, by decide⟩, hdecimal _⟩, by decide⟩, hdecimal _⟩

theorem words_eq_of_wordsText {stack stack' : Stack t} (h : stack.wordsText = stack'.wordsText) :
    stack.words = stack'.words := by
  have hfields (stack : Stack t) :
      ∀ x ∈ stack.words.toList.map (Text.decimal ·.value), x ≠ "" ∧ ' ' ∉ x.toList := by
    intro x hx
    obtain ⟨w, -, rfl⟩ := List.mem_map.mp hx
    exact ⟨Text.decimal_ne_empty _, Text.notMem_decimal (by decide) _⟩
  have htexts := Text.intercalate_inj (by decide) (hfields stack) (hfields stack') h
  have hword : Function.Injective fun w : Word t => Text.decimal w.value :=
    fun w w' heq => Word.value_inj.mp (Text.decimal_injective heq)
  exact Array.toList_inj.mp (hword.list_map htexts)

-- A bracket ends the words and a slash their number; neither stands in a number.
theorem text_injective : Function.Injective (text : Stack t → String) := by
  intro stack stack' h
  simp only [text, String.append_assoc, String.append_right_inj] at h
  have hwords (stack : Stack t) : ']' ∉ stack.wordsText.toList :=
    stack.notMem_wordsText (by decide) (by decide)
  have hsize (n : Int) : '/' ∉ (Text.decimal n).toList :=
    Text.notMem_decimal (by decide) n
  obtain ⟨htexts, h⟩ := Text.field_inj (by decide) (hwords stack) (hwords stack') h
  obtain ⟨-, hcapacity⟩ := Text.field_inj (by decide) (hsize _) (hsize _) h
  obtain ⟨words, capacity⟩ := stack
  obtain ⟨words', capacity'⟩ := stack'
  rw [Stack.mk.injEq]
  exact ⟨words_eq_of_wordsText htexts, Int.ofNat.inj (Text.decimal_injective hcapacity)⟩

end Stack

namespace Machine

-- A row of the dump without its end.
def line (name value : String) : String := Text.alignRight 5 name ++ ": " ++ value

theorem line_inj {name value value' : String} (h : line name value = line name value') :
    value = value' :=
  (String.append_right_inj _).mp h

def registerLines (n : Nat) : List (Word t) → List String
  | [] => []
  | w :: rest => line ("r" ++ Text.decimal n) (Text.decimal w.value) :: registerLines (n + 1) rest

def dumpLines (m : Machine t) : List String :=
  [line "pc" (Text.hex 4 m.pc.toInt), line "state" m.status.text,
    line "steps" (Text.decimal m.steps.toNat), line "flags" m.flags.text] ++
    (registerLines 0 m.registers.values.toList ++ [line "stack" m.stack.text])

theorem registerRows_eq_join (n : Nat) (words : List (Word t)) :
    registerRows n words = String.join ((registerLines n words).map (· ++ "\n")) := by
  induction words generalizing n with
  | nil => rfl
  | cons w rest ih =>
    rw [registerRows, registerLines, List.map_cons, String.join_cons, ← ih]
    rfl

theorem dump_eq_join (m : Machine t) :
    m.dump = String.join (m.dumpLines.map (· ++ "\n")) := by
  rw [dumpLines, List.map_append, List.map_append, String.join_append, String.join_append,
    ← registerRows_eq_join]
  simp [dump, row, line, Stack.text, Stack.wordsText, String.append_assoc]

theorem newline_notMem_line {name value : String} (hname : '\n' ∉ name.toList)
    (hvalue : '\n' ∉ value.toList) : '\n' ∉ (line name value).toList := by
  have hblanks (count : Nat) : '\n' ∉ List.replicate count ' ' := by
    intro hmem
    exact absurd (List.eq_of_mem_replicate hmem) (by decide)
  simp only [line, Text.alignRight, String.toList_append, String.toList_ofList, List.mem_append,
    not_or]
  exact ⟨⟨⟨hblanks _, hname⟩, by decide⟩, hvalue⟩

theorem newline_notMem_registerLines (n : Nat) (words : List (Word t)) :
    ∀ x ∈ registerLines n words, '\n' ∉ x.toList := by
  have hdecimal (n : Int) : '\n' ∉ (Text.decimal n).toList :=
    Text.notMem_decimal (by decide) n
  induction words generalizing n with
  | nil => simp [registerLines]
  | cons w rest ih =>
    intro x hx
    rcases List.mem_cons.mp hx with rfl | hmem
    · refine newline_notMem_line ?_ (hdecimal _)
      rw [String.toList_append, List.mem_append, not_or]
      exact ⟨by decide, hdecimal n⟩
    · exact ih (n + 1) x hmem

theorem newline_notMem_dumpLines (m : Machine t) : ∀ x ∈ m.dumpLines, '\n' ∉ x.toList := by
  have hstatus : '\n' ∉ m.status.text.toList := by
    cases m.status with
    | running | halted => decide
    | failed fault =>
      show '\n' ∉ (Status.textOfCode 2).toList
      decide
  have hflags : '\n' ∉ m.flags.text.toList := by
    obtain ⟨zero, negative, positive⟩ := m.flags
    cases zero <;> cases negative <;> cases positive <;> decide
  have hpc : '\n' ∉ (Text.hex 4 m.pc.toInt).toList :=
    Text.notMem_hex (by decide) 4 _
  have hsteps : '\n' ∉ (Text.decimal m.steps.toNat).toList :=
    Text.notMem_decimal (by decide) _
  intro x hx
  simp only [dumpLines, List.mem_append, List.mem_cons, List.not_mem_nil, or_false] at hx
  rcases hx with (rfl | rfl | rfl | rfl) | hregister | rfl
  · exact newline_notMem_line (by decide) hpc
  · exact newline_notMem_line (by decide) hstatus
  · exact newline_notMem_line (by decide) hsteps
  · exact newline_notMem_line (by decide) hflags
  · exact newline_notMem_registerLines 0 _ x hregister
  · exact newline_notMem_line (by decide) m.stack.newline_notMem_text

theorem registerLines_inj {n : Nat} {words words' : List (Word t)}
    (h : registerLines n words = registerLines n words') : words = words' := by
  induction words generalizing n words' with
  | nil =>
    cases words' with
    | nil => rfl
    | cons w' rest' => cases h
  | cons w rest ih =>
    cases words' with
    | nil => cases h
    | cons w' rest' =>
      obtain ⟨hline, hrest⟩ := List.cons.inj h
      have hvalue := Text.decimal_injective (line_inj hline)
      rw [Word.value_inj.mp hvalue, ih hrest]

-- The rows are compared from the top, and what is left of them from the stack up: the registers
-- are all between.
theorem shown_of_dumpLines {m m' : Machine t} (h : m.dumpLines = m'.dumpLines) :
    m.pc = m'.pc ∧ m.status.code = m'.status.code ∧ m.steps = m'.steps ∧ m.flags = m'.flags ∧
      m.registers = m'.registers ∧ m.stack = m'.stack := by
  simp only [dumpLines, List.cons_append, List.nil_append, List.cons.injEq] at h
  obtain ⟨hpc, hstatus, hsteps, hflags, hrest⟩ := h
  obtain ⟨hregisters, hstack⟩ := List.append_inj' hrest (by simp)
  rw [List.singleton_inj] at hstack
  refine ⟨?_, Status.code_eq_of_text (line_inj hstatus), ?_, Flags.text_injective (line_inj hflags),
    ?_, Stack.text_injective (line_inj hstack)⟩
  · exact Int64.toInt_inj.mp (Text.hex_injective 4 (line_inj hpc))
  · have hnumber := Text.decimal_injective (line_inj hsteps)
    exact UInt64.toNat_inj.mp (Int.ofNat.inj hnumber)
  · exact congrArg Registers.mk (Array.toList_inj.mp (registerLines_inj hregisters))

-- Two machines, in whatever state, have the same dump exactly if they have the same in everything
-- that it shows: the program counter, the run state less the fault, the number of steps, the flags,
-- every register and the stack with its capacity.
theorem dump_shows_state (t : WordType) (m m' : Machine t) :
    m.dump = m'.dump ↔
      m.pc = m'.pc ∧ m.status.code = m'.status.code ∧ m.steps = m'.steps ∧ m.flags = m'.flags ∧
        m.registers = m'.registers ∧ m.stack = m'.stack := by
  constructor
  · intro h
    rw [dump_eq_join, dump_eq_join] at h
    exact shown_of_dumpLines
      (Text.join_lines_inj m.newline_notMem_dumpLines m'.newline_notMem_dumpLines h)
  · rintro ⟨hpc, hstatus, hsteps, hflags, hregisters, hstack⟩
    rw [dump, dump, Status.text, Status.text, hpc, hstatus, hsteps, hflags, hregisters, hstack]

end Machine

end RegisterMachine
