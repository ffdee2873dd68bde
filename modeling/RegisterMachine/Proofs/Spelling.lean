import Mathlib
import RegisterMachine.Fault
import RegisterMachine.Toml.Scan

namespace RegisterMachine

namespace Toml

theorem digitValue_digitChar {d : Nat} (h : d < 16) : digitValue d.digitChar = d := by
  interval_cases d <;> decide

theorem isHexDigit_digitChar {d : Nat} (h : d < 16) : isHexDigit d.digitChar = true := by
  interval_cases d <;> decide

variable {base : Nat}

-- Digits spell the number that they are the digits of.
theorem number_digits (hbase : 1 < base ∧ base ≤ 16) (n : Nat) :
    number base (Text.digits base n) = n := by
  induction n using Nat.strong_induction_on with
  | _ n ih =>
    rw [Text.digits, Nat.toDigits_eq_if hbase.1]
    split_ifs with hlt
    · simp [number, digitValue_digitChar (hlt.trans_le hbase.2)]
    · have hpos : 0 < n := by omega
      have hhigh : number base (Text.digits base (n / base)) = n / base :=
        ih (n / base) (Nat.div_lt_self hpos hbase.1)
      have hlow : digitValue (n % base).digitChar = n % base :=
        digitValue_digitChar ((Nat.mod_lt n (by omega)).trans_le hbase.2)
      rw [number, List.foldl_append]
      show base * number base (Text.digits base (n / base)) + digitValue (n % base).digitChar = n
      rw [hhigh, hlow, Nat.div_add_mod]

theorem number_padZeros (width : Nat) (cs : List Char) :
    number base (Text.padZeros width cs) = number base cs := by
  have hzeros (count : Nat) : number base (List.replicate count '0') = 0 := by
    induction count with
    | zero => rfl
    | succ count ih =>
      rw [List.replicate_succ', number, List.foldl_append, ← number, ih]
      simp [digitValue]
  rw [Text.padZeros, number, List.foldl_append, ← number, hzeros, ← number]

theorem isHexDigit_of_mem_digits (hbase : 1 < base ∧ base ≤ 16) {n : Nat} {c : Char}
    (h : c ∈ Text.digits base n) : isHexDigit c = true := by
  induction n using Nat.strong_induction_on with
  | _ n ih =>
    rw [Text.digits, Nat.toDigits_eq_if hbase.1] at h
    split_ifs at h with hlt
    · rw [List.mem_singleton.mp h]
      exact isHexDigit_digitChar (hlt.trans_le hbase.2)
    · rcases List.mem_append.mp h with hhigh | hlow
      · exact ih (n / base) (Nat.div_lt_self (by omega) hbase.1) hhigh
      · rw [List.mem_singleton.mp hlow]
        exact isHexDigit_digitChar ((Nat.mod_lt n (by omega)).trans_le hbase.2)

end Toml

namespace Text

open Toml

section Numerals

variable {base : Nat} (hbase : 1 < base ∧ base ≤ 16)
include hbase

theorem digits_injective : Function.Injective (digits base) :=
  Function.LeftInverse.injective (number_digits hbase)

theorem padZeros_digits_injective (width : Nat) :
    Function.Injective fun n => padZeros width (digits base n) := by
  apply Function.LeftInverse.injective (g := number base)
  intro n
  rw [number_padZeros, number_digits hbase]

theorem notMem_digits {c : Char} (hc : isHexDigit c = false) (n : Nat) : c ∉ digits base n := by
  intro h
  rw [isHexDigit_of_mem_digits hbase h] at hc
  cases hc

theorem notMem_padZeros_digits {c : Char} (hc : isHexDigit c = false) (width n : Nat) :
    c ∉ padZeros width (digits base n) := by
  intro h
  rcases List.mem_append.mp h with hzero | hdigit
  · rw [List.eq_of_mem_replicate hzero] at hc
    exact absurd hc (by decide)
  · exact notMem_digits hbase hc n hdigit

end Numerals

-- The characters of numbers.
def isNumeral (c : Char) : Bool := isHexDigit c || c = '-'

-- A sign in front of digits is told from a digit, and then the digits tell the rest.
theorem signed_injective {plain negated : Nat → List Char} (hplain : Function.Injective plain)
    (hnegated : Function.Injective negated) (hsign : ∀ k, '-' ∉ plain k) :
    Function.Injective fun n : Int =>
      if n < 0 then '-' :: negated n.natAbs else plain n.natAbs := by
  intro n m h
  have hdiffer (j k : Nat) : '-' :: negated j ≠ plain k :=
    fun heq => hsign k (heq ▸ List.mem_cons_self)
  simp only at h
  split_ifs at h with hn hm hm
  · have habs := hnegated (List.cons.inj h).2
    omega
  · exact absurd h (hdiffer _ _)
  · exact absurd h.symm (hdiffer _ _)
  · have habs := hplain h
    omega

theorem decimal_injective : Function.Injective decimal := by
  intro n m h
  exact signed_injective (digits_injective (by decide)) (digits_injective (by decide))
    (notMem_digits (by decide) (by decide)) (String.ofList_injective h)

theorem decimal_ne_empty (n : Int) : decimal n ≠ "" := by
  have hdigits : digits 10 n.natAbs ≠ [] := Nat.toDigits_ne_nil
  rw [decimal, Ne, String.ofList_eq_empty_iff]
  by_cases hneg : n < 0
  · rw [if_pos hneg]
    exact List.cons_ne_nil _ _
  · rw [if_neg hneg]
    exact hdigits

theorem hex_injective (width : Nat) : Function.Injective (hex width) := by
  intro n m h
  exact signed_injective (padZeros_digits_injective (by decide) width)
    (padZeros_digits_injective (by decide) (width - 1))
    (notMem_padZeros_digits (by decide) (by decide) width) (String.ofList_injective h)

-- Grouping loses nothing: without the separators the digits are what they were.
theorem filter_groupThrees {separator : Char} {cs : List Char} (h : separator ∉ cs) :
    (groupThrees separator cs).filter (· ≠ separator) = cs := by
  induction cs with
  | nil => rfl
  | cons c rest ih =>
    rw [List.mem_cons, not_or] at h
    have hrest := ih h.2
    have hc : c ≠ separator := Ne.symm h.1
    rw [groupThrees]
    split_ifs
    · rw [List.filter_cons_of_pos (by simpa using hc), List.filter_cons_of_neg (by simp), hrest]
    · rw [List.filter_cons_of_pos (by simpa using hc), hrest]

theorem mem_groupThrees {separator c : Char} {cs : List Char} (h : c ∈ groupThrees separator cs) :
    c = separator ∨ c ∈ cs := by
  induction cs with
  | nil => cases h
  | cons d rest ih =>
    rw [groupThrees] at h
    split_ifs at h <;> grind

theorem grouped_injective {separator : Char} (h : isNumeral separator = false) :
    Function.Injective (grouped separator) := by
  rw [isNumeral, Bool.or_eq_false_iff, decide_eq_false_iff_not] at h
  obtain ⟨hdigit, hsign⟩ := h
  intro n m h
  have hseparator (k : Nat) : separator ∉ digits 10 k := notMem_digits (by decide) hdigit k
  have hinjective : Function.Injective fun k => groupThrees separator (digits 10 k) := by
    intro j k hjk
    have hfilter := congrArg (List.filter (· ≠ separator)) hjk
    simp only [filter_groupThrees (hseparator _)] at hfilter
    exact digits_injective (by decide) hfilter
  have hunsigned (k : Nat) : '-' ∉ groupThrees separator (digits 10 k) := by
    intro hmem
    rcases mem_groupThrees hmem with heq | hdigit
    · exact hsign heq.symm
    · exact notMem_digits (by decide) (by decide) k hdigit
  exact signed_injective hinjective hinjective hunsigned (String.ofList_injective h)

section Characters

variable {c : Char} (hc : isNumeral c = false)
include hc

theorem notMem_signed {cs : List Char} (hcs : c ∉ cs) (n : Int) :
    c ∉ if n < 0 then '-' :: cs else cs := by
  rw [isNumeral, Bool.or_eq_false_iff, decide_eq_false_iff_not] at hc
  by_cases hneg : n < 0
  · rw [if_pos hneg]
    exact List.not_mem_cons_of_ne_of_not_mem hc.2 hcs
  · rw [if_neg hneg]
    exact hcs

theorem isHexDigit_eq_false : isHexDigit c = false := by
  rw [isNumeral, Bool.or_eq_false_iff] at hc
  exact hc.1

theorem notMem_decimal (n : Int) : c ∉ (decimal n).toList := by
  rw [decimal, String.toList_ofList]
  exact notMem_signed hc (notMem_digits (by decide) (isHexDigit_eq_false hc) _) n

theorem notMem_hex (width : Nat) (n : Int) : c ∉ (hex width n).toList := by
  have hdigits (count : Nat) : c ∉ padZeros count (digits 16 n.natAbs) :=
    notMem_padZeros_digits (by decide) (isHexDigit_eq_false hc) count _
  rw [hex, String.toList_ofList]
  by_cases hneg : n < 0
  · have hsigned := notMem_signed hc (hdigits (width - 1)) n
    rwa [if_pos hneg] at hsigned ⊢
  · rw [if_neg hneg]
    exact hdigits width

theorem notMem_grouped {separator : Char} (hseparator : c ≠ separator) (n : Int) :
    c ∉ (grouped separator n).toList := by
  have hgroups : c ∉ groupThrees separator (digits 10 n.natAbs) := by
    intro hmem
    rcases mem_groupThrees hmem with heq | hmem
    · exact hseparator heq
    · exact notMem_digits (by decide) (isHexDigit_eq_false hc) _ hmem
  simp only [grouped, String.toList_ofList]
  exact notMem_signed hc hgroups n

end Characters

section Fields

variable {c : Char} {a a' b b' separator : String}

-- A text that is empty or begins with `c`.
def GoesOn (c : Char) (text : String) : Prop := ∀ d ∈ text.toList.head?, d = c

-- Fields without a `c` that are followed, if at all, by a `c`.
theorem toList_append_inj {cs cs' ds ds' : List Char} (hcs : c ∉ cs) (hcs' : c ∉ cs')
    (hds : ∀ d ∈ ds.head?, d = c) (hds' : ∀ d ∈ ds'.head?, d = c) (h : cs ++ ds = cs' ++ ds') :
    cs = cs' ∧ ds = ds' := by
  -- If one field were longer, it would hold the `c` behind the other.
  induction cs generalizing cs' with
  | nil =>
    cases cs' with
    | nil => exact ⟨rfl, h⟩
    | cons d rest =>
      rw [List.nil_append] at h
      obtain rfl : d = c := hds d (by rw [h]; rfl)
      exact absurd List.mem_cons_self hcs'
  | cons d rest ih =>
    cases cs' with
    | nil =>
      rw [List.nil_append] at h
      obtain rfl : d = c := hds' d (by rw [← h]; rfl)
      exact absurd List.mem_cons_self hcs
    | cons d' rest' =>
      obtain ⟨rfl, hrest⟩ := List.cons.inj h
      obtain ⟨rfl, rfl⟩ := ih (fun hmem => hcs (List.mem_cons_of_mem d hmem))
        (fun hmem => hcs' (List.mem_cons_of_mem d hmem)) hrest
      exact ⟨rfl, rfl⟩

theorem append_inj_of_notMem (ha : c ∉ a.toList) (ha' : c ∉ a'.toList)
    (hb : GoesOn c b) (hb' : GoesOn c b') (h : a ++ b = a' ++ b') : a = a' ∧ b = b' := by
  have hlists : a.toList ++ b.toList = a'.toList ++ b'.toList := by
    rw [← String.toList_append, h, String.toList_append]
  obtain ⟨hfield, hrest⟩ := toList_append_inj ha ha' hb hb' hlists
  exact ⟨String.toList_inj.mp hfield, String.toList_inj.mp hrest⟩

theorem head?_append (hseparator : separator.toList.head? = some c) (b : String) :
    (separator ++ b).toList.head? = some c := by
  rw [String.toList_append, List.head?_append, hseparator]
  rfl

theorem goesOn_append (hseparator : separator.toList.head? = some c) (b : String) :
    GoesOn c (separator ++ b) := by
  intro d hd
  rw [head?_append hseparator b] at hd
  exact (Option.some.inj hd).symm

theorem goesOn_ite {p : Prop} [Decidable p] (hseparator : separator.toList.head? = some c)
    (b : String) : GoesOn c (if p then "" else separator ++ b) := by
  split_ifs
  · intro d hd
    cases hd
  · exact goesOn_append hseparator b

-- A field ends where the separator behind it begins.
theorem field_inj (hseparator : separator.toList.head? = some c) (ha : c ∉ a.toList)
    (ha' : c ∉ a'.toList) (h : a ++ (separator ++ b) = a' ++ (separator ++ b')) :
    a = a' ∧ b = b' := by
  obtain ⟨hfield, hrest⟩ := append_inj_of_notMem ha ha' (goesOn_append hseparator b)
    (goesOn_append hseparator b') h
  exact ⟨hfield, (String.append_right_inj separator).mp hrest⟩

theorem intercalate_cons (separator x : String) (xs : List String) :
    separator.intercalate (x :: xs) =
      x ++ if xs = [] then "" else separator ++ separator.intercalate xs := by
  cases xs with
  | nil => simp
  | cons y rest => simp [String.intercalate_cons_cons, String.append_assoc]

-- Fields with separators between them are told apart, and so is their number if none is empty.
theorem intercalate_inj (hseparator : separator.toList.head? = some c) {xs ys : List String}
    (hxs : ∀ x ∈ xs, x ≠ "" ∧ c ∉ x.toList) (hys : ∀ y ∈ ys, y ≠ "" ∧ c ∉ y.toList)
    (h : separator.intercalate xs = separator.intercalate ys) : xs = ys := by
  have hempty {x : String} {rest : List String} (hx : x ≠ "") :
      separator.intercalate (x :: rest) ≠ "" := by
    rw [intercalate_cons, Ne, String.append_eq_empty_iff]
    exact fun heq => hx heq.1
  have hne (b : String) : separator ++ b ≠ "" := by
    intro heq
    have hhead := head?_append hseparator b
    rw [heq] at hhead
    cases hhead
  induction xs generalizing ys with
  | nil =>
    cases ys with
    | nil => rfl
    | cons y rest => exact absurd h.symm (hempty (hys y List.mem_cons_self).1)
  | cons x xs ih =>
    cases ys with
    | nil => exact absurd h (hempty (hxs x List.mem_cons_self).1)
    | cons y ys =>
      rw [intercalate_cons, intercalate_cons] at h
      obtain ⟨rfl, hrest⟩ := append_inj_of_notMem (hxs x List.mem_cons_self).2
        (hys y List.mem_cons_self).2 (goesOn_ite hseparator _) (goesOn_ite hseparator _) h
      congr 1
      -- No separator means no further field, so the lists end together.
      split_ifs at hrest with hnil hnil' hnil'
      · rw [hnil, hnil']
      · exact absurd hrest.symm (hne _)
      · exact absurd hrest (hne _)
      · exact ih (fun z hz => hxs z (List.mem_cons_of_mem x hz))
          (fun z hz => hys z (List.mem_cons_of_mem x hz))
          ((String.append_right_inj separator).mp hrest)

theorem mem_intercalate {xs : List String} (h : c ∈ (separator.intercalate xs).toList) :
    c ∈ separator.toList ∨ ∃ x ∈ xs, c ∈ x.toList := by
  induction xs with
  | nil => cases h
  | cons x xs ih =>
    rw [intercalate_cons, String.toList_append, List.mem_append] at h
    rcases h with hx | hrest
    · exact .inr ⟨x, List.mem_cons_self, hx⟩
    · split_ifs at hrest
      · cases hrest
      · rw [String.toList_append, List.mem_append] at hrest
        rcases hrest with hseparator | hmem
        · exact .inl hseparator
        · obtain hseparator | ⟨y, hy, hc⟩ := ih hmem
          · exact .inl hseparator
          · exact .inr ⟨y, List.mem_cons_of_mem x hy, hc⟩

-- Lines are told apart by the line ends behind them.
theorem join_lines_inj {xs ys : List String} (hxs : ∀ x ∈ xs, '\n' ∉ x.toList)
    (hys : ∀ y ∈ ys, '\n' ∉ y.toList)
    (h : String.join (xs.map (· ++ "\n")) = String.join (ys.map (· ++ "\n"))) : xs = ys := by
  have hne (x rest : String) : x ++ ("\n" ++ rest) ≠ "" := by
    simp [String.append_eq_empty_iff]
  induction xs generalizing ys with
  | nil =>
    cases ys with
    | nil => rfl
    | cons y ys =>
      rw [List.map_nil, List.map_cons, String.join_nil, String.join_cons,
        String.append_assoc] at h
      exact absurd h.symm (hne _ _)
  | cons x xs ih =>
    cases ys with
    | nil =>
      rw [List.map_nil, List.map_cons, String.join_nil, String.join_cons,
        String.append_assoc] at h
      exact absurd h (hne _ _)
    | cons y ys =>
      rw [List.map_cons, List.map_cons, String.join_cons, String.join_cons, String.append_assoc,
        String.append_assoc] at h
      obtain ⟨rfl, hrest⟩ := field_inj (by decide) (hxs x List.mem_cons_self)
        (hys y List.mem_cons_self) h
      rw [ih (fun z hz => hxs z (List.mem_cons_of_mem x hz))
        (fun z hz => hys z (List.mem_cons_of_mem x hz)) hrest]

end Fields

end Text

namespace Opcode

theorem mem_all (op : Opcode) : op ∈ all := by
  cases op <;> decide

theorem mnemonic_injective : Function.Injective mnemonic := by
  have hnodup : (all.map mnemonic).Nodup := by decide
  intro op op' h
  exact List.inj_on_of_nodup_map hnodup op.mem_all op'.mem_all h

theorem notMem_mnemonic {c : Char} (hc : c.isUpper = false) (op : Opcode) :
    c ∉ op.mnemonic.toList := by
  have hupper : op.mnemonic.toList.all Char.isUpper = true := by
    cases op <;> rfl
  intro hmem
  rw [List.all_eq_true.mp hupper c hmem] at hc
  cases hc

-- The characters that end the name of an opcode in a text.
theorem notMem_text {c : Char} (hc : c = ' ' ∨ c = ':') (code : UInt8) :
    c ∉ (text code).toList := by
  have hupper : c.isUpper = false := by
    rcases hc with rfl | rfl <;> decide
  have hhex : c ∉ (Text.hex 2 code.toNat).toList := by
    rcases hc with rfl | rfl <;> exact Text.notMem_hex (by decide) 2 _
  have hframe : c ∉ "Opcode(0x".toList ∧ c ∉ ")".toList := by
    rcases hc with rfl | rfl <;> decide
  unfold text
  cases ofByte? code with
  | some op => exact notMem_mnemonic hupper op
  | none =>
    simp only [String.toList_append, List.mem_append, not_or]
    exact ⟨⟨hframe.1, hhex⟩, hframe.2⟩

theorem mnemonic_ne_unassigned (op : Opcode) (digits : String) :
    op.mnemonic ≠ "Opcode(0x" ++ digits ++ ")" := by
  intro h
  have hmem : '(' ∈ op.mnemonic.toList := by
    rw [h]
    simp
  exact notMem_mnemonic (by decide) op hmem

theorem text_injective : Function.Injective text := by
  intro code code' h
  cases hop : ofByte? code with
  | some op =>
    cases hop' : ofByte? code' with
    | some op' =>
      simp only [text, hop, hop'] at h
      rw [← byte_of_ofByte? hop, ← byte_of_ofByte? hop', mnemonic_injective h]
    | none =>
      simp only [text, hop, hop'] at h
      exact absurd h (mnemonic_ne_unassigned op _)
  | none =>
    cases hop' : ofByte? code' with
    | some op' =>
      simp only [text, hop, hop'] at h
      exact absurd h.symm (mnemonic_ne_unassigned op' _)
    | none =>
      simp only [text, hop, hop', String.append_left_inj, String.append_right_inj] at h
      exact UInt8.toNat_inj.mp (Int.ofNat.inj (Text.hex_injective 2 h))

end Opcode

end RegisterMachine
