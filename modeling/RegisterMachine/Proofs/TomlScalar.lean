import RegisterMachine.Config.File
import RegisterMachine.Proofs.FaultText
import RegisterMachine.Proofs.Spelling

namespace RegisterMachine.Toml

-- What stands in front of the digits of a number.
inductive Sign where
  | none
  | plus
  | minus
deriving DecidableEq

namespace Sign

def text : Sign → List Char
  | none => []
  | plus => ['+']
  | minus => ['-']

-- Whether a number may have the sign.
def Fits : Sign → Int → Prop
  | none, n | plus, n => 0 ≤ n
  | minus, n => n ≤ 0

end Sign

-- Digits with an underscore in front of some of them, told by their places.
def spread (marked : Nat → Bool) (place : Nat) : List Char → List Char
  | [] => []
  | c :: rest =>
    if marked place then '_' :: c :: spread marked (place + 1) rest
    else c :: spread marked (place + 1) rest

-- A way to write a number in decimal: which sign it has, and where underscores stand between its
-- digits.
structure Decimal (n : Int) where
  sign : Sign
  sign_fits : sign.Fits n
  marked : Nat → Bool

namespace Decimal

variable {n : Int}

def text (d : Decimal n) : List Char :=
  d.sign.text ++
    match Text.digits 10 n.natAbs with
    | [] => []
    | c :: rest => c :: spread d.marked 1 rest

-- Digits and nothing else, save for the sign of a negative number.
def plain (n : Int) : Decimal n where
  sign := if n < 0 then .minus else .none
  sign_fits := by
    split_ifs with h
    · exact Int.le_of_lt h
    · exact Int.not_lt.mp h
  marked _ := false

end Decimal

-- Characters are told apart by a class that one belongs to and the other does not.
theorem ne_of_class {p : Char → Bool} {c d : Char} (hc : p c = true) (hd : p d = false) : c ≠ d := by
  rintro rfl
  rw [hc] at hd
  cases hd

theorem cons_ne_of_class {p : Char → Bool} {c d : Char} {cs ds : List Char} (hc : p c = true)
    (hd : p d = false) : c :: cs ≠ d :: ds :=
  fun h => ne_of_class hc hd (List.cons.inj h).1

theorem withoutUnderscores_cons {c : Char} (h : c ≠ '_') (cs : List Char) :
    withoutUnderscores (c :: cs) = c :: withoutUnderscores cs :=
  List.filter_cons_of_pos (by simpa using h)

section Spread

variable (marked : Nat → Bool)

theorem mem_spread {c : Char} {place : Nat} {cs : List Char} (h : c ∈ spread marked place cs) :
    c = '_' ∨ c ∈ cs := by
  induction cs generalizing place with
  | nil => cases h
  | cons d rest ih =>
    rw [spread] at h
    split_ifs at h
    · simp only [List.mem_cons] at h ⊢
      rcases h with hc | hc | hrest
      · exact .inl hc
      · exact .inr (.inl hc)
      · exact (ih hrest).imp_right .inr
    · simp only [List.mem_cons] at h ⊢
      rcases h with hc | hrest
      · exact .inr (.inl hc)
      · exact (ih hrest).imp_right .inr

theorem withoutUnderscores_spread {cs : List Char} (h : ∀ c ∈ cs, c.isDigit = true) (place : Nat) :
    withoutUnderscores (spread marked place cs) = cs := by
  induction cs generalizing place with
  | nil => rfl
  | cons c rest ih =>
    have hc : c ≠ '_' := ne_of_class (h c List.mem_cons_self) (by decide)
    have hrest := ih (fun d hd => h d (List.mem_cons_of_mem c hd)) (place + 1)
    have hkept : withoutUnderscores (c :: spread marked (place + 1) rest) = c :: rest := by
      rw [withoutUnderscores_cons hc, hrest]
    rw [spread]
    split_ifs
    · exact hkept
    · exact hkept

-- Behind a digit both a digit and an underscore may stand.
theorem underscoresFit_spread {cs : List Char} (h : ∀ c ∈ cs, c.isDigit = true) (place : Nat) :
    underscoresFit true (spread marked place cs) = true := by
  induction cs generalizing place with
  | nil => rfl
  | cons c rest ih =>
    have hdigit := h c List.mem_cons_self
    have hc : c ≠ '_' := ne_of_class hdigit (by decide)
    have hhex : isHexDigit c = true := by simp [isHexDigit, hdigit]
    have hrest := ih (fun d hd => h d (List.mem_cons_of_mem c hd)) (place + 1)
    rw [spread]
    split_ifs <;> simp [underscoresFit, hc, hhex, hrest]

end Spread

section Digits

variable {k : Nat}

theorem isDigit_of_mem_digits {c : Char} (h : c ∈ Text.digits 10 k) : c.isDigit = true :=
  Nat.isDigit_of_mem_toDigits (by decide) (by decide) h

theorem head?_digits_ne_zero (h : 0 < k) : (Text.digits 10 k).head? ≠ some '0' := by
  induction k using Nat.strong_induction_on with
  | _ k ih =>
    rw [Text.digits, Nat.toDigits_eq_if (by decide)]
    split_ifs with hlt
    · interval_cases k <;> decide
    · have hne : Nat.toDigits 10 (k / 10) ≠ [] := Nat.toDigits_ne_nil
      rw [List.head?_append_of_ne_nil _ hne]
      exact ih (k / 10) (by omega) (by omega)

-- The digits of a number start with a zero only if that is all there is.
theorem digits_ne_zero_cons {c : Char} {rest : List Char} : Text.digits 10 k ≠ '0' :: c :: rest := by
  intro h
  rcases Nat.eq_zero_or_pos k with rfl | hpos
  · cases h
  · exact head?_digits_ne_zero hpos (by rw [h]; rfl)

theorem number_dropWhile (base : Nat) (cs : List Char) :
    number base (cs.dropWhile (· = '0')) = number base cs := by
  induction cs with
  | nil => rfl
  | cons c rest ih =>
    by_cases hc : c = '0'
    · subst hc
      rw [List.dropWhile_cons_of_pos (by decide), ih]
      simp [number, digitValue]
    · rw [List.dropWhile_cons_of_neg (by simpa using hc)]

end Digits

theorem int64?_digits {n : Int64} {negative : Bool}
    (h : (if negative then -(n.toInt.natAbs : Int) else n.toInt.natAbs) = n.toInt) :
    int64? 10 negative (Text.digits 10 n.toInt.natAbs) = some n.toInt := by
  have hle := n.le_toInt
  have hlt := n.toInt_lt
  have hlength : (Text.digits 10 n.toInt.natAbs).length ≤ 64 :=
    Text.length_digits_le (by decide) (by omega)
  have hfew := (List.length_dropWhile_le (· = '0') (Text.digits 10 n.toInt.natAbs)).trans hlength
  have hrange : -(Nat.pow 2 63 : Int) ≤ n.toInt ∧ n.toInt < (Nat.pow 2 63 : Int) := ⟨hle, hlt⟩
  have hnumber : number 10 (Text.digits 10 n.toInt.natAbs) = n.toInt.natAbs :=
    number_digits (by decide) _
  simp only [int64?, if_neg (Nat.not_lt.mpr hfew), number_dropWhile, hnumber, h, if_pos hrange]

theorem hasLeadingZero_sign (sign : Sign) {c : Char} {more : List Char} (hc : c.isDigit = true)
    (hzero : c = '0' → more = []) : hasLeadingZero (sign.text ++ c :: more) = false := by
  cases sign with
  | none =>
    simp only [Sign.text, List.nil_append]
    unfold hasLeadingZero
    split
    · next h =>
      cases h
      cases hc
    · next h =>
      cases h
      cases hc
    · next h =>
      cases h
      cases hzero rfl
    · rfl
  | plus =>
    simp only [Sign.text, List.singleton_append]
    unfold hasLeadingZero
    split
    · next h => cases h
    · next h =>
      cases h
      cases hzero rfl
    · next h => cases h
    · rfl
  | minus =>
    simp only [Sign.text, List.singleton_append]
    unfold hasLeadingZero
    split
    · next h =>
      cases h
      cases hzero rfl
    · next h => cases h
    · next h => cases h
    · rfl

theorem underscoresFit_sign (sign : Sign) {c : Char} {more : List Char} (hc : c.isDigit = true)
    (hmore : underscoresFit true more = true) :
    underscoresFit false (sign.text ++ c :: more) = true := by
  have hunder : c ≠ '_' := ne_of_class hc (by decide)
  have hhex : isHexDigit c = true := by simp [isHexDigit, hc]
  have hdigits : underscoresFit false (c :: more) = true := by
    simp [underscoresFit, hunder, hhex, hmore]
  cases sign <;> exact hdigits

theorem signed_sign (sign : Sign) {c : Char} {more : List Char} (hc : c.isDigit = true) :
    signed (sign.text ++ c :: more) = (decide (sign = .minus), c :: more) := by
  cases sign with
  | none =>
    simp only [Sign.text, List.nil_append]
    unfold signed
    split
    · next h =>
      cases h
      cases hc
    · next h =>
      cases h
      cases hc
    · rfl
  | plus | minus => rfl

theorem withoutUnderscores_sign (sign : Sign) (cs : List Char) :
    withoutUnderscores (sign.text ++ cs) = sign.text ++ withoutUnderscores cs := by
  cases sign <;> rfl

-- Behind the sign stands a digit, and more digits only if that is not zero.
theorem Decimal.exists_digits {n : Int} (d : Decimal n) :
    ∃ c rest, Text.digits 10 n.natAbs = c :: rest ∧
      d.text = d.sign.text ++ c :: spread d.marked 1 rest ∧ c.isDigit = true ∧
      (∀ e ∈ rest, e.isDigit = true) ∧ (c = '0' → rest = []) := by
  obtain ⟨c, rest, hdigits⟩ : ∃ c rest, Text.digits 10 n.natAbs = c :: rest :=
    List.exists_cons_of_ne_nil Nat.toDigits_ne_nil
  have hall (e : Char) (he : e ∈ c :: rest) : e.isDigit = true :=
    isDigit_of_mem_digits (hdigits ▸ he)
  refine ⟨c, rest, hdigits, by rw [text, hdigits], hall c List.mem_cons_self,
    fun e he => hall e (List.mem_cons_of_mem c he), ?_⟩
  rintro rfl
  cases rest with
  | nil => rfl
  | cons e rest => exact absurd hdigits digits_ne_zero_cons

theorem Decimal.exists_text {n : Int} (d : Decimal n) :
    ∃ c more, d.text = c :: more ∧ (c.isDigit = true ∨ c = '+' ∨ c = '-') := by
  obtain ⟨c, rest, -, htext, hc, -⟩ := d.exists_digits
  rw [htext]
  cases d.sign with
  | none => exact ⟨_, _, rfl, .inl hc⟩
  | plus => exact ⟨_, _, rfl, .inr (.inl rfl)⟩
  | minus => exact ⟨_, _, rfl, .inr (.inr rfl)⟩

-- A number, however it is written, is read as that number.
theorem integer_text {n : Int64} (d : Decimal n.toInt) : integer d.text = some n.toInt := by
  obtain ⟨c, rest, hdigits, htext, hc, hrest, hzero⟩ := d.exists_digits
  have hlone : c = '0' → spread d.marked 1 rest = [] := fun h => by rw [hzero h, spread]
  have hunder : c ≠ '_' := ne_of_class hc (by decide)
  have hsign : (if decide (d.sign = .minus) then -(n.toInt.natAbs : Int) else n.toInt.natAbs) =
      n.toInt := by
    have hfits := d.sign_fits
    cases hs : d.sign with
    | none | plus =>
      rw [hs] at hfits
      exact Int.natAbs_of_nonneg hfits
    | minus =>
      rw [hs] at hfits
      have hnonpos : n.toInt ≤ 0 := hfits
      show -(n.toInt.natAbs : Int) = n.toInt
      omega
  rw [htext]
  simp only [integer, underscoresFit_sign d.sign hc (underscoresFit_spread d.marked hrest 1),
    hasLeadingZero_sign d.sign hc hlone, Bool.not_false, Bool.and_self, if_true,
    withoutUnderscores_sign, withoutUnderscores_cons hunder, withoutUnderscores_spread d.marked hrest,
    signed_sign d.sign hc]
  rw [← hdigits]
  exact int64?_digits hsign

-- The line ends here, or the text does.
def AtLineEnd (rest : List Char) : Prop := ∀ c ∈ rest.head?, isNewline c = true

-- What was read can still be an integer, and must be one if nothing comes behind it.
def Numeral.IsWhole (kind : Numeral) : Prop := kind = .digits ∨ kind = .decimal

theorem next_eq_none {kind : Numeral} (hkind : kind.IsWhole) {c : Char}
    (hc : isNewline c = true) : kind.next c = none := by
  have hends : c = '\n' ∨ c = '\r' := by simpa [isNewline] using hc
  rcases hkind with rfl | rfl <;> rcases hends with rfl | rfl <;> decide

theorem next_eq_some {kind : Numeral} (hkind : kind.IsWhole) {c : Char}
    (hc : c.isDigit = true ∨ c = '_') :
    ∃ next : Numeral, next.IsWhole ∧ kind.next c = some next := by
  rcases hc with hdigit | rfl
  · refine ⟨kind, hkind, ?_⟩
    rcases hkind with rfl | rfl <;> simp [Numeral.next, hdigit]
  · refine ⟨.decimal, .inr rfl, ?_⟩
    rcases hkind with rfl | rfl <;> decide

-- Digits and underscores are taken up to the end of the line, and make neither a float nor a date.
theorem span_digits {kind : Numeral} (hkind : kind.IsWhole)
    {cs rest : List Char} (hcs : ∀ c ∈ cs, c.isDigit = true ∨ c = '_') (hrest : AtLineEnd rest)
    (seen : List Char) :
    ∃ last : Numeral, last.IsWhole ∧
      kind.span seen (cs ++ rest) = (last, seen.reverse ++ cs, rest) := by
  induction cs generalizing kind seen with
  | nil =>
    refine ⟨kind, hkind, ?_⟩
    cases rest with
    | nil => simp [Numeral.span]
    | cons c rest =>
      simp [Numeral.span, next_eq_none hkind (hrest c rfl)]
  | cons c more ih =>
    obtain ⟨next, hnext, hc⟩ := next_eq_some hkind (hcs c List.mem_cons_self)
    obtain ⟨last, hlast, hspan⟩ :=
      ih hnext (fun e he => hcs e (List.mem_cons_of_mem c he)) (c :: seen)
    refine ⟨last, hlast, ?_⟩
    simp only [List.cons_append, Numeral.span, hc, hspan, List.reverse_cons, List.append_assoc,
      List.nil_append]

theorem numeric_signed {c d : Char} {more rest : List Char} {n : Int} (hc : c = '+' ∨ c = '-')
    (hd : d.isDigit = true) (hmore : ∀ e ∈ more, e.isDigit = true ∨ e = '_') (hrest : AtLineEnd rest)
    (hn : integer (c :: d :: more) = some n) :
    numeric (c :: d :: more ++ rest) = some (.integer n, rest) := by
  have hkind : Numeral.decimal.IsWhole := .inr rfl
  have hall : ∀ e ∈ d :: more, e.isDigit = true ∨ e = '_' :=
    List.forall_mem_cons.mpr ⟨.inl hd, hmore⟩
  obtain ⟨last, hlast, hspan⟩ := span_digits hkind hall hrest []
  have hsign : (c = '+' || c = '-') = true := by simpa using hc
  unfold numeric
  simp only [List.cons_append, hsign, if_true]
  split
  · next h => exact absurd h (cons_ne_of_class hd (by decide))
  · next h => exact absurd h (cons_ne_of_class hd (by decide))
  · next h =>
    cases h
    simp only [List.cons_append, List.reverse_nil, List.nil_append] at hspan
    rw [if_pos hd, hspan]
    rcases hlast with rfl | rfl <;> simp only [hn, Option.map_some]
  · next h => cases h

theorem numeric_unsigned {d : Char} {more rest : List Char} {n : Int}
    (hd : d.isDigit = true) (hzero : d = '0' → more = [])
    (hmore : ∀ e ∈ more, e.isDigit = true ∨ e = '_') (hrest : AtLineEnd rest)
    (hn : integer (d :: more) = some n) :
    numeric (d :: more ++ rest) = some (.integer n, rest) := by
  have hkind : Numeral.digits.IsWhole := .inl rfl
  have hall : ∀ e ∈ d :: more, e.isDigit = true ∨ e = '_' :=
    List.forall_mem_cons.mpr ⟨.inl hd, hmore⟩
  obtain ⟨last, hlast, hspan⟩ := span_digits hkind hall hrest []
  have hsign : (d = '+' || d = '-') = false := by
    simp [ne_of_class hd (show Char.isDigit '+' = false by decide),
      ne_of_class hd (show Char.isDigit '-' = false by decide)]
  have hplain : numeric.plain (d :: more ++ rest) = some (.integer n, rest) := by
    simp only [numeric.plain, hspan, List.reverse_nil, List.nil_append]
    rcases hlast with rfl | rfl <;> simp only [hn, Option.map_some]
  unfold numeric
  simp only [List.cons_append, hsign, Bool.false_eq_true, if_false]
  split
  · next letter digits h =>
    -- a zero is all there is of the number, so that what follows is no letter
    have hhead : rest = letter :: digits := by rwa [hzero rfl, List.nil_append] at h
    have hletter : letter = '\n' ∨ letter = '\r' := by
      simpa [isNewline] using hrest letter (by rw [hhead]; rfl)
    have hbase : baseOf letter = none := by
      rcases hletter with rfl | rfl <;> rfl
    rw [hbase]
    exact hplain
  · exact hplain

theorem numeric_text {n : Int64} (d : Decimal n.toInt) {rest : List Char} (hrest : AtLineEnd rest) :
    numeric (d.text ++ rest) = some (.integer n.toInt, rest) := by
  obtain ⟨c, digits, -, htext, hc, hdigits, hzero⟩ := d.exists_digits
  have hlone : c = '0' → spread d.marked 1 digits = [] := fun h => by rw [hzero h, spread]
  have hmore (e : Char) (he : e ∈ spread d.marked 1 digits) : e.isDigit = true ∨ e = '_' :=
    (mem_spread d.marked he).symm.imp_left (hdigits e)
  have hinteger := integer_text d
  rw [htext] at hinteger ⊢
  cases hs : d.sign with
  | none =>
    rw [hs] at hinteger
    exact numeric_unsigned hc hlone hmore hrest hinteger
  | plus =>
    rw [hs] at hinteger
    exact numeric_signed (.inl rfl) hc hmore hrest hinteger
  | minus =>
    rw [hs] at hinteger
    exact numeric_signed (.inr rfl) hc hmore hrest hinteger

-- The characters that stand for themselves in a quoted string on one line.
def isPlain (c : Char) : Bool := 32 ≤ c.toNat && c.toNat < 127 && c ≠ '"' && c ≠ '\\'

theorem isNewline_of_isPlain {c : Char} (h : isPlain c = true) : isNewline c = false := by
  have hlf : c ≠ '\n' := ne_of_class h (by decide)
  have hcr : c ≠ '\r' := ne_of_class h (by decide)
  simp [isNewline, hlf, hcr]

theorem escaped_plain {cs : List Char} (h : ∀ c ∈ cs, isPlain c = true) (seen rest : List Char) :
    escaped seen (cs ++ '"' :: rest) = some (seen.reverse ++ cs, rest) := by
  induction cs generalizing seen with
  | nil =>
    rw [List.append_nil]
    unfold escaped
    rfl
  | cons c more ih =>
    have hc := h c List.mem_cons_self
    have hquote : c ≠ '"' := ne_of_class hc (by decide)
    have hslash : c ≠ '\\' := ne_of_class hc (by decide)
    have hmore := ih (fun e he => h e (List.mem_cons_of_mem c he)) (c :: seen)
    rw [List.reverse_cons, List.append_assoc] at hmore
    unfold escaped
    simp only [List.cons_append, if_neg hquote, isNewline_of_isPlain hc, Bool.false_eq_true,
      if_false, if_neg hslash]
    exact hmore

theorem unescape_plain {cs : List Char} (h : ∀ c ∈ cs, isPlain c = true) (known : List Char) :
    unescape false known cs = some (known.reverse ++ cs) := by
  induction cs generalizing known with
  | nil =>
    rw [List.append_nil]
    rfl
  | cons c more ih =>
    have hslash : c ≠ '\\' := ne_of_class (h c List.mem_cons_self) (by decide)
    have hmore := ih (fun e he => h e (List.mem_cons_of_mem c he)) (c :: known)
    rw [List.reverse_cons, List.append_assoc] at hmore
    unfold unescape
    simp only [ne_eq, hslash, not_false_eq_true, if_true, Bool.false_and, Bool.false_eq_true,
      if_false]
    exact hmore

theorem anyString_plain {cs rest : List Char} (h : ∀ c ∈ cs, isPlain c = true)
    (hrest : AtLineEnd rest) :
    anyString ('"' :: (cs ++ '"' :: rest)) = some (String.ofList cs, rest) := by
  have hstring : string ('"' :: (cs ++ '"' :: rest)) = some (String.ofList cs, rest) := by
    have hescaped := escaped_plain h [] rest
    have hunescape := unescape_plain h []
    simp only [List.reverse_nil, List.nil_append] at hescaped hunescape
    unfold string
    simp only [hescaped, hunescape, Option.bind_eq_bind, Option.bind_some]
    rfl
  unfold anyString
  split
  · next heq =>
    -- no three quotes stand here: one ends the string, and none stands behind that
    have htail := (List.cons.inj heq).2
    cases cs with
    | nil =>
      have hquote := hrest '"' (by rw [(List.cons.inj htail).2]; rfl)
      cases hquote
    | cons c more =>
      have hc := h c List.mem_cons_self
      rw [(List.cons.inj htail).1] at hc
      cases hc
  · next heq => cases heq
  · exact hstring

-- A value that holds no others, together with the way it is written.
inductive Scalar where
  | string (cs : List Char) (plain : ∀ c ∈ cs, isPlain c = true)
  | integer (n : Int64) (decimal : Decimal n.toInt)
  | boolean (b : Bool)

namespace Scalar

def text : Scalar → List Char
  | string cs _ => '"' :: (cs ++ ['"'])
  | integer _ decimal => decimal.text
  | boolean true => ['t', 'r', 'u', 'e']
  | boolean false => ['f', 'a', 'l', 's', 'e']

def value : Scalar → Value
  | string cs _ => .string (String.ofList cs)
  | integer n _ => .integer n.toInt
  | boolean b => .boolean b

-- The characters that a scalar can start with.
def isStart (c : Char) : Bool := c.isDigit || ['"', '+', '-', 't', 'f'].contains c

theorem exists_text (s : Scalar) : ∃ c more, s.text = c :: more ∧ isStart c = true := by
  cases s with
  | string cs plain => exact ⟨_, _, rfl, rfl⟩
  | integer n decimal =>
    obtain ⟨c, more, htext, hc⟩ := decimal.exists_text
    refine ⟨c, more, htext, ?_⟩
    rcases hc with hc | rfl | rfl
    · simp [isStart, hc]
    · rfl
    · rfl
  | boolean b => cases b <;> exact ⟨_, _, rfl, rfl⟩

end Scalar

theorem scalar_eq_numeric {c : Char} (h : c.isDigit = true ∨ c = '+' ∨ c = '-') (cs : List Char) :
    scalar (c :: cs) = numeric (c :: cs) := by
  rcases h with hc | rfl | rfl
  · have hquote : (c = '"' || c = '\'') = false := by
      simp [ne_of_class hc (show Char.isDigit '"' = false by decide),
        ne_of_class hc (show Char.isDigit '\'' = false by decide)]
    unfold scalar
    split
    · next heq => exact absurd heq (cons_ne_of_class hc (by decide))
    · next heq => exact absurd heq (cons_ne_of_class hc (by decide))
    · next heq => exact absurd heq (cons_ne_of_class hc (by decide))
    · next heq => exact absurd heq (cons_ne_of_class hc (by decide))
    · next heq =>
      cases heq
      simp only [hquote, hc, Bool.true_or, Bool.false_eq_true, if_false, if_true]
    · next heq => cases heq
  · rfl
  · rfl

theorem scalar_text (s : Scalar) {rest : List Char} (hrest : AtLineEnd rest) :
    scalar (s.text ++ rest) = some (s.value, rest) := by
  cases s with
  | string cs plain =>
    have htext : (Scalar.string cs plain).text ++ rest = '"' :: (cs ++ '"' :: rest) := by
      simp [Scalar.text]
    rw [htext]
    show (anyString _).map _ = _
    rw [anyString_plain plain hrest]
    rfl
  | integer n decimal =>
    have hnumeric := numeric_text decimal hrest
    obtain ⟨c, more, htext, hc⟩ := decimal.exists_text
    rw [Scalar.text]
    rw [htext] at hnumeric ⊢
    exact (scalar_eq_numeric hc _).trans hnumeric
  | boolean b => cases b <;> rfl

theorem value_text (fuel : Nat) (s : Scalar) {rest : List Char} (hrest : AtLineEnd rest) :
    value (fuel + 1) (s.text ++ rest) = some (s.value, rest) := by
  obtain ⟨c, more, htext, hc⟩ := s.exists_text
  have hscalar := scalar_text s hrest
  rw [htext, List.cons_append] at hscalar ⊢
  unfold value
  split
  · next heq => exact absurd heq (cons_ne_of_class hc (by decide))
  · next heq => exact absurd heq (cons_ne_of_class hc (by decide))
  · exact hscalar

end RegisterMachine.Toml
