import RegisterMachine.Proofs.TomlScalar

namespace RegisterMachine

theorem Octets.text?_octets (text : String) : (octets text).text? = some text := by
  show String.fromUTF8? text.toUTF8 = some text
  exact dif_pos text.isValidUTF8

theorem octets_ofList_cons {c : Char} (hc : c.toNat < 128) (cs : List Char) :
    octets (String.ofList (c :: cs)) = c.val.toUInt8 :: octets (String.ofList cs) := by
  have hsize : c.utf8Size = 1 := by
    rw [Char.utf8Size_eq_one_iff, UInt32.le_iff_toNat_le]
    exact Nat.le_of_lt_succ hc
  have hencode : [c].utf8Encode.data = #[c.val.toUInt8] := by
    rw [List.utf8Encode_singleton, String.utf8EncodeChar_eq_singleton hsize]
    rfl
  show ((c :: cs).utf8Encode).data.toList = _
  rw [List.utf8Encode_cons, ByteArray.data_append, hencode, Array.toList_append]
  rfl

theorem ne_of_nodup_map {α β : Type} {f : α → β} {before after : List α} {a : α}
    (h : ((before ++ a :: after).map f).Nodup) : ∀ b ∈ before, f b ≠ f a := by
  intro b hb
  rw [List.map_append, List.map_cons] at h
  exact (List.nodup_append.mp h).2.2 _ (List.mem_map_of_mem hb) _ List.mem_cons_self

namespace Toml

-- A line that gives a bare name a value.
structure Assignment where
  name : List Char
  name_ne_nil : name ≠ []
  name_bare : ∀ c ∈ name, isBare c = true
  scalar : Scalar

namespace Assignment

def key (a : Assignment) : String := String.ofList a.name

def text (a : Assignment) : List Char := a.name ++ ' ' :: '=' :: ' ' :: a.scalar.text

def statement (a : Assignment) : Statement := .assign [a.key] a.scalar.value

end Assignment

inductive Newline where
  | lf
  | crlf

def Newline.text : Newline → List Char
  | lf => ['\n']
  | crlf => ['\r', '\n']

-- Lines one below the other. The last one need not be closed.
def lines (newline : Newline) (closed : Bool) : List Assignment → List Char
  | [] => []
  | a :: rest =>
    a.text ++ ((if closed || !rest.isEmpty then newline.text else []) ++ lines newline closed rest)

section Scanning

variable {name : List Char}

theorem keyPart_bare (hne : name ≠ []) (hbare : ∀ c ∈ name, isBare c = true) (rest : List Char) :
    keyPart (name ++ ' ' :: rest) = some (String.ofList name, ' ' :: rest) := by
  have htake : (name ++ ' ' :: rest).takeWhile isBare = name := by
    rw [List.takeWhile_append_of_pos hbare, List.takeWhile_cons_of_neg (by decide), List.append_nil]
  have hdrop : (name ++ ' ' :: rest).dropWhile isBare = ' ' :: rest := by
    rw [List.dropWhile_append_of_pos hbare, List.dropWhile_cons_of_neg (by decide)]
  obtain ⟨c, cs, rfl⟩ := List.exists_cons_of_ne_nil hne
  have hc := hbare c List.mem_cons_self
  unfold keyPart
  split
  · next heq => exact absurd heq (cons_ne_of_class hc (by decide))
  · next heq => exact absurd heq (cons_ne_of_class hc (by decide))
  · simp only [htake, hdrop]
    rfl

theorem skipBlanks_cons {c : Char} (hspace : c ≠ ' ') (htab : c ≠ '\t') (cs : List Char) :
    skipBlanks (c :: cs) = c :: cs :=
  List.dropWhile_cons_of_neg (by simp [isBlank, hspace, htab])

theorem key_bare (hne : name ≠ []) (hbare : ∀ c ∈ name, isBare c = true) (fuel : Nat)
    (rest : List Char) :
    key (fuel + 1) (name ++ ' ' :: '=' :: rest) = some ([String.ofList name], '=' :: rest) := by
  have hpart := keyPart_bare hne hbare ('=' :: rest)
  obtain ⟨c, cs, rfl⟩ := List.exists_cons_of_ne_nil hne
  have hc := hbare c List.mem_cons_self
  have hskip := skipBlanks_cons (ne_of_class hc (by decide)) (ne_of_class hc (by decide))
    (cs ++ ' ' :: '=' :: rest)
  rw [List.cons_append] at hpart ⊢
  rw [key, hskip, hpart]
  rfl

theorem statement_text (fuel : Nat) (a : Assignment) {rest : List Char} (hrest : AtLineEnd rest) :
    Toml.statement (fuel + 1) (a.text ++ rest) = some (a.statement, rest) := by
  have hvalue := value_text fuel a.scalar hrest
  have hkey := key_bare a.name_ne_nil a.name_bare fuel (' ' :: (a.scalar.text ++ rest))
  obtain ⟨c, cs, hname⟩ := List.exists_cons_of_ne_nil a.name_ne_nil
  have hc : isBare c = true := a.name_bare c (by rw [hname]; exact List.mem_cons_self)
  have htext : a.text ++ rest = c :: (cs ++ ' ' :: '=' :: ' ' :: (a.scalar.text ++ rest)) := by
    simp [Assignment.text, hname]
  rw [hname] at hkey
  rw [htext]
  have hskip : skipBlanks (' ' :: (a.scalar.text ++ rest)) = a.scalar.text ++ rest := by
    obtain ⟨d, ds, hscalar, hd⟩ := a.scalar.exists_text
    rw [hscalar]
    exact skipBlanks_cons (ne_of_class hd (by decide)) (ne_of_class hd (by decide)) _
  unfold Toml.statement
  split
  · next heq => exact absurd heq (cons_ne_of_class hc (by decide))
  · next heq => exact absurd heq (cons_ne_of_class hc (by decide))
  · rw [← List.cons_append, hkey]
    simp only [Option.bind_eq_bind, Option.bind_some, hskip, hvalue]
    rw [← hname]
    rfl

-- Behind a line comes its end, and then the next line as far as statements are concerned.
theorem endOfLine_lines (newline : Newline) (closed : Bool) (as : List Assignment) :
    ∃ rest, endOfLine ((if closed || !as.isEmpty then newline.text else []) ++
      lines newline closed as) = some rest ∧
      skipFiller false rest = skipFiller false (lines newline closed as) := by
  split_ifs with h
  · cases newline with
    | lf => exact ⟨_, rfl, rfl⟩
    | crlf => exact ⟨_, rfl, rfl⟩
  · cases as with
    | nil => exact ⟨_, rfl, rfl⟩
    | cons a as => simp at h

theorem atLineEnd_lines (newline : Newline) (closed : Bool) (as : List Assignment) :
    AtLineEnd ((if closed || !as.isEmpty then newline.text else []) ++
      lines newline closed as) := by
  split_ifs with h
  · cases newline <;> simp [AtLineEnd, Newline.text, isNewline]
  · cases as with
    | nil => simp [AtLineEnd, lines]
    | cons a as => simp at h

theorem skipFiller_text (a : Assignment) (rest : List Char) :
    ∃ c cs, a.text ++ rest = c :: cs ∧ skipFiller false (c :: cs) = c :: cs := by
  obtain ⟨c, cs, hname⟩ := List.exists_cons_of_ne_nil a.name_ne_nil
  have hc : isBare c = true := a.name_bare c (by rw [hname]; exact List.mem_cons_self)
  have hfirst {d : Char} (hd : isBare d = false) : c ≠ d := ne_of_class hc hd
  refine ⟨c, _, by rw [Assignment.text, hname]; rfl, ?_⟩
  simp [skipFiller, isBlank, isNewline, hfirst (d := '#') rfl, hfirst (d := ' ') rfl,
    hfirst (d := '\t') rfl, hfirst (d := '\n') rfl, hfirst (d := '\r') rfl]

-- Every line is found, each as one statement. Fuel is enough if there is more of it than lines.
theorem statements_lines (newline : Newline) (closed : Bool) (as : List Assignment) {fuel : Nat}
    (hfuel : as.length < fuel) (found : Array Statement) {cs : List Char}
    (hcs : skipFiller false cs = skipFiller false (lines newline closed as)) :
    statements fuel found cs = some (found.toList ++ as.map Assignment.statement) := by
  induction as generalizing fuel found cs with
  | nil =>
    obtain ⟨fuel, rfl⟩ := Nat.exists_eq_succ_of_ne_zero (Nat.ne_of_gt hfuel)
    have hnil : skipFiller false cs = [] := hcs
    rw [statements, hnil]
    simp
  | cons a rest ih =>
    obtain ⟨fuel, rfl⟩ := Nat.exists_eq_succ_of_ne_zero (Nat.ne_of_gt (Nat.zero_lt_of_lt hfuel))
    obtain ⟨tail, htail, hskip⟩ := endOfLine_lines newline closed rest
    obtain ⟨c, more, htext, hfiller⟩ := skipFiller_text a
      ((if closed || !rest.isEmpty then newline.text else []) ++ lines newline closed rest)
    have hstatement := statement_text fuel a (atLineEnd_lines newline closed rest)
    rw [htext] at hstatement
    rw [lines, htext, hfiller] at hcs
    rw [statements, hcs]
    simp only [hstatement, htail, Option.bind_eq_bind, Option.bind_some]
    rw [ih (Nat.lt_of_succ_lt_succ hfuel) _ hskip]
    simp

end Scanning

-- The characters that any line may hold.
def isPrintable (c : Char) : Bool := 32 ≤ c.toNat && c.toNat < 127

theorem isPrintable_of_isBare {c : Char} (h : isBare c = true) : isPrintable c = true := by
  have hletters : 'A'.val.toNat = 65 ∧ 'Z'.val.toNat = 90 ∧ 'a'.val.toNat = 97 ∧ 'z'.val.toNat = 122 ∧
      '0'.val.toNat = 48 ∧ '9'.val.toNat = 57 := by decide
  have hval : c.toNat = c.val.toNat := rfl
  simp only [isBare, Char.isAlphanum, Char.isAlpha, Char.isUpper, Char.isLower, Char.isDigit,
    Bool.or_eq_true, Bool.and_eq_true, decide_eq_true_eq, ge_iff_le, UInt32.le_iff_toNat_le] at h
  rcases h with (hletter | rfl) | rfl
  · simp only [isPrintable, Bool.and_eq_true, decide_eq_true_eq]
    omega
  · rfl
  · rfl

theorem isPrintable_of_isDigit {c : Char} (h : c.isDigit = true) : isPrintable c = true :=
  isPrintable_of_isBare (by simp [isBare, Char.isAlphanum, h])

theorem isPrintable_of_isPlain {c : Char} (h : isPlain c = true) : isPrintable c = true := by
  simp only [isPlain, Bool.and_eq_true] at h
  simp only [isPrintable, Bool.and_eq_true]
  exact h.1.1

theorem isPrintable_decimal {n : Int} (d : Decimal n) {c : Char} (h : c ∈ d.text) :
    isPrintable c = true := by
  obtain ⟨first, rest, -, htext, hfirst, hrest, -⟩ := d.exists_digits
  rw [htext, List.mem_append, List.mem_cons] at h
  rcases h with hsign | rfl | hmore
  · have hsigns : d.sign.text.all isPrintable = true := by
      cases d.sign <;> rfl
    exact List.all_eq_true.mp hsigns c hsign
  · exact isPrintable_of_isDigit hfirst
  · rcases mem_spread d.marked hmore with rfl | hdigit
    · rfl
    · exact isPrintable_of_isDigit (hrest c hdigit)

theorem isPrintable_scalar (s : Scalar) {c : Char} (h : c ∈ s.text) : isPrintable c = true := by
  cases s with
  | string cs plain =>
    simp only [Scalar.text, List.mem_cons, List.mem_append, List.not_mem_nil, or_false] at h
    rcases h with rfl | hcs | rfl
    · rfl
    · exact isPrintable_of_isPlain (plain c hcs)
    · rfl
  | integer n decimal => exact isPrintable_decimal decimal h
  | boolean b =>
    have hall : (Scalar.boolean b).text.all isPrintable = true := by
      cases b <;> rfl
    exact List.all_eq_true.mp hall c h

theorem isPrintable_text (a : Assignment) {c : Char} (h : c ∈ a.text) : isPrintable c = true := by
  simp only [Assignment.text, List.mem_append, List.mem_cons] at h
  rcases h with hname | rfl | rfl | rfl | hscalar
  · exact isPrintable_of_isBare (a.name_bare c hname)
  · rfl
  · rfl
  · rfl
  · exact isPrintable_scalar a.scalar hscalar

theorem isClean_append {cs : List Char} (h : ∀ c ∈ cs, isPrintable c = true) (rest : List Char) :
    isClean (cs ++ rest) = isClean rest := by
  induction cs with
  | nil => rfl
  | cons c more ih =>
    have hc := h c List.mem_cons_self
    have hprintable : (32 ≤ c.toNat && c.toNat ≠ 127) = true := by
      simp only [isPrintable, Bool.and_eq_true, decide_eq_true_eq] at hc ⊢
      omega
    rw [List.cons_append, ← ih fun e he => h e (List.mem_cons_of_mem c he), isClean.eq_def]
    split
    · next heq => cases heq
    · next heq => exact absurd heq (cons_ne_of_class hc (by decide))
    · next heq =>
      cases heq
      rw [hprintable, Bool.or_true, Bool.true_and]

theorem isClean_lines (newline : Newline) (closed : Bool) (as : List Assignment) :
    isClean (lines newline closed as) = true := by
  induction as with
  | nil => rfl
  | cons a rest ih =>
    rw [lines, isClean_append fun c => isPrintable_text a]
    split_ifs
    · cases newline with
      | lf => exact ih
      | crlf => exact ih
    · exact ih

theorem octets_head?_lt {cs : List Char} (hfirst : ∀ c ∈ cs.head?, c.toNat < 128) :
    ∀ b ∈ (octets (String.ofList cs)).head?, b.toNat < 128 := by
  cases cs with
  | nil => exact fun b hb => nomatch hb
  | cons c rest =>
    have hc : c.toNat < 128 := hfirst c rfl
    rw [octets_ofList_cons hc]
    rintro b ⟨⟩
    exact lt_of_le_of_lt (Nat.mod_le _ _) hc

-- A text that starts with a character of ASCII starts with no byte order mark.
theorem characters_octets {cs : List Char} (hfirst : ∀ c ∈ cs.head?, c.toNat < 128)
    (hclean : isClean cs = true) : characters (octets (String.ofList cs)) = some cs := by
  have hlow := octets_head?_lt hfirst
  have hmark {b : UInt8} {rest : Octets} (hb : 128 ≤ b.toNat)
      (h : octets (String.ofList cs) = b :: rest) : False :=
    absurd (hlow b (by rw [h]; rfl)) (Nat.not_lt.mpr hb)
  unfold characters
  dsimp only
  split
  · next heq => exact (hmark (by decide) heq).elim
  · next heq => exact (hmark (by decide) heq).elim
  · next heq => exact (hmark (by decide) heq).elim
  · simp only [Octets.text?_octets, Option.bind_eq_bind, Option.bind_some, String.toList_ofList,
      if_pos hclean]

theorem head?_lines (newline : Newline) (closed : Bool) (as : List Assignment) :
    ∀ c ∈ (lines newline closed as).head?, isPrintable c = true := by
  intro c hc
  cases as with
  | nil => cases hc
  | cons a rest =>
    have htext : a.text ≠ [] := List.append_ne_nil_of_right_ne_nil a.name (List.cons_ne_nil _ _)
    rw [lines, List.head?_append_of_ne_nil _ htext] at hc
    exact isPrintable_text a (List.mem_of_mem_head? hc)

theorem length_le_lines (newline : Newline) (closed : Bool) (as : List Assignment) :
    as.length ≤ (lines newline closed as).length := by
  induction as with
  | nil => simp
  | cons a rest ih =>
    simp only [lines, Assignment.text, List.length_append, List.length_cons]
    omega

theorem parse_lines (newline : Newline) (closed : Bool) (as : List Assignment) :
    parse (octets (String.ofList (lines newline closed as))) =
      some (as.map Assignment.statement) := by
  have hfuel := length_le_lines newline closed as
  have hfirst (c : Char) (hc : c ∈ (lines newline closed as).head?) : c.toNat < 128 := by
    have hprintable := head?_lines newline closed as c hc
    simp only [isPrintable, Bool.and_eq_true, decide_eq_true_eq] at hprintable
    omega
  rw [parse, characters_octets hfirst (isClean_lines newline closed as)]
  exact statements_lines newline closed as (by omega) #[] rfl

namespace Document

-- What is known once the lines have been gone through, if each name stands in one of them.
structure Holds (d : Document) (as : List Assignment) : Prop where
  keys : d.keys.toList = as.map fun a => [a.key]
  get? : ∀ name, d.get? 0 name = (as.find? (·.key == name)).map fun a => .leaf a.scalar.value
  -- The top is not given away as a new table.
  next : 0 < d.next

theorem empty_holds : empty.Holds [] where
  keys := rfl
  get? _ := Std.HashMap.getElem?_empty
  next := Nat.one_pos

-- With distinct names each line is what its own name leads to.
theorem Holds.get?_of_mem {d : Document} {as : List Assignment} (h : d.Holds as)
    (hnodup : (as.map Assignment.key).Nodup) {a : Assignment} (ha : a ∈ as) :
    d.get? 0 a.key = some (.leaf a.scalar.value) := by
  obtain ⟨before, after, rfl⟩ := List.append_of_mem ha
  have hfind : before.find? (·.key == a.key) = none := by
    simpa using ne_of_nodup_map hnodup
  rw [h.get?, List.find?_append, hfind, Option.none_or, List.find?_cons_of_pos (by simp)]
  rfl

theorem get?_set (d : Document) (table other : Nat) (name key : String) (node : Node) :
    (d.set table name node).get? other key =
      if table = other ∧ name = key then some node else d.get? other key := by
  rw [get?, set, Std.HashMap.getElem?_insert]
  simp only [beq_iff_eq, Prod.mk.injEq]
  rfl

theorem visit_scalar (d : Document) (context : Path) (name : String) (inArray : Bool) (s : Scalar) :
    d.visit context name inArray s.value = some (d, .leaf s.value) := by
  cases s <;> exact visit.eq_3 _ _ _ _ _ nofun nofun

-- A new name is put into the table at the top, and into the line's own table.
theorem add_assignment {d : Document} {a : Assignment} (hfresh : d.get? 0 a.key = none) :
    ∃ d' : Document, d.add [] a.statement = some (d'.set d.next a.key (.leaf a.scalar.value), []) ∧
      d'.names = (d.set 0 a.key (.leaf a.scalar.value)).names ∧
      d'.keys = d.keys.push [a.key] ∧ d'.next = d.next + 1 := by
  have harray : isArray a.scalar.value = false := by
    cases a.scalar <;> rfl
  have hdefine : ((d.newTable.1.addKey [a.key]).define [] a.key (.leaf a.scalar.value)) =
      some ((d.newTable.1.addKey [a.key]).set 0 a.key (.leaf a.scalar.value)) :=
    if_pos (Option.isNone_iff_eq_none.mpr hfresh)
  refine ⟨((d.newTable.1.addKey [a.key]).set 0 a.key (.leaf a.scalar.value)).noteArray [] a.key
    false, ?_, rfl, rfl, rfl⟩
  rw [Assignment.statement, add]
  simp only [visitEntries, List.dropLast, List.getLast?_singleton, Option.getD_some, openParts,
    List.append_nil, List.nil_append, visit_scalar, harray, hdefine, addEntry, Option.bind_eq_bind,
    Option.bind_some]
  rfl

theorem holds_add {d : Document} {as : List Assignment} (h : d.Holds as) {a : Assignment}
    (hnew : ∀ b ∈ as, b.key ≠ a.key) :
    ∃ d', d.add [] a.statement = some (d', []) ∧ d'.Holds (as ++ [a]) := by
  have hfind : as.find? (·.key == a.key) = none := by
    simpa using hnew
  have hfresh : d.get? 0 a.key = none := by
    rw [h.get?, hfind]
    rfl
  obtain ⟨d', hadd, hnames, hkeys, hnext⟩ := add_assignment hfresh
  refine ⟨_, hadd, ?_, fun name => ?_, ?_⟩
  · rw [set, hkeys, Array.toList_push, h.keys, List.map_append]
    rfl
  · have hset : d'.get? 0 name = (d.set 0 a.key (.leaf a.scalar.value)).get? 0 name := by
      rw [get?, hnames, get?]
    rw [get?_set, if_neg fun hown => Nat.ne_of_gt h.next hown.1, hset, get?_set, h.get?,
      List.find?_append]
    by_cases hname : a.key = name
    · subst hname
      simp [hfind]
    · simp [hname]
  · rw [set, hnext]
    exact Nat.succ_pos d.next

theorem holds_addAll {d : Document} {done as : List Assignment} (h : d.Holds done)
    (hnodup : ((done ++ as).map Assignment.key).Nodup) :
    ∃ d', d.addAll [] (as.map Assignment.statement) = some d' ∧ d'.Holds (done ++ as) := by
  induction as generalizing d done with
  | nil => exact ⟨d, rfl, by rwa [List.append_nil]⟩
  | cons a rest ih =>
    obtain ⟨next, hadd, hnext⟩ := holds_add h (ne_of_nodup_map hnodup)
    rw [List.append_cons] at hnodup ⊢
    obtain ⟨d', hall, hd'⟩ := ih hnext hnodup
    refine ⟨d', ?_, hd'⟩
    rw [List.map_cons, addAll, hadd]
    exact hall

theorem parse_lines_holds (newline : Newline) (closed : Bool) {as : List Assignment}
    (hnodup : (as.map Assignment.key).Nodup) :
    ∃ d, parse (octets (String.ofList (lines newline closed as))) = some d ∧ d.Holds as := by
  obtain ⟨d, hd, hholds⟩ := holds_addAll empty_holds hnodup
  refine ⟨d, ?_, hholds⟩
  rw [parse, parse_lines]
  exact hd

end Document

end Toml

end RegisterMachine
