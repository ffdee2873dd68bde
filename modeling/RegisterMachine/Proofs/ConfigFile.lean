import RegisterMachine.Proofs.TomlLines

namespace RegisterMachine

namespace Setting

def isNumber : Setting → Bool
  | .registers | .stackCapacity | .memorySize | .maxSteps => true
  | .word | .verbose => false

theorem key_ne_nil (setting : Setting) : setting.key.toList ≠ [] := by
  cases setting <;> decide

theorem key_bare (setting : Setting) : ∀ c ∈ setting.key.toList, Toml.isBare c = true := by
  cases setting <;> exact List.all_eq_true.mp (by decide)

theorem ofKey?_key (setting : Setting) : ofKey? setting.key = some setting := by
  cases setting <;> rfl

end Setting

namespace Config

-- What a line of a file says: a setting with a value of its kind, or a number under a name that is
-- no setting's.
inductive Entry where
  | word (cs : List Char) (plain : ∀ c ∈ cs, Toml.isPlain c = true)
  | number (setting : Setting) (isNumber : setting.isNumber = true) (n : Int64)
      (decimal : Toml.Decimal n.toInt)
  | verbose (b : Bool)
  | other (name : List Char) (name_ne_nil : name ≠ []) (name_bare : ∀ c ∈ name, Toml.isBare c = true)
      (unknown : ∀ setting : Setting, name.map Char.toLower ≠ setting.key.toList) (n : Int64)
      (decimal : Toml.Decimal n.toInt)

namespace Entry

def setting? : Entry → Option Setting
  | word _ _ => some .word
  | number setting _ _ _ => some setting
  | verbose _ => some .verbose
  | other .. => none

def ofSetting (setting : Setting) (scalar : Toml.Scalar) : Toml.Assignment :=
  ⟨setting.key.toList, setting.key_ne_nil, setting.key_bare, scalar⟩

def assignment : Entry → Toml.Assignment
  | word cs plain => ofSetting .word (.string cs plain)
  | number setting _ n decimal => ofSetting setting (.integer n decimal)
  | verbose b => ofSetting .verbose (.boolean b)
  | other name name_ne_nil name_bare _ n decimal =>
    ⟨name, name_ne_nil, name_bare, .integer n decimal⟩

def key (e : Entry) : String := e.assignment.key

def word? : Entry → Option Octets
  | word cs _ => some (octets (String.ofList cs))
  | _ => none

def number? (setting : Setting) : Entry → Option Int
  | number given _ n _ => if given = setting then some n.toInt else none
  | _ => none

-- The number that a step limit counts as, which has 64 bits.
def steps? (e : Entry) : Option UInt64 :=
  (e.number? .maxSteps).map fun n => UInt64.ofNat (n % 2 ^ 64).toNat

def verbose? : Entry → Option Bool
  | verbose b => some b
  | _ => none

def unknown? : Entry → Option ConfigError
  | other name .. => some (.unknownKey (String.ofList name))
  | _ => none

end Entry

def document (newline : Toml.Newline) (closed : Bool) (entries : List Entry) : Octets :=
  octets (String.ofList (Toml.lines newline closed (entries.map Entry.assignment)))

-- Each setting as some entry gives it, and otherwise as in the standard configuration.
def described (entries : List Entry) : Config where
  word := (entries.findSome? Entry.word?).getD standard.word
  registers := (entries.findSome? (Entry.number? .registers)).getD standard.registers
  stackCapacity := (entries.findSome? (Entry.number? .stackCapacity)).getD standard.stackCapacity
  memorySize := (entries.findSome? (Entry.number? .memorySize)).getD standard.memorySize
  maxSteps := (entries.findSome? Entry.steps?).getD standard.maxSteps
  verbose := (entries.findSome? Entry.verbose?).getD standard.verbose

theorem foldCase_eq_toLower {c : Char} (h : Toml.isBare c = true) : foldCase c = c.toLower := by
  rw [foldCase, if_neg (Toml.ne_of_class h (by decide)), if_neg (Toml.ne_of_class h (by decide))]

theorem ofKey?_eq_none {name : List Char} (hbare : ∀ c ∈ name, Toml.isBare c = true)
    (hunknown : ∀ setting : Setting, name.map Char.toLower ≠ setting.key.toList) :
    Setting.ofKey? (String.ofList name) = none := by
  have hfold : name.map foldCase = name.map Char.toLower :=
    List.map_congr_left fun c hc => foldCase_eq_toLower (hbare c hc)
  simp only [Setting.ofKey?, String.toList_ofList, hfold, List.find?_eq_none, beq_iff_eq]
  exact fun setting _ heq => hunknown setting heq.symm

theorem keyText_bare {name : List Char} (hne : name ≠ []) (hbare : ∀ c ∈ name, Toml.isBare c = true) :
    keyText [String.ofList name] = String.ofList name := by
  have hpart : keyPartText (String.ofList name) = String.ofList name := by
    rw [keyPartText, if_pos]
    refine ⟨fun h => hne ?_, ?_⟩
    · simpa using h
    · rw [String.toList_ofList]
      exact List.all_eq_true.mpr hbare
  rw [keyText, List.map_singleton, hpart]
  rfl

namespace Entry

theorem key_ofSetting (setting : Setting) (scalar : Toml.Scalar) :
    (ofSetting setting scalar).key = setting.key := String.ofList_toList

theorem ofKey?_key (e : Entry) : Setting.ofKey? e.key = e.setting? := by
  cases e with
  | word cs plain => exact Setting.ofKey?_key .word
  | number setting isNumber n decimal =>
    rw [key, assignment, key_ofSetting, Setting.ofKey?_key, setting?]
  | verbose b => exact Setting.ofKey?_key .verbose
  | other name name_ne_nil name_bare unknown n decimal => exact ofKey?_eq_none name_bare unknown

theorem key_of_word? (e : Entry) (h : e.word?.isSome) : e.key = Setting.word.key := by
  cases e with
  | word cs plain => exact key_ofSetting _ _
  | _ => cases h

theorem key_of_number? (setting : Setting) (e : Entry) (h : (e.number? setting).isSome) :
    e.key = setting.key := by
  cases e with
  | number given isNumber n decimal =>
    by_cases hgiven : given = setting
    · rw [key, assignment, key_ofSetting, hgiven]
    · simp [number?, hgiven] at h
  | _ => cases h

theorem key_of_steps? (e : Entry) (h : e.steps?.isSome) : e.key = Setting.maxSteps.key :=
  key_of_number? .maxSteps e (by rwa [steps?, Option.isSome_map] at h)

theorem key_of_verbose? (e : Entry) (h : e.verbose?.isSome) : e.key = Setting.verbose.key := by
  cases e with
  | verbose b => exact key_ofSetting _ _
  | _ => cases h

theorem keyText_key (e : Entry) : keyText [e.key] = e.key :=
  keyText_bare e.assignment.name_ne_nil e.assignment.name_bare

def apply (config : Config) (e : Entry) : Config where
  word := e.word?.getD config.word
  registers := (e.number? .registers).getD config.registers
  stackCapacity := (e.number? .stackCapacity).getD config.stackCapacity
  memorySize := (e.number? .memorySize).getD config.memorySize
  maxSteps := e.steps?.getD config.maxSteps
  verbose := e.verbose?.getD config.verbose

theorem overlay_key {d : Toml.Document} {e : Entry}
    (h : d.get? 0 e.key = some (.leaf e.assignment.scalar.value)) (config : Config) :
    overlay d config [e.key] = some (apply config e) := by
  rw [overlay, ofKey?_key, h]
  cases e with
  | word cs plain => rfl
  | number setting isNumber n decimal =>
    cases setting with
    | word => cases isNumber
    | verbose => cases isNumber
    | _ => rfl
  | verbose b => rfl
  | other name name_ne_nil name_bare unknown n decimal => rfl

end Entry

section Fold

variable {α : Type} {given : Entry → Option α} {key : String} {entries : List Entry}

theorem given_eq_none (hkey : ∀ e, (given e).isSome → e.key = key) {e other : Entry} {v : α}
    (hgiven : given e = some v) (hne : other.key ≠ e.key) : given other = none := by
  by_contra hsome
  have hother := hkey other (Option.isSome_iff_ne_none.mpr hsome)
  exact hne (hother.trans (hkey e (Option.isSome_of_eq_some hgiven)).symm)

theorem foldlM_overlay {d : Toml.Document}
    (h : ∀ e ∈ entries, d.get? 0 e.key = some (.leaf e.assignment.scalar.value)) (config : Config) :
    (entries.map fun e => [e.key]).foldlM (overlay d) config =
      some (entries.foldl Entry.apply config) := by
  induction entries generalizing config with
  | nil => rfl
  | cons e rest ih =>
    rw [List.map_cons, List.foldlM_cons, Entry.overlay_key (h e List.mem_cons_self)]
    exact ih (fun e' he' => h e' (List.mem_cons_of_mem e he')) (Entry.apply config e)

-- A field that only entries with one key change is what the one such entry says.
theorem foldl_apply (field : Config → α) (given : Entry → Option α)
    (hkey : ∀ e, (given e).isSome → e.key = key)
    (hstep : ∀ config e, field (Entry.apply config e) = (given e).getD (field config))
    (distinct : (entries.map Entry.key).Nodup) (config : Config) :
    field (entries.foldl Entry.apply config) = (entries.findSome? given).getD (field config) := by
  induction entries generalizing config with
  | nil => rfl
  | cons e rest ih =>
    obtain ⟨hnew, hrest⟩ := List.nodup_cons.mp distinct
    rw [List.foldl_cons, ih hrest, hstep, List.findSome?_cons]
    cases hgiven : given e with
    | none => rfl
    | some v =>
      have hlater : rest.findSome? given = none := by
        rw [List.findSome?_eq_none_iff]
        intro other hother
        exact given_eq_none hkey hgiven fun heq => hnew (heq ▸ List.mem_map_of_mem hother)
      rw [hlater]
      rfl

-- The one entry with the key is found wherever it stands.
theorem findSome?_eq_some_iff_mem (hkey : ∀ e, (given e).isSome → e.key = key)
    (distinct : (entries.map Entry.key).Nodup) {v : α} :
    entries.findSome? given = some v ↔ ∃ e ∈ entries, given e = some v := by
  refine ⟨List.exists_of_findSome?_eq_some, ?_⟩
  rintro ⟨e, he, hgiven⟩
  obtain ⟨before, after, rfl⟩ := List.append_of_mem he
  refine List.findSome?_eq_some_iff.mpr ⟨before, e, after, rfl, hgiven, fun other hother => ?_⟩
  exact given_eq_none hkey hgiven (ne_of_nodup_map distinct other hother)

theorem findSome?_perm (hkey : ∀ e, (given e).isSome → e.key = key) {shuffled : List Entry}
    (hperm : shuffled.Perm entries) (distinct : (entries.map Entry.key).Nodup) :
    shuffled.findSome? given = entries.findSome? given := by
  have hshuffled : (shuffled.map Entry.key).Nodup := (hperm.map Entry.key).nodup_iff.mpr distinct
  ext v
  rw [findSome?_eq_some_iff_mem hkey hshuffled, findSome?_eq_some_iff_mem hkey distinct]
  simp only [hperm.mem_iff]

end Fold

theorem foldl_standard {entries : List Entry} (distinct : (entries.map Entry.key).Nodup) :
    entries.foldl Entry.apply standard = described entries := by
  have hnumber (setting : Setting) (field : Config → Int)
      (hstep : ∀ config e, field (Entry.apply config e) = (e.number? setting).getD (field config)) :=
    foldl_apply field (Entry.number? setting) (Entry.key_of_number? setting) hstep distinct standard
  rw [described, ← foldl_apply word Entry.word? Entry.key_of_word? (fun _ _ => rfl) distinct,
    ← hnumber .registers registers fun _ _ => rfl,
    ← hnumber .stackCapacity stackCapacity fun _ _ => rfl,
    ← hnumber .memorySize memorySize fun _ _ => rfl,
    ← foldl_apply maxSteps Entry.steps? Entry.key_of_steps? (fun _ _ => rfl) distinct,
    ← foldl_apply verbose Entry.verbose? Entry.key_of_verbose? (fun _ _ => rfl) distinct]

theorem described_perm {entries shuffled : List Entry} (hperm : shuffled.Perm entries)
    (distinct : (entries.map Entry.key).Nodup) : described shuffled = described entries := by
  have hnumber (setting : Setting) := findSome?_perm (Entry.key_of_number? setting) hperm distinct
  rw [described, findSome?_perm Entry.key_of_word? hperm distinct, hnumber, hnumber, hnumber,
    findSome?_perm Entry.key_of_steps? hperm distinct,
    findSome?_perm Entry.key_of_verbose? hperm distinct, described]

theorem unknown_keys (entries : List Entry) :
    ((entries.map fun e => [e.key]).filter (!isKnown ·)).map (.unknownKey <| keyText ·) =
      entries.filterMap Entry.unknown? := by
  induction entries with
  | nil => rfl
  | cons e rest ih =>
    have hknown : isKnown [e.key] = e.setting?.isSome := by
      rw [isKnown, Entry.ofKey?_key]
    rw [List.map_cons, List.filter_cons, hknown]
    cases e with
    | other name name_ne_nil name_bare unknown n decimal =>
      exact congrArg₂ List.cons (congrArg ConfigError.unknownKey (Entry.keyText_key _)) ih
    | _ => exact ih

theorem read_document (newline : Toml.Newline) (closed : Bool) {entries : List Entry}
    (distinct : (entries.map Entry.key).Nodup) :
    read (document newline closed entries) =
      some (described entries,
        entries.filterMap Entry.unknown? ++ (described entries).validate) := by
  have hnodup : ((entries.map Entry.assignment).map Toml.Assignment.key).Nodup := by
    rwa [List.map_map]
  obtain ⟨d, hparse, hd⟩ := Toml.Document.parse_lines_holds newline closed hnodup
  have hkeys : d.keys.toList = entries.map fun e => [e.key] := by
    rw [hd.keys, List.map_map]
    rfl
  have hfold := foldlM_overlay
    (fun e he => hd.get?_of_mem hnodup (List.mem_map_of_mem he)) standard
  rw [foldl_standard distinct] at hfold
  rw [read, document, hparse]
  simp only [Option.bind_eq_bind, Option.bind_some, hkeys, hfold, unknown_keys]
  rfl

-- A file whose lines name each key once is read as the standard configuration with exactly the
-- named settings replaced, in whatever order they stand. Unknown names are told in the order of the
-- lines, and behind them what is wrong with the configuration.
theorem read_document_overlays (newline : Toml.Newline) (closed : Bool) {entries : List Entry}
    (distinct : (entries.map Entry.key).Nodup) :
    read (document newline closed entries) =
        some (described entries, entries.filterMap Entry.unknown? ++ (described entries).validate) ∧
      ∀ shuffled : List Entry, shuffled.Perm entries → described shuffled = described entries :=
  ⟨read_document newline closed distinct, fun _ hperm => described_perm hperm distinct⟩

-- Both ends of the numbers, and a name that is no setting's.
def mixed : List Entry :=
  [.number .maxSteps rfl (-1) (.plain _),
    .other ['T', 'u', 'r', 'b', 'o'] (by decide) (List.all_eq_true.mp (by decide))
      (by intro setting; cases setting <;> decide) 7 (.plain _),
    .number .memorySize rfl Int64.minValue
      ⟨.minus, Int.le_of_lt (by decide), fun place => place % 3 = 1⟩,
    .word ['u', '8'] (List.all_eq_true.mp (by decide)),
    .verbose true,
    .number .registers rfl Int64.maxValue ⟨.plus, Int.le_of_lt (by decide), fun _ => false⟩]

theorem read_document_overlays_mixed :
    (mixed.map Entry.key).Nodup ∧
    read (octets ("max_steps = -1\r\nTurbo = 7\r\nmemory_size = -9_223_372_036_854_775_808\r\n" ++
      "word = \"u8\"\r\nverbose = true\r\nregisters = +9223372036854775807")) =
      some (⟨octets "u8", 9223372036854775807, 1024, -9223372036854775808, 18446744073709551615, true⟩,
        [.unknownKey "Turbo", .invalidSize .registers 9223372036854775807,
          .invalidSize .memorySize (-9223372036854775808)]) ∧
    described mixed.reverse = described mixed := by
  have hdistinct : (mixed.map Entry.key).Nodup := by
    decide +kernel
  have hread := read_document_overlays .crlf false hdistinct
  refine ⟨hdistinct, Eq.trans ?_ (hread.1.trans ?_), hread.2 mixed.reverse mixed.reverse_perm⟩
  · exact congrArg (read <| octets ·) (by decide +kernel)
  · decide +kernel

end Config

end RegisterMachine
