import RegisterMachine.CommandLine.Run
import RegisterMachine.Proofs.ConfigFile

namespace RegisterMachine.CommandLine

variable {α : Type}

def Choice.flag : Choice → Flag
  | .config _ => .config
  | .snapshot _ => .snapshot
  | .memory _ => .memory
  | .steps _ => .steps
  | .output _ => .output
  | .registers _ => .registers
  | .stack _ => .stack
  | .verbose _ => .verbose
  | .word _ => .word

-- The texts that an option takes for a value, and what is chosen by them.
inductive Means : Flag → Octets → Choice → Prop where
  | config (path : Octets) : Means .config path (.config path)
  | snapshot (path : Octets) : Means .snapshot path (.snapshot path)
  | output (path : Octets) : Means .output path (.output path)
  | word (name : Octets) : Means .word name (.word name)
  | memory (text : Octets) (size : Int) (h : signed text = .ok size) :
    Means .memory text (.memory size)
  | registers (text : Octets) (count : Int) (h : signed text = .ok count) :
    Means .registers text (.registers count)
  | stack (text : Octets) (capacity : Int) (h : signed text = .ok capacity) :
    Means .stack text (.stack capacity)
  | steps (text : Octets) (limit : Nat) (h : unsigned text = .ok limit) :
    Means .steps text (.steps (UInt64.ofNat limit))
  | verbose (text : Octets) (b : Bool) (h : truth text = some b) : Means .verbose text (.verbose b)

theorem choose_of_means (h : Means flag text choice) : choose flag text = .ok choice := by
  cases h <;> simp_all [choose]

theorem means_of_choose (h : choose flag text = .ok choice) : Means flag text choice := by
  unfold choose at h
  cases flag <;> simp only at h
  case memory | registers | stack | steps | verbose =>
    split at h <;> cases h
    constructor
    assumption
  all_goals
    cases h
    constructor

def dashes (long : Bool) : Octets := if long then [45, 45] else [45]

def valuePart : Option Octets → Octets
  | none => []
  | some text => 61 :: text

-- An option behind one dash or two, with its value if that is part of the same argument.
def written (long : Bool) (flag : Flag) (value : Option Octets) : Octets :=
  dashes long ++ (octets flag.letter ++ valuePart value)

-- Command lines, with what is chosen by them and the image that they name.
inductive Spells : List Octets → List Choice → Octets → Prop where
  -- The image comes last. It does not look like an option, or two dashes stand in front of it.
  | image (name : Octets) (h : name = [45] ∨ name.head? ≠ some 45) : Spells [name] [] name
  | dashed (name : Octets) : Spells [[45, 45], name] [] name
  | joined (long : Bool) (flag : Flag) (text : Octets) (choice : Choice)
    (means : Means flag text choice) (rest : Spells arguments choices name) :
    Spells (written long flag (some text) :: arguments) (choice :: choices) name
  | apart (long : Bool) (flag : Flag) (text : Octets) (choice : Choice)
    (means : Means flag text choice) (takes : flag ≠ .verbose)
    (rest : Spells arguments choices name) :
    Spells (written long flag none :: text :: arguments) (choice :: choices) name
  | switch (long : Bool) (rest : Spells arguments choices name) :
    Spells (written long .verbose none :: arguments) (.verbose true :: choices) name

theorem octets_letter (flag : Flag) : ∃ b, octets flag.letter = [b] ∧ b ≠ 45 ∧ b ≠ 61 := by
  cases flag <;> exact ⟨_, rfl, by decide, by decide⟩

theorem ofName?_letter (flag : Flag) : Flag.ofName? (octets flag.letter) = some flag := by
  cases flag <;> decide

theorem undash_written (long : Bool) (flag : Flag) (value : Option Octets) :
    undash (written long flag value) = octets flag.letter ++ valuePart value := by
  obtain ⟨b, hletter, hdash, -⟩ := octets_letter flag
  cases long <;> simp [written, dashes, hletter, undash, hdash]

theorem splitValue_undash_written (long : Bool) (flag : Flag) (value : Option Octets) :
    splitValue (undash (written long flag value)) = (octets flag.letter, value) := by
  obtain ⟨b, hletter, -, -⟩ := octets_letter flag
  rw [undash_written, hletter]
  cases value <;> simp [splitValue, valuePart]

theorem endsOptions_written (long : Bool) (flag : Flag) (value : Option Octets) :
    endsOptions (written long flag value) = false := by
  obtain ⟨b, hletter, -, -⟩ := octets_letter flag
  cases long <;> simp [written, dashes, hletter, endsOptions]

theorem written_ne_dashes (long : Bool) (flag : Flag) (value : Option Octets) :
    written long flag value ≠ [45, 45] := by
  obtain ⟨b, hletter, hdash, -⟩ := octets_letter flag
  cases long <;> simp [written, dashes, hletter, hdash]

theorem undash_written_wellFormed (long : Bool) (flag : Flag) (value : Option Octets) :
    ¬(undash (written long flag value) = [] ∨ (undash (written long flag value)).head? = some 45 ∨
      (undash (written long flag value)).head? = some 61) := by
  obtain ⟨b, hletter, hdash, hequals⟩ := octets_letter flag
  rw [undash_written, hletter]
  simp [hdash, hequals]

theorem parse_of_spells (h : Spells arguments choices name) :
    parse arguments = .ok (choices, [name]) := by
  induction h
  case image name h =>
    have hends : endsOptions name = true := by
      obtain rfl | h := h
      · rfl
      · simp [endsOptions, h]
    simp [parse, hends]
  case dashed name => simp [parse, endsOptions]
  all_goals
    rw [parse]
    simp only [endsOptions_written, written_ne_dashes, undash_written_wellFormed,
      splitValue_undash_written, ofName?_letter]
  case joined long flag text choice means rest ih =>
    rw [choose_of_means means, ih]
    rfl
  case apart long flag text choice means takes rest ih =>
    rw [choose_of_means means, ih]
    cases flag
    case verbose => exact absurd rfl takes
    all_goals rfl
  case switch long rest ih =>
    rw [ih]
    rfl

theorem eq_of_splitValue (h : splitValue text = (name, value)) :
    text = name ++ valuePart value := by
  cases text with
  | nil =>
    cases h
    rfl
  | cons first rest =>
    have hcut : rest.takeWhile (· ≠ 61) ++ rest.dropWhile (· ≠ 61) = rest :=
      List.takeWhile_append_dropWhile
    have hequals := List.head?_dropWhile_not (· ≠ 61) rest
    simp only [splitValue] at h
    split at h
    · cases h
      simp [valuePart]
    · rename_i b after hdrop
      cases h
      rw [hdrop] at hcut hequals
      have hb : b = 61 := by simpa using hequals
      rw [hb] at hcut
      rw [valuePart, List.cons_append, hcut]

theorem eq_dashes_undash (h : endsOptions argument ≠ true) :
    ∃ long, argument = dashes long ++ undash argument := by
  match argument with
  | [] | [_] => simp [endsOptions] at h
  | a :: b :: tail =>
    obtain rfl : a = 45 := by simpa [endsOptions] using h
    by_cases hb : b = 45
    · exact ⟨true, by simp [hb, dashes, undash]⟩
    · exact ⟨false, by simp [hb, dashes, undash]⟩

theorem exists_written (hends : endsOptions argument ≠ true)
    (hsplit : splitValue (undash argument) = (letter, value))
    (hflag : Flag.ofName? letter = some flag) : ∃ long, argument = written long flag value := by
  obtain ⟨long, hargument⟩ := eq_dashes_undash hends
  have hletter : octets flag.letter = letter := by simpa using List.find?_some hflag
  rw [eq_of_splitValue hsplit, ← hletter] at hargument
  exact ⟨long, hargument⟩

theorem bind_eq_ok (x : Except ε α) (f : α → Except ε β) (h : x >>= f = .ok b) :
    ∃ a, x = .ok a ∧ f a = .ok b := by
  cases x with
  | error e => cases h
  | ok a => exact ⟨a, rfl, h⟩

theorem spells_of_parse (h : parse arguments = .ok (choices, [name])) :
    Spells arguments choices name := by
  fun_induction parse arguments generalizing choices with
  | case1 => simp at h
  | case2 argument rest hends =>
    cases h
    refine .image name ?_
    match name with
    | [] => simp
    | [b] => by_cases hb : b = 45 <;> simp [hb]
    | a :: b :: tail => simpa [endsOptions, show ¬tail.length + 1 + 1 < 2 by omega] using hends
  | case3 rest hends =>
    cases h
    exact .dashed name
  | case4 => simp at h
  | case5 => simp at h
  | case6 => simp at h
  | case7 argument hends _ _ _ letter flag value rest hsplit hflag =>
    rename_i ih
    obtain ⟨long, rfl⟩ := exists_written hends hsplit hflag
    obtain ⟨choice, hchoose, h⟩ := bind_eq_ok _ _ h
    obtain ⟨⟨choices', others⟩, hparse, h⟩ := bind_eq_ok _ _ h
    cases h
    exact .joined long flag value choice (means_of_choose hchoose) (ih hparse)
  | case8 argument hends _ _ _ letter rest hsplit hflag =>
    rename_i ih
    obtain ⟨long, rfl⟩ := exists_written hends hsplit hflag
    obtain ⟨⟨choices', others⟩, hparse, h⟩ := bind_eq_ok _ _ h
    cases h
    exact .switch long (ih hparse)
  | case9 argument hends _ _ _ letter flag value rest takes hsplit hflag =>
    rename_i ih
    obtain ⟨long, rfl⟩ := exists_written hends hsplit hflag
    obtain ⟨choice, hchoose, h⟩ := bind_eq_ok _ _ h
    obtain ⟨⟨choices', others⟩, hparse, h⟩ := bind_eq_ok _ _ h
    cases h
    exact .apart long flag value choice (means_of_choose hchoose) takes (ih hparse)
  | case10 => simp at h

theorem parse_eq_ok_iff (arguments : List Octets) (choices : List Choice) (name : Octets) :
    parse arguments = .ok (choices, [name]) ↔ Spells arguments choices name :=
  ⟨spells_of_parse, parse_of_spells⟩

namespace Choice

def config? : Choice → Option Octets
  | config path => some path
  | _ => none

def output? : Choice → Option Octets
  | output path => some path
  | _ => none

def snapshot? : Choice → Option Octets
  | snapshot path => some path
  | _ => none

def word? : Choice → Option Octets
  | word name => some name
  | _ => none

def registers? : Choice → Option Int
  | registers count => some count
  | _ => none

def stack? : Choice → Option Int
  | stack capacity => some capacity
  | _ => none

def memory? : Choice → Option Int
  | memory size => some size
  | _ => none

def steps? : Choice → Option UInt64
  | steps limit => some limit
  | _ => none

def verbose? : Choice → Option Bool
  | verbose b => some b
  | _ => none

end Choice

-- A configuration in which the last value given to each option takes the place of what was there.
def overridden (base : Config) (choices : List Choice) : Config where
  word := (choices.findSomeRev? Choice.word?).getD base.word
  registers := (choices.findSomeRev? Choice.registers?).getD base.registers
  stackCapacity := (choices.findSomeRev? Choice.stack?).getD base.stackCapacity
  memorySize := (choices.findSomeRev? Choice.memory?).getD base.memorySize
  maxSteps := (choices.findSomeRev? Choice.steps?).getD base.maxSteps
  verbose := (choices.findSomeRev? Choice.verbose?).getD base.verbose

-- One setting follows the choices that bear on it.
theorem applyAll_setting (setting : Config → α) (pick : Choice → Option α)
    (hstep : ∀ config choice, setting (Choice.apply config choice) =
      (pick choice).getD (setting config)) (base : Config) (choices : List Choice) :
    setting (applyAll base choices) = (choices.findSomeRev? pick).getD (setting base) := by
  unfold applyAll
  induction choices generalizing base with
  | nil => rfl
  | cons choice choices ih =>
    rw [List.foldl_cons, ih, hstep, List.findSomeRev?]
    cases choices.findSomeRev? pick <;> rfl

theorem applyAll_eq_overridden (base : Config) (choices : List Choice) :
    applyAll base choices = overridden base choices := by
  have hword := applyAll_setting Config.word Choice.word?
    (by rintro config (_ | _) <;> rfl) base choices
  have hregisters := applyAll_setting Config.registers Choice.registers?
    (by rintro config (_ | _) <;> rfl) base choices
  have hstack := applyAll_setting Config.stackCapacity Choice.stack?
    (by rintro config (_ | _) <;> rfl) base choices
  have hmemory := applyAll_setting Config.memorySize Choice.memory?
    (by rintro config (_ | _) <;> rfl) base choices
  have hsteps := applyAll_setting Config.maxSteps Choice.steps?
    (by rintro config (_ | _) <;> rfl) base choices
  have hverbose := applyAll_setting Config.verbose Choice.verbose?
    (by rintro config (_ | _) <;> rfl) base choices
  rw [overridden, ← hword, ← hregisters, ← hstack, ← hmemory, ← hsteps, ← hverbose]

theorem last_eq_findSomeRev? (pick : Choice → Option α) (choices : List Choice) :
    last pick choices = choices.findSomeRev? pick := by
  rw [last, List.getLast?_filterMap, List.findSomeRev?_eq_findSome?_reverse]

theorem configPath_eq (choices : List Choice) :
    configPath choices = (choices.findSomeRev? Choice.config?).getD [] := by
  rw [← last_eq_findSomeRev?]
  rfl

theorem outputPath_eq (choices : List Choice) :
    outputPath choices = (choices.findSomeRev? Choice.output?).getD (octets "-") := by
  rw [← last_eq_findSomeRev?]
  rfl

theorem snapshotPath_eq (choices : List Choice) :
    snapshotPath choices = (choices.findSomeRev? Choice.snapshot?).getD [] := by
  rw [← last_eq_findSomeRev?]
  rfl

-- The configuration that is there before options are looked at: the standard one if no file is
-- named, and otherwise what the contents of the file say, with nothing wrong.
def IsBase (disk : Disk) (path : Octets) (base : Config) : Prop :=
  if path = [] then base = Config.standard
  else ∃ contents, disk.readFile path = .ok contents ∧ Config.read contents = some (base, [])

theorem readConfig_of_contents {disk : Disk} {path contents : Octets} {base : Config}
    (hfile : disk.readFile path = .ok contents) (hread : Config.read contents = some (base, [])) :
    readConfig disk path = .ok base := by
  simp only [readConfig, hfile, bind, Except.bind, hread]
  rfl

-- A file of lines that name settings, each once, is a base: its settings go before the standard
-- ones.
theorem isBase_of_document {disk : Disk} {path : Octets} {newline : Toml.Newline} {closed : Bool}
    {entries : List Config.Entry} (hpath : path ≠ [])
    (hfile : disk.readFile path = .ok (Config.document newline closed entries))
    (distinct : (entries.map Config.Entry.key).Nodup)
    (hknown : entries.filterMap Config.Entry.unknown? = [])
    (hvalid : (Config.described entries).validate = []) :
    IsBase disk path (Config.described entries) := by
  rw [IsBase, if_neg hpath]
  refine ⟨_, hfile, ?_⟩
  rw [Config.read_document newline closed distinct, hknown, hvalid]
  rfl

theorem chosenConfig_of_isBase (h : IsBase disk (configPath choices) base) :
    chosenConfig disk choices = .ok (overridden base choices) := by
  rw [← applyAll_eq_overridden]
  by_cases hpath : configPath choices = []
  · rw [IsBase, if_pos hpath] at h
    simp only [chosenConfig, if_pos hpath, h]
    rfl
  · rw [IsBase, if_neg hpath] at h
    obtain ⟨contents, hfile, hread⟩ := h
    simp only [chosenConfig, if_neg hpath, readConfig_of_contents hfile hread]
    rfl

theorem run_of_spells (fuel : Nat) (disk : Disk) (stdin : Octets)
    (h : Spells arguments choices name) :
    run fuel disk stdin arguments =
      match chosenConfig disk choices with
      | .error e => some (.failure e ⟨disk, none, none⟩)
      | .ok config =>
        runOne fuel disk stdin config (outputPath choices) (snapshotPath choices) name := by
  have hparse := (parse_eq_ok_iff arguments choices name).2 h
  cases hconfig : chosenConfig disk choices with
  | error e => simp only [run, hparse, hconfig]
  | ok config => simp only [run, hparse, hconfig]

-- The values that each option is given are the same, and in the same order.
def SameByFlag (a b : List Choice) : Prop :=
  ∀ flag : Flag, a.filter (·.flag = flag) = b.filter (·.flag = flag)

theorem findSomeRev?_filter (pick : Choice → Option α) (flag : Flag)
    (hpick : ∀ choice, choice.flag ≠ flag → pick choice = none) (choices : List Choice) :
    (choices.filter (·.flag = flag)).findSomeRev? pick = choices.findSomeRev? pick := by
  rw [← last_eq_findSomeRev?, ← last_eq_findSomeRev?, last, last, List.filterMap_filter]
  congr 2
  funext choice
  by_cases h : choice.flag = flag
  · simp [h]
  · simp [h, hpick choice h]

namespace SameByFlag

theorem findSomeRev?_eq (h : SameByFlag a b) (pick : Choice → Option α) (flag : Flag)
    (hpick : ∀ choice, choice.flag ≠ flag → pick choice = none) :
    a.findSomeRev? pick = b.findSomeRev? pick := by
  rw [← findSomeRev?_filter pick flag hpick a, h flag, findSomeRev?_filter pick flag hpick b]

theorem overridden_eq (h : SameByFlag a b) (base : Config) :
    overridden base a = overridden base b := by
  unfold overridden
  rw [h.findSomeRev?_eq Choice.word? .word (by rintro (_ | _) <;> simp [Choice.flag, Choice.word?]),
    h.findSomeRev?_eq Choice.registers? .registers
      (by rintro (_ | _) <;> simp [Choice.flag, Choice.registers?]),
    h.findSomeRev?_eq Choice.stack? .stack
      (by rintro (_ | _) <;> simp [Choice.flag, Choice.stack?]),
    h.findSomeRev?_eq Choice.memory? .memory
      (by rintro (_ | _) <;> simp [Choice.flag, Choice.memory?]),
    h.findSomeRev?_eq Choice.steps? .steps
      (by rintro (_ | _) <;> simp [Choice.flag, Choice.steps?]),
    h.findSomeRev?_eq Choice.verbose? .verbose
      (by rintro (_ | _) <;> simp [Choice.flag, Choice.verbose?])]

theorem paths_eq (h : SameByFlag a b) :
    configPath a = configPath b ∧ outputPath a = outputPath b ∧
      snapshotPath a = snapshotPath b := by
  have hconfig := h.findSomeRev?_eq Choice.config? .config
    (by rintro (_ | _) <;> simp [Choice.flag, Choice.config?])
  have houtput := h.findSomeRev?_eq Choice.output? .output
    (by rintro (_ | _) <;> simp [Choice.flag, Choice.output?])
  have hsnapshot := h.findSomeRev?_eq Choice.snapshot? .snapshot
    (by rintro (_ | _) <;> simp [Choice.flag, Choice.snapshot?])
  simp only [configPath_eq, outputPath_eq, snapshotPath_eq, hconfig, houtput, hsnapshot, and_self]

theorem chosenConfig_eq (h : SameByFlag a b) (disk : Disk) :
    chosenConfig disk a = chosenConfig disk b := by
  simp only [chosenConfig, h.paths_eq.1, applyAll_eq_overridden, h.overridden_eq]

end SameByFlag

-- What is given on the command line goes before the file, and the file before the standard
-- configuration. The image is run with the last value of each option, and the order of different
-- options does not matter.
theorem options_override_file (fuel : Nat) (disk : Disk) (stdin : Octets) (arguments : List Octets)
    (choices : List Choice) (name : Octets) (h : Spells arguments choices name) :
    (∀ base, IsBase disk ((choices.findSomeRev? Choice.config?).getD []) base →
      match prepare disk stdin ((choices.findSomeRev? Choice.output?).getD (octets "-"))
        ((choices.findSomeRev? Choice.snapshot?).getD []) name with
      | .error result => run fuel disk stdin arguments = some result
      | .ok (files, image) =>
        run fuel disk stdin arguments =
          ended name (overridden base choices) files
            (runImage fuel none (overridden base choices) name (image.map List.toArray)
              files.sink)) ∧
    (∀ newline closed (entries : List Config.Entry) path, path ≠ [] →
      disk.readFile path = .ok (Config.document newline closed entries) →
      (entries.map Config.Entry.key).Nodup → entries.filterMap Config.Entry.unknown? = [] →
      (Config.described entries).validate = [] → IsBase disk path (Config.described entries)) ∧
    ∀ others reordered, Spells others reordered name → SameByFlag reordered choices →
      run fuel disk stdin others = run fuel disk stdin arguments := by
  refine ⟨?_, fun _ _ _ _ => isBase_of_document, ?_⟩
  · intro base hbase
    rw [← configPath_eq] at hbase
    rw [run_of_spells fuel disk stdin h, chosenConfig_of_isBase hbase, ← outputPath_eq,
      ← snapshotPath_eq]
    simp only [runOne]
    cases prepare disk stdin (outputPath choices) (snapshotPath choices) name <;> rfl
  · intro others reordered hothers hsame
    obtain ⟨-, houtput, hsnapshot⟩ := hsame.paths_eq
    rw [run_of_spells fuel disk stdin hothers, run_of_spells fuel disk stdin h,
      hsame.chosenConfig_eq, houtput, hsnapshot]

-- What the configuration file of the disk below says.
def fileEntries : List Config.Entry :=
  [.number .registers (@rfl _ true) 7 (.plain _), .number .maxSteps (@rfl _ true) 9 (.plain _),
    .verbose true, .number .stackCapacity (@rfl _ true) 5 (.plain _)]

-- A configuration file, and an image whose name begins with a dash.
def twoFiles : Disk :=
  holding [(octets "m",
      octets "registers = 7\nmax_steps = 9\nverbose = true\nstack_capacity = 5\n"),
    (octets "-x", [])]

def repeating : List Octets :=
  ["-c", "m", "--n=5", "-v", "-r", "0x3", "-n", "0", "-v=false", "--", "-x"].map octets

def rearranged : List Octets :=
  ["-v=1", "-n", "5", "--v=F", "-n=0", "-r=3", "--c", "m", "--", "-x"].map octets

-- The word and the memory are the standard ones, the stack is the file's, and the rest is given on
-- the command line, in part by what is standard.
def finalConfig : Config where
  word := octets "i32"
  registers := 3
  stackCapacity := 5
  memorySize := 1024
  maxSteps := 0
  verbose := false

theorem options_override_file_repeating :
    IsBase twoFiles (octets "m") ⟨octets "i32", 7, 5, 1024, 9, true⟩ ∧
      run 10 twoFiles [] repeating =
        ended (octets "-x") finalConfig ⟨twoFiles, none, none⟩
          (runImage 10 none finalConfig (octets "-x") (.ok #[]) .none) ∧
      run 10 twoFiles [] rearranged = run 10 twoFiles [] repeating := by
  have hspells : Spells repeating [.config (octets "m"), .steps 5, .verbose true, .registers 3,
      .steps 0, .verbose false] (octets "-x") :=
    .apart false .config _ _ (.config _) (by decide) <|
    .joined true .steps (octets "5") _ (.steps _ 5 rfl) <|
    .switch false <|
    .apart false .registers _ _ (.registers _ 3 rfl) (by decide) <|
    .apart false .steps _ _ (.steps _ 0 rfl) (by decide) <|
    .joined false .verbose (octets "false") _ (.verbose _ false rfl) <|
    .dashed _
  have hothers : Spells rearranged [.verbose true, .steps 5, .verbose false, .steps 0, .registers 3,
      .config (octets "m")] (octets "-x") :=
    .joined false .verbose (octets "1") _ (.verbose _ true rfl) <|
    .apart false .steps _ _ (.steps _ 5 rfl) (by decide) <|
    .joined true .verbose (octets "F") _ (.verbose _ false rfl) <|
    .joined false .steps (octets "0") _ (.steps _ 0 rfl) <|
    .joined false .registers (octets "3") _ (.registers _ 3 rfl) <|
    .apart true .config _ _ (.config _) (by decide) <|
    .dashed _
  have hfile : twoFiles.readFile (octets "m") = .ok (Config.document .lf true fileEntries) := by
    decide +kernel
  have hprepare : prepare twoFiles [] (octets "-") [] (octets "-x") =
      .ok (⟨twoFiles, none, none⟩, .ok []) := by rfl
  obtain ⟨hfirst, hdocument, hsecond⟩ := options_override_file 10 twoFiles [] repeating _ _ hspells
  have hbase := hdocument .lf true fileEntries (octets "m") (by decide) hfile (by decide +kernel)
    rfl (by decide +kernel)
  refine ⟨hbase, ?_, hsecond rearranged _ hothers (by rintro (_ | _) <;> rfl)⟩
  have hrun := hfirst _ hbase
  simp only [List.findSomeRev?, Choice.output?, Choice.snapshot?, Option.getD_none,
    hprepare] at hrun
  exact hrun

end RegisterMachine.CommandLine
