import RegisterMachine.Proofs.ConfigFile
import RegisterMachine.Proofs.Report

namespace RegisterMachine

variable {t : WordType}

theorem WordType.ofName?_eq_none_iff {text : Octets} :
    ofName? text = none ↔ text ∉ names.map octets := by
  simp [ofName?, names]

-- The setting that an error is about.
def ConfigError.setting? : ConfigError → Option Setting
  | .unknownKey _ => none
  | .invalidWord _ => some .word
  | .invalidSize setting _ => some setting

theorem Setting.mem_all (setting : Setting) : setting ∈ all := by
  cases setting <;> decide

namespace Config

-- The value of a setting is one that no machine has.
def OutOfRange (config : Config) : Setting → Prop
  | .word => config.word ∉ WordType.names.map octets
  | .registers => ¬(1 ≤ config.registers ∧ config.registers ≤ 256)
  | .stackCapacity => config.stackCapacity < 0
  | .memorySize => config.memorySize < 0
  | .maxSteps | .verbose => False

instance (config : Config) : DecidablePred config.OutOfRange
  | .word => inferInstanceAs (Decidable (_ ∉ _))
  | .registers => inferInstanceAs (Decidable (¬(_ ∧ _)))
  | .stackCapacity | .memorySize => inferInstanceAs (Decidable (_ < _))
  | .maxSteps | .verbose => inferInstanceAs (Decidable False)

-- The host has room for the stack and the memory, unless their sizes are negative.
def Allocates (config : Config) (t : WordType) : Prop :=
  (0 ≤ config.stackCapacity → isPossible config.stackCapacity t.bytes = true) ∧
    (0 ≤ config.memorySize → isPossible config.memorySize 1 = true)

theorem settings_validate (config : Config) :
    config.validate.map ConfigError.setting? =
      (Setting.all.filter (config.OutOfRange ·)).map some := by
  have hword : (WordType.ofName? config.word).isNone = true ↔ config.OutOfRange .word :=
    Option.isNone_iff_eq_none.trans WordType.ofName?_eq_none_iff
  have hregisters : config.registers < 1 ∨ (Registers.limit : Int) < config.registers ↔
      config.OutOfRange .registers := by
    simp only [OutOfRange, Registers.limit]
    omega
  have hstack : config.stackCapacity < 0 ↔ config.OutOfRange .stackCapacity := Iff.rfl
  have hmemory : config.memorySize < 0 ↔ config.OutOfRange .memorySize := Iff.rfl
  have hlimit : config.OutOfRange .maxSteps ↔ False := Iff.rfl
  have hverbose : config.OutOfRange .verbose ↔ False := Iff.rfl
  simp only [validate, hword, hregisters, hstack, hmemory, hlimit, hverbose, Setting.all,
    List.filter_cons, decide_eq_true_eq, if_false]
  split_ifs <;> rfl

theorem mem_settings_validate_iff {config : Config} {setting : Setting} :
    some setting ∈ config.validate.map ConfigError.setting? ↔ config.OutOfRange setting := by
  rw [settings_validate]
  simp [Setting.mem_all]

theorem validate_eq_nil_iff {config : Config} :
    config.validate = [] ↔ ∀ setting, ¬config.OutOfRange setting := by
  have hempty : config.validate = [] ↔ config.validate.map ConfigError.setting? = [] := by simp
  rw [hempty, settings_validate]
  simp [Setting.mem_all]

theorem validate_of_read {bytes : Octets} {config : Config} (h : read bytes = some (config, [])) :
    config.validate = [] := by
  simp only [read, Option.bind_eq_bind, Option.bind_eq_some_iff] at h
  obtain ⟨document, -, config', -, hresult⟩ := h
  obtain ⟨rfl, herrors⟩ := Prod.mk.inj (Option.some.inj hresult)
  exact (List.append_eq_nil_iff.mp herrors).2

end Config

-- A register file in range takes at most 2048 bytes, which every host has.
theorem Machine.exists_make {registers stack memory : Int}
    (hregisters : 1 ≤ registers ∧ registers ≤ 256) (hstack : isPossible stack t.bytes = true)
    (hmemory : isPossible memory 1 = true) (maxSteps : UInt64) (verbose : Bool) :
    ∃ m, Machine.make t registers stack memory maxSteps verbose = .ok m := by
  have hcount : ¬(registers < 1 ∨ (Registers.limit : Int) < registers) := by
    simp only [Registers.limit]
    omega
  have hfile : isPossible registers t.bytes = true := by
    have hbytes := t.bytes_le
    have hsize : registers * t.bytes ≤ 256 * 8 :=
      Int.mul_le_mul hregisters.2 (by omega) (by omega) (by omega)
    have hlimit : (256 * 8 : Int) ≤ hostLimit := by decide
    simp only [isPossible, Bool.and_eq_true, decide_eq_true_eq]
    omega
  simp only [make, if_neg hcount, Registers.make, if_pos hfile, Stack.make, if_pos hstack,
    Memory.make, if_pos hmemory]
  exact ⟨_, rfl⟩

namespace Emulator

theorem exists_machine_of_make {config : Config} {e : Emulator t} (h : make t config = .ok e) :
    ∃ m, Machine.make t config.registers config.stackCapacity config.memorySize config.maxSteps
      false = .ok m := by
  rw [make] at h
  cases hm : Machine.make t config.registers config.stackCapacity config.memorySize config.maxSteps
      false with
  | error reason =>
    rw [hm] at h
    cases h
  | ok m => exact ⟨m, rfl⟩

-- The sizes of a machine are those of a configuration.
structure Fits (e : Emulator t) (config : Config) : Prop where
  registers : (e.machine.registers.values.size : Int) = config.registers
  stack : (e.machine.stack.capacity : Int) = config.stackCapacity
  memory : (e.machine.memory.size : Int) = config.memorySize
  maxSteps : e.machine.maxSteps = config.maxSteps

theorem make_fits {config : Config} (hroom : config.Allocates t)
    (hregisters : ¬config.OutOfRange .registers) (hstack : ¬config.OutOfRange .stackCapacity)
    (hmemory : ¬config.OutOfRange .memorySize) : ∃ e, make t config = .ok e ∧ e.Fits config := by
  have hcount : 1 ≤ config.registers ∧ config.registers ≤ 256 := not_not.mp hregisters
  have hcapacity : 0 ≤ config.stackCapacity := Int.not_lt.mp hstack
  have hsize : 0 ≤ config.memorySize := Int.not_lt.mp hmemory
  obtain ⟨m, hm⟩ := Machine.exists_make hcount (hroom.1 hcapacity) (hroom.2 hsize) config.maxSteps
    false
  obtain ⟨e, he, -, -, halike⟩ := exists_make hm
  obtain ⟨hregisters', hcapacity', hmemory', hmaxSteps'⟩ := Machine.make_sizes hm
  refine ⟨e, he, ?_⟩
  constructor
  case registers =>
    rw [← halike.registers, hregisters']
    omega
  case stack =>
    rw [← halike.capacity, hcapacity']
    omega
  case memory =>
    rw [← halike.memory, hmemory']
    omega
  case maxSteps => rw [← halike.maxSteps, hmaxSteps']

theorem make_error_iff {config : Config} (hroom : config.Allocates t) :
    (∃ reason, make t config = .error reason) ↔
      config.OutOfRange .registers ∨ config.OutOfRange .stackCapacity ∨
        config.OutOfRange .memorySize := by
  constructor
  · rintro ⟨reason, herror⟩
    by_contra hnone
    obtain ⟨hregisters, hrest⟩ := not_or.mp hnone
    obtain ⟨hstack, hmemory⟩ := not_or.mp hrest
    obtain ⟨e, hok, -⟩ := make_fits hroom hregisters hstack hmemory
    cases herror.symm.trans hok
  · intro hout
    cases hmake : make t config with
    | error reason => exact ⟨reason, rfl⟩
    | ok e =>
      obtain ⟨m, hm⟩ := exists_machine_of_make hmake
      obtain ⟨hregisters, ⟨hstack, -⟩, hmemory, -⟩ := Machine.make_bounds hm
      obtain hout | hout | hout := hout
      · exact absurd hregisters hout
      · exact absurd hout (Int.not_lt.mpr hstack)
      · exact absurd hout (Int.not_lt.mpr hmemory)

end Emulator

theorem runImage_of_room {config : Config}
    (hroom : ∀ t, WordType.ofName? config.word = some t → config.Allocates t) (fuel : Nat)
    (grants : Option Nat) (name : Octets) (source : Except Octets (Array UInt8)) (sink : Sink) :
    ∃ report, runImage fuel grants config name source sink = .ok report := by
  by_cases hvalid : config.validate = []
  · obtain ⟨t, ht⟩ := Config.exists_ofName? hvalid
    have hrange := Config.validate_eq_nil_iff.mp hvalid
    obtain ⟨e, he, -⟩ := Emulator.make_fits (hroom t ht) (hrange .registers) (hrange .stackCapacity)
      (hrange .memorySize)
    cases source with
    | error reason => exact ⟨_, runImage_unreadable hvalid ht he fuel grants name reason sink⟩
    | ok image => exact ⟨_, runImage_loaded hvalid ht he fuel grants name image sink⟩
  · exact ⟨_, runImage_refused hvalid fuel grants name source sink⟩

-- Validation and construction agree: what is reported are the settings out of range, each once and
-- in their order, and a machine can be built unless one of its sizes is among them. An image is
-- only run on a machine that can be built, whose word type is known.
theorem validation_matches_construction (config : Config) :
    config.validate.map ConfigError.setting? =
        (Setting.all.filter (config.OutOfRange ·)).map some ∧
      (config.validate = [] ↔ ∀ setting, ¬config.OutOfRange setting) ∧
      (∀ t, config.Allocates t →
        ((∃ reason, Emulator.make t config = .error reason) ↔
          ∃ setting ∈ [Setting.registers, .stackCapacity, .memorySize],
            some setting ∈ config.validate.map ConfigError.setting?)) ∧
      (config.validate = [] → ∃ t, WordType.ofName? config.word = some t) ∧
      ((∀ t, WordType.ofName? config.word = some t → config.Allocates t) →
        ∀ fuel grants name source sink,
          ∃ report, runImage fuel grants config name source sink = .ok report) ∧
      ∀ bytes, Config.read bytes = some (config, []) → ∀ t, config.Allocates t →
        ∃ e, Emulator.make t config = .ok e ∧ e.Fits config := by
  refine ⟨config.settings_validate, Config.validate_eq_nil_iff, ?_, Config.exists_ofName?,
    fun hroom fuel grants name source sink => runImage_of_room hroom fuel grants name source sink,
    ?_⟩
  · intro t hroom
    rw [Emulator.make_error_iff hroom]
    simp [Config.mem_settings_validate_iff]
  · intro bytes hread t hroom
    have hrange := Config.validate_eq_nil_iff.mp (Config.validate_of_read hread)
    exact Emulator.make_fits hroom (hrange .registers) (hrange .stackCapacity) (hrange .memorySize)

-- Only the memory is as it should be.
def hostile : Config where
  word := octets "i9"
  registers := 257
  stackCapacity := -1
  memorySize := 0
  maxSteps := 0
  verbose := false

-- The most registers and no room for anything else, as a file says it.
def extremeEntries : List Config.Entry :=
  [.number .memorySize (@rfl _ true) 0 (.plain _),
    .word ['u', '6', '4'] (List.all_eq_true.mp (by decide)),
    .number .registers (@rfl _ true) 256 (.plain _),
    .number .stackCapacity (@rfl _ true) 0 (.plain _)]

def extreme : Config := ⟨octets "u64", 256, 0, 0, 0, false⟩

theorem validation_matches_construction_hostile :
    (hostile.Allocates ⟨.eight, false⟩ ∧
      (∃ reason, Emulator.make ⟨.eight, false⟩ hostile = .error reason) ∧
      ∃ report, runImage 0 none hostile [] (.ok #[]) .none = .ok report) ∧
    Config.read (octets "memory_size = 0\nword = \"u64\"\nregisters = 256\nstack_capacity = 0") =
        some (extreme, []) ∧
      extreme.Allocates ⟨.eight, false⟩ ∧
      ∃ e, Emulator.make ⟨.eight, false⟩ extreme = .ok e ∧ e.Fits extreme := by
  have hroom : hostile.Allocates ⟨.eight, false⟩ := ⟨by decide, by decide⟩
  obtain ⟨-, -, hpanics, -, hruns, -⟩ := validation_matches_construction hostile
  have hunknown : WordType.ofName? hostile.word = none := by decide
  have hread : Config.read
      (octets "memory_size = 0\nword = \"u64\"\nregisters = 256\nstack_capacity = 0") =
        some (extreme, []) := by
    have hdistinct : (extremeEntries.map Config.Entry.key).Nodup := by decide +kernel
    have hdocument := Config.read_document .lf false hdistinct
    refine Eq.trans ?_ (hdocument.trans (by decide +kernel))
    exact congrArg (Config.read <| octets ·) (by decide +kernel)
  have hroom' : extreme.Allocates ⟨.eight, false⟩ := ⟨by decide, by decide⟩
  obtain ⟨-, -, -, -, -, hbuilds⟩ := validation_matches_construction extreme
  refine ⟨⟨hroom, (hpanics _ hroom).mpr ⟨.registers, by decide, by decide⟩, ?_⟩, hread, hroom',
    hbuilds _ hread _ hroom'⟩
  exact hruns (fun t ht => nomatch hunknown.symm.trans ht) 0 none [] (.ok #[]) .none

end RegisterMachine
