import RegisterMachine.Machine.State

namespace RegisterMachine

-- What can be configured.
inductive Setting where
  | word
  | registers
  | stackCapacity
  | memorySize
  | maxSteps
  | verbose
deriving DecidableEq

namespace Setting

def all : List Setting := [.word, .registers, .stackCapacity, .memorySize, .maxSteps, .verbose]

-- The key of a setting in a configuration file.
def key : Setting → String
  | .word => "word"
  | .registers => "registers"
  | .stackCapacity => "stack_capacity"
  | .memorySize => "memory_size"
  | .maxSteps => "max_steps"
  | .verbose => "verbose"

end Setting

-- What a machine is built from. The word type is given by name, sizes may be any numbers: whether a
-- machine can be built is for `validate` to say.
structure Config where
  word : Octets
  registers : Int
  -- In words.
  stackCapacity : Int
  -- In bytes.
  memorySize : Int
  -- Zero for no limit.
  maxSteps : UInt64
  verbose : Bool
deriving DecidableEq

-- What is wrong with a configuration.
inductive ConfigError where
  | unknownKey (key : String)
  | invalidWord (name : Octets)
  | invalidSize (setting : Setting) (value : Int)
deriving DecidableEq

def ConfigError.message : ConfigError → Octets
  | .unknownKey key => Text.say "unknown configuration key '%v'" [.text (octets key)]
  | .invalidWord name =>
    Text.say "configuration %v = %v is invalid" [.text (octets Setting.word.key), .text name]
  | .invalidSize setting value =>
    Text.say "configuration %v = %v is invalid" [.text (octets setting.key), .int value]

namespace Config

def standard : Config where
  word := octets "i32"
  registers := Machine.defaultRegisters
  stackCapacity := 1024
  memorySize := 1024
  maxSteps := 0
  verbose := false

-- The settings that no machine can be built from.
def validate (config : Config) : List ConfigError :=
  (if (WordType.ofName? config.word).isNone then [.invalidWord config.word] else []) ++
  (if config.registers < 1 ∨ (Registers.limit : Int) < config.registers then
    [.invalidSize .registers config.registers] else []) ++
  (if config.stackCapacity < 0 then [.invalidSize .stackCapacity config.stackCapacity] else []) ++
  (if config.memorySize < 0 then [.invalidSize .memorySize config.memorySize] else [])

end Config

end RegisterMachine
