import RegisterMachine.CommandLine.Literal
import RegisterMachine.Config
import RegisterMachine.Text.Quoted

namespace RegisterMachine.CommandLine

-- The options, in the order of their letters.
inductive Flag where
  | config
  | snapshot
  | memory
  | steps
  | output
  | registers
  | stack
  | verbose
  | word
deriving DecidableEq

namespace Flag

def all : List Flag :=
  [.config, .snapshot, .memory, .steps, .output, .registers, .stack, .verbose, .word]

def letter : Flag → String
  | .config => "c"
  | .snapshot => "d"
  | .memory => "m"
  | .steps => "n"
  | .output => "o"
  | .registers => "r"
  | .stack => "s"
  | .verbose => "v"
  | .word => "w"

def ofName? (name : Octets) : Option Flag := all.find? (octets ·.letter == name)

-- The kind of value that an option takes; a switch takes none.
def kind : Flag → String
  | .config | .snapshot | .output | .word => " string"
  | .memory | .registers | .stack => " int"
  | .steps => " uint"
  | .verbose => ""

def help : Flag → String
  | .config => ".toml machine configuration"
  | .snapshot => ".cbor snapshot of the final state"
  | .memory => "Memory size, in bytes"
  | .steps => "Maximum steps, 0 for unlimited"
  | .output => "State dump output (default \"-\")"
  | .registers => "Register count"
  | .stack => "Stack capacity, in words"
  | .verbose => "Verbose mode"
  | .word => "Word type (i8, i16, i32, i64, u8, u16, u32, u64) (default \"i32\")"

-- An option's lines of help. There is room for the help of a switch on the first line.
def usage (flag : Flag) : String :=
  "  -" ++ flag.letter ++ flag.kind ++ (if flag.kind = "" then "\t" else "\n    \t") ++ flag.help ++
    "\n"

end Flag

def usage : String := "Usage of forge:\n" ++ String.join (Flag.all.map Flag.usage)

-- An option with its value.
inductive Choice where
  | config (path : Octets)
  | snapshot (path : Octets)
  | memory (size : Int)
  | steps (limit : UInt64)
  | output (path : Octets)
  | registers (count : Int)
  | stack (capacity : Int)
  | verbose (b : Bool)
  | word (name : Octets)
deriving DecidableEq

-- Why the arguments are not acted upon.
inductive Refusal where
  -- Help was asked for.
  | help
  | badForm (argument : Octets)
  | unknown (name : Octets)
  | missingValue (flag : Flag)
  | badValue (flag : Flag) (value : Octets) (error : LiteralError)
  | badSwitch (flag : Flag) (value : Octets)
deriving DecidableEq

-- What is said in front of the usage.
def Refusal.message : Refusal → Octets
  | .help => []
  | .badForm argument => octets "bad flag syntax: " ++ argument ++ octets "\n"
  | .unknown name => octets "flag provided but not defined: -" ++ name ++ octets "\n"
  | .missingValue flag => octets ("flag needs an argument: -" ++ flag.letter ++ "\n")
  | .badValue flag value error =>
    octets ("invalid value " ++ Text.quoted value ++ " for flag -" ++ flag.letter ++ ": " ++
      error.message ++ "\n")
  | .badSwitch flag value =>
    octets ("invalid boolean value " ++ Text.quoted value ++ " for -" ++ flag.letter ++ ": " ++
      LiteralError.malformed.message ++ "\n")

-- Gives an option its value.
def choose (flag : Flag) (value : Octets) : Except Refusal Choice :=
  let number {α : Type} (read : Octets → Except LiteralError α) (make : α → Choice) :
      Except Refusal Choice :=
    match read value with
    | .ok n => .ok (make n)
    | .error e => .error (.badValue flag value e)
  match flag with
  | .config => .ok (.config value)
  | .snapshot => .ok (.snapshot value)
  | .output => .ok (.output value)
  | .word => .ok (.word value)
  | .memory => number signed .memory
  | .registers => number signed .registers
  | .stack => number signed .stack
  | .steps => number unsigned (.steps <| UInt64.ofNat ·)
  | .verbose =>
    match truth value with
    | some b => .ok (.verbose b)
    | none => .error (.badSwitch flag value)

-- The part before the first equals sign, and the part behind it if there is one. A sign that comes
-- first does not count.
def splitValue : Octets → Octets × Option Octets
  | [] => ([], none)
  | first :: rest =>
    match rest.dropWhile (· ≠ 61) with
    | [] => (first :: rest, none)
    | _ :: value => (first :: rest.takeWhile (· ≠ 61), some value)

-- The name behind one dash or two.
def undash : Octets → Octets
  | 45 :: 45 :: name => name
  | 45 :: name => name
  | bytes => bytes

-- Whether options end at an argument. A single dash is the name of an image.
def endsOptions (argument : Octets) : Bool := argument.length < 2 || argument.head? ≠ some 45

-- The options in front and the arguments behind them. Two dashes alone end the options and are
-- dropped.
def parse : List Octets → Except Refusal (List Choice × List Octets)
  | [] => .ok ([], [])
  | argument :: rest =>
    if endsOptions argument then .ok ([], argument :: rest)
    else if argument = [45, 45] then .ok ([], rest)
    else
      let text := undash argument
      if text = [] ∨ text.head? = some 45 ∨ text.head? = some 61 then .error (.badForm argument)
      else
        let (name, value) := splitValue text
        match Flag.ofName? name with
        | none =>
          if name = octets "help" ∨ name = octets "h" then .error .help
          else .error (.unknown name)
        | some flag =>
          match flag, value, rest with
          | flag, some value, rest => do
            let choice ← choose flag value
            let (choices, others) ← parse rest
            return (choice :: choices, others)
          | .verbose, none, rest => do
            let (choices, others) ← parse rest
            return (.verbose true :: choices, others)
          | flag, none, value :: rest => do
            let choice ← choose flag value
            let (choices, others) ← parse rest
            return (choice :: choices, others)
          | flag, none, [] => .error (.missingValue flag)

-- The value of the last of several choices that something can be taken from.
def last {α : Type} (pick : Choice → Option α) (choices : List Choice) : Option α :=
  (choices.filterMap pick).getLast?

-- The configuration file, if one is named.
def configPath (choices : List Choice) : Octets :=
  (last (fun | .config path => some path | _ => none) choices).getD []

def outputPath (choices : List Choice) : Octets :=
  (last (fun | .output path => some path | _ => none) choices).getD (octets "-")

def snapshotPath (choices : List Choice) : Octets :=
  (last (fun | .snapshot path => some path | _ => none) choices).getD []

-- Changes the setting that a choice is about. Settings that are not chosen keep their values, and
-- the last choice counts.
def Choice.apply (config : Config) : Choice → Config
  | .word name => { config with word := name }
  | .registers count => { config with registers := count }
  | .stack capacity => { config with stackCapacity := capacity }
  | .memory size => { config with memorySize := size }
  | .steps limit => { config with maxSteps := limit }
  | .verbose b => { config with verbose := b }
  | .config _ | .output _ | .snapshot _ => config

def applyAll (config : Config) (choices : List Choice) : Config := choices.foldl Choice.apply config

end RegisterMachine.CommandLine
