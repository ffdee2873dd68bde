import RegisterMachine.CommandLine.Disk
import RegisterMachine.CommandLine.Options
import RegisterMachine.Config.File
import RegisterMachine.Emulator

namespace RegisterMachine.CommandLine

-- What a run of the program leaves behind.
structure Result where
  exit : UInt8
  out : Octets
  err : Octets
  -- The files that were made or emptied, with their final contents.
  files : List (Path × Octets)
deriving DecidableEq

-- The disk, and the output and snapshot files as far as they have been made.
structure Files where
  disk : Disk
  output : Option Path
  snapshot : Option Path
deriving DecidableEq

namespace Files

def contents (files : Files) : List (Path × Octets) :=
  (files.output.toList ++ files.snapshot.toList).eraseDups.map fun path =>
    (path, files.disk.contents path)

-- Where the machine's snapshot goes.
def sink (files : Files) : Sink := if files.snapshot.isSome then .file else .none

-- Writes to the files that were made. Both may be the same, and each is written from its beginning.
def write (files : Files) (out snapshot : Octets) : Files :=
  let put (disk : Disk) (path : Option Path) (bytes : Octets) : Disk :=
    match path with
    | none => disk
    | some path => disk.write path bytes
  { files with disk := put (put files.disk files.output out) files.snapshot snapshot }

end Files

namespace Result

-- Ends with a message and nothing else.
def failure (message : Octets) (files : Files) : Result :=
  ⟨1, [], Octets.line message, files.contents⟩

-- A name could not be opened.
def unopened (name : Octets) (error : NameError) (files : Files) : Result :=
  failure (name ++ octets ": " ++ complaint "open" name error) files

def refused (refusal : Refusal) : Result :=
  ⟨if refusal = .help then 0 else 2, [], refusal.message ++ octets usage, []⟩

end Result

-- The configuration that a file holds, or what is wrong with the file.
def readConfig (disk : Disk) (path : Octets) : Except Octets Config := do
  match Config.read (← disk.readFile path) with
  | none => throw (octets "toml: invalid document")
  | some (config, []) => return config
  | some (_, errors) => throw (ImageError.messages (errors.map .config))

-- The configuration that the choices ask for: the file's, or the standard one, with what is given on
-- the command line in place of it.
def chosenConfig (disk : Disk) (choices : List Choice) : Except Octets Config := do
  let path := configPath choices
  let config ← if path = [] then pure Config.standard else
    match readConfig disk path with
    | .ok config => pure config
    | .error e => throw (path ++ octets ": " ++ e)
  return applyAll config choices

-- Makes the output and snapshot files, as far as they are wanted, the output first.
def makeFiles (disk : Disk) (output snapshot : Octets) : Except Result Files := do
  let files : Files := ⟨disk, none, none⟩
  let files ←
    if output = octets "-" then pure files
    else match files.disk.makeFile output with
      | .ok (path, disk) => pure { files with disk, output := some path }
      | .error e => throw (.unopened output e files)
  if snapshot = [] then return files
  else match files.disk.makeFile snapshot with
    | .ok (path, disk) => return { files with disk, snapshot := some path }
    | .error e => throw (.unopened snapshot e files)

-- What is left behind by a run of an image.
def finish (name : Octets) (config : Config) (files : Files) (report : Report) : Result :=
  let steps := Text.decimal report.steps.toNat
  let last :=
    if report.errors ≠ [] then
      Octets.line (ImageError.messages report.errors ++ octets (" (after " ++ steps ++ " steps)"))
    else if config.verbose then Octets.line (name ++ octets (": " ++ steps ++ " steps"))
    else []
  { exit := if report.errors = [] then 0 else 1
    out := if files.output.isNone then report.out else []
    err := (report.log.map Octets.line).flatten ++ last
    files := (files.write report.out report.snapshot).contents }

-- The output files, and the image or why it cannot be read. The image is opened before the output
-- and snapshot files are made, and read after that: one that is also an output is empty.
def prepare (disk : Disk) (stdin output snapshot name : Octets) :
    Except Result (Files × Except Octets Octets) := do
  let source ←
    if name = octets "-" then pure none
    else match disk.openSource name with
      | .ok source => pure (some source)
      | .error e => throw (.unopened name e ⟨disk, none, none⟩)
  let files ← makeFiles disk output snapshot
  match source with
  | none => return (files, .ok stdin)
  | some source => return (files, files.disk.read name source)

-- What is left behind in the end. There is no report if the run is not over.
def ended (name : Octets) (config : Config) (files : Files) :
    Except BuildError (Option Report) → Option Result
  | .ok report => report.map (finish name config files)
  | .error e => some ⟨2, [], octets ("panic: " ++ e.message ++ "\n"), files.contents⟩

-- Runs one image with a configuration. `none` if that takes more than `fuel` ticks.
def runOne (fuel : Nat) (disk : Disk) (stdin : Octets) (config : Config)
    (output snapshot name : Octets) : Option Result :=
  match prepare disk stdin output snapshot name with
  | .error result => some result
  | .ok (files, image) =>
    ended name config files (runImage fuel none config name (image.map List.toArray) files.sink)

-- The whole program.
def run (fuel : Nat) (disk : Disk) (stdin : Octets) (arguments : List Octets) : Option Result :=
  match parse arguments with
  | .error refusal => some (.refused refusal)
  | .ok (choices, [name]) =>
    match chosenConfig disk choices with
    | .error e => some (.failure e ⟨disk, none, none⟩)
    | .ok config => runOne fuel disk stdin config (outputPath choices) (snapshotPath choices) name
  | .ok (_, others) =>
    some (.failure (octets "forge: Expected one program image, got: [" ++
      Octets.join [32] others ++ octets "]") ⟨disk, none, none⟩)

end RegisterMachine.CommandLine
