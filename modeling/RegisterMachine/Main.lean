import RegisterMachine.CommandLine.Run

namespace RegisterMachine.CommandLine

-- More ticks than any host gets through.
def endless : Nat := Nat.pow 2 62

-- The name of a place from the top directory on.
def fullName (path : Path) : Octets := path.flatMap ([47] ++ ·)

-- Adds what the host has at a place.
def look (disk : Disk) (path : Path) : IO Disk := do
  match Octets.text? (fullName path) with
  | none => return disk
  | some name =>
    try
      return disk.put path (← IO.FS.readBinFile name).data.toList
    catch
      | .inappropriateType .. => return { disk with directories := path :: disk.directories }
      | _ => return disk

-- The places that a name leads through.
def places (place : Path) : List Octets → List Path
  | [] => []
  | part :: rest => place.step part :: places (place.step part) rest

-- The part of the host's file system that the given names lead through.
def survey (names : List Octets) : IO Disk := do
  let working := (parts (octets (← IO.currentDir).toString)).filter (· ≠ [])
  let disk : Disk := ⟨working, [], []⟩
  let along := names.flatMap fun name => places (disk.start name) (parts name)
  (places [] working ++ along).eraseDups.foldlM look disk

-- Reads what the arguments name, runs the program on it, and writes what it leaves behind.
def perform (arguments : List String) : IO UInt32 := do
  let named : List Octets :=
    match parse (arguments.map octets) with
    | .ok (choices, [image]) =>
      [configPath choices, outputPath choices, snapshotPath choices, image]
    | _ => []
  let disk ← survey named
  let stdin ←
    if named.getLast? = some (octets "-") then do
      pure (← (← IO.getStdin).readBinToEnd).data.toList
    else pure []
  match run endless disk stdin (arguments.map octets) with
  | none => return 1
  | some result =>
    for (path, contents) in result.files do
      if let some name := Octets.text? (fullName path) then
        IO.FS.writeBinFile name (ByteArray.mk contents.toArray)
    (← IO.getStdout).write (ByteArray.mk result.out.toArray)
    (← IO.getStderr).write (ByteArray.mk result.err.toArray)
    return result.exit.toUInt32

end RegisterMachine.CommandLine

def main (arguments : List String) : IO UInt32 := RegisterMachine.CommandLine.perform arguments
