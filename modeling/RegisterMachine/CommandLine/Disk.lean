import RegisterMachine.Octets

namespace RegisterMachine.CommandLine

-- Why a name cannot be opened.
inductive NameError where
  | notFound
  | notDirectory
  | isDirectory
  | tooLong
  -- The name has a zero byte in it.
  | invalid
deriving DecidableEq

def NameError.message : NameError → String
  | .notFound => "no such file or directory"
  | .notDirectory => "not a directory"
  | .isDirectory => "is a directory"
  | .tooLong => "file name too long"
  | .invalid => "invalid argument"

-- A complaint of the file system about a name.
def complaint (action : String) (name : Octets) (error : NameError) : Octets :=
  octets (action ++ " ") ++ name ++ octets (": " ++ error.message)

-- Where a file or directory stands: the names that lead to it from the top directory.
abbrev Path := List Octets

namespace Path

-- Where a part of a name leads from a directory. One dot, or nothing between two slashes, stays
-- there, and two dots go up.
def step (place : Path) (part : Octets) : Path :=
  if part = [] ∨ part = [46] then place
  else if part = [46, 46] then place.dropLast
  else place ++ [part]

end Path

-- The files and directories of a host. Names are followed from the working directory on, unless they
-- start with a slash.
structure Disk where
  working : Path
  directories : List Path
  files : List (Path × Octets)
deriving DecidableEq

-- The parts of a name between slashes.
def parts (name : Octets) : List Octets := name.split 47

-- The longest part of a name, and the longest name.
def partLimit : Nat := 255

def nameLimit : Nat := 4095

-- What a name stands for as far as its last part: a directory that is there, or an entry of one that
-- may be there or not. `slash` tells that a slash follows the last part.
inductive Target where
  | directory
  | entry (place : Path) (part : Octets) (slash : Bool)
deriving DecidableEq

-- What was opened for reading. A directory can be opened, but not read.
inductive Source where
  | directory
  | file (path : Path)
deriving DecidableEq

namespace Disk

def isDirectory (disk : Disk) (path : Path) : Bool := path = [] || disk.directories.contains path

-- Where a name starts.
def start (disk : Disk) (name : Octets) : Path := if name.head? = some 47 then [] else disk.working

-- Follows parts of a name, all of which must lead to directories.
def walk (disk : Disk) (place : Path) : List Octets → Except NameError Path
  | [] => .ok place
  | part :: rest =>
    let next := place.step part
    if partLimit < part.length then .error .tooLong
    else if disk.isDirectory next then disk.walk next rest
    else if (disk.files.lookup next).isSome then .error .notDirectory
    else .error .notFound

def locate (disk : Disk) (name : Octets) : Except NameError Target := do
  if name.contains 0 then throw .invalid
  if name = [] then throw .notFound
  if nameLimit < name.length then throw .tooLong
  let all := parts name
  let named := (all.reverse.dropWhile (· = [])).reverse
  match named.getLast? with
  | none => return .directory
  | some last =>
    let place ← disk.walk (disk.start name) named.dropLast
    if last = [46] ∨ last = [46, 46] then return .directory
    return .entry place last (named.length < all.length)

-- Opens something for reading.
def openSource (disk : Disk) (name : Octets) : Except NameError Source := do
  match ← disk.locate name with
  | .directory => return .directory
  | .entry place part slash =>
    if partLimit < part.length then throw .tooLong
    let path := place.step part
    if disk.isDirectory path then return .directory
    if (disk.files.lookup path).isNone then throw .notFound
    if slash then throw .notDirectory
    return .file path

-- Puts a file in its place, instead of the one that is there.
def put (disk : Disk) (path : Path) (contents : Octets) : Disk :=
  { disk with files := (path, contents) :: disk.files.filter (·.1 ≠ path) }

-- Makes an empty file, or empties the one that is there.
def makeFile (disk : Disk) (name : Octets) : Except NameError (Path × Disk) := do
  match ← disk.locate name with
  | .directory => throw .isDirectory
  | .entry place part slash =>
    if slash then throw .isDirectory
    if partLimit < part.length then throw .tooLong
    let path := place.step part
    if disk.isDirectory path then throw .isDirectory
    return (path, disk.put path [])

-- The contents of a file; nothing if it is not there.
def contents (disk : Disk) (path : Path) : Octets := (disk.files.lookup path).getD []

-- Writes over a file from its beginning on. What is longer than the bytes written stays.
def write (disk : Disk) (path : Path) (bytes : Octets) : Disk :=
  disk.put path (bytes ++ (disk.contents path).drop bytes.length)

-- Reads all of what was opened under a name.
def read (disk : Disk) (name : Octets) : Source → Except Octets Octets
  | .directory => .error (complaint "read" name .isDirectory)
  | .file path => .ok (disk.contents path)

-- Opens a file and reads all of it.
def readFile (disk : Disk) (name : Octets) : Except Octets Octets :=
  match disk.openSource name with
  | .error e => .error (complaint "open" name e)
  | .ok source => disk.read name source

-- The name of a file in the working directory.
def localName? (disk : Disk) (path : Path) : Option Octets :=
  if path.dropLast = disk.working then path.getLast? else none

end Disk

-- The directories that every host has.
def usualDirectories : List Path :=
  ["bin", "dev", "etc", "home", "lib", "opt", "proc", "root", "run", "sbin", "sys", "tmp", "usr",
    "var"].map fun name => [octets name]

-- A host whose working directory holds the given files and nothing else. Apart from them there is
-- only the file that is always empty.
def holding (files : List (Octets × Octets)) : Disk :=
  let working := [octets "tmp", octets "work"]
  { working
    directories := working :: usualDirectories
    files := ([octets "dev", octets "null"], []) ::
      files.map fun (name, contents) => (working ++ [name], contents) }

end RegisterMachine.CommandLine
