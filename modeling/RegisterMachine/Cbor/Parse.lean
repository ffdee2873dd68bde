import RegisterMachine.Cbor.Item

namespace RegisterMachine.Cbor

-- Why bytes are not the wanted data item.
inductive Error where
  -- There are no bytes at all.
  | empty
  -- The bytes end inside an item.
  | cutShort
  -- Reserved or misplaced additional information, a break or chunk out of place.
  | illFormed
  | tooDeep
  | tooManyElements
  | tooManyPairs
  -- A length that no buffer has.
  | tooLong
  -- Bytes follow the item.
  | trailing
  -- The item is well formed but no value of the type asked for.
  | wrongType
  -- A text is not UTF-8.
  | badText
  -- A tag stands before an item that it does not fit.
  | badTag
deriving DecidableEq

-- Limits on what is read.
def maxLevels : Nat := 32

def maxElements : Nat := 131072

def maxPairs : Nat := 131072

def maxLength : Nat := Nat.pow 2 63

-- Reads something off the front of some bytes.
abbrev Reader (α : Type) := Octets → Except Error (α × Octets)

-- An item's first bytes: its major type, the additional information and the argument.
structure Head where
  major : Major
  info : Nat
  argument : Nat
deriving DecidableEq

-- The additional information that announces an indefinite length.
def indefinite : Nat := 31

-- Exactly `count` bytes.
def readOctets (count : Nat) : Reader Octets := fun bytes =>
  let piece := bytes.take count
  if piece.length < count then .error .cutShort else .ok (piece, bytes.drop count)

def readHead : Reader Head
  | [] => .error .cutShort
  | first :: rest => do
    let major := Major.ofCode (first.toNat / 32)
    let info := first.toNat % 32
    let sized (count : Nat) : Except Error (Head × Octets) := do
      let (bytes, rest) ← readOctets count rest
      return (⟨major, info, Octets.fromBigEndian bytes⟩, rest)
    match info with
    | 24 =>
      let (head, rest) ← sized 1
      if major = .simple ∧ head.argument < 32 then throw .illFormed
      return (head, rest)
    | 25 => sized 2
    | 26 => sized 4
    | 27 => sized 8
    | 28 | 29 | 30 => throw .illFormed
    | 31 =>
      match major with
      | .unsigned | .negative | .tag | .simple => throw .illFormed
      | _ => return (⟨major, info, info⟩, rest)
    | _ => return (⟨major, info, info⟩, rest)

-- The bytes of a string whose length is given by its head.
def readString (length : Nat) : Reader Octets := fun bytes =>
  if maxLength ≤ length then .error .tooLong else readOctets length bytes

-- Strings of the given major type up to a break. Each takes at least one byte, so `fuel` need not
-- be more than the number of bytes.
def readChunks (major : Major) : (fuel : Nat) → Array Octets → Reader (List Octets)
  | 0, _, _ => .error .cutShort
  | fuel + 1, chunks, bytes => do
    match bytes with
    | [] => throw .cutShort
    | 0xff :: rest => return (chunks.toList, rest)
    | first :: _ =>
      if Major.ofCode (first.toNat / 32) ≠ major ∨ first.toNat % 32 = indefinite then
        throw .illFormed
      let (head, rest) ← readHead bytes
      let (chunk, rest) ← readString head.argument rest
      readChunks major fuel (chunks.push chunk) rest

-- The chunks of a string whose head has been read.
def readPieces (head : Head) : Reader (List Octets) := fun bytes => do
  if head.info = indefinite then readChunks head.major bytes.length #[] bytes
  else
    let (value, rest) ← readString head.argument bytes
    return ([value], rest)

-- So many things in a row.
def readTimes {α : Type} (read : Reader α) : (count : Nat) → Array α → Reader (List α)
  | 0, found, bytes => .ok (found.toList, bytes)
  | count + 1, found, bytes => do
    let (a, rest) ← read bytes
    readTimes read count (found.push a) rest

-- Things up to a break, at most `limit` of them.
def readUntilBreak {α : Type} (read : Reader α) (tooMany : Error) :
    (limit : Nat) → Array α → Reader (List α)
  | limit, found, bytes => do
    match bytes with
    | [] => throw .cutShort
    | 0xff :: rest => return (found.toList, rest)
    | _ =>
      let (a, rest) ← read bytes
      match limit with
      | 0 => throw tooMany
      | limit + 1 => readUntilBreak read tooMany limit (found.push a) rest

-- A key and its value.
def readEntry (read : Reader Item) : Reader (Item × Item) := fun bytes => do
  let (key, rest) ← read bytes
  -- a break here would leave the key without a value
  if rest.head? = some 0xff then throw .illFormed
  let (value, rest) ← read rest
  return ((key, value), rest)

-- The elements of an array or map whose head has been read.
def readElements {α : Type} (read : Reader α) (head : Head) (limit : Nat) (tooMany : Error) :
    Reader (List α) := fun bytes => do
  if head.info = indefinite then readUntilBreak read tooMany limit #[] bytes
  else if maxLength ≤ head.argument then throw .tooLong
  else if limit < head.argument then throw tooMany
  else readTimes read head.argument #[] bytes

-- An item without tags whose head has been read. `nested` reads what stands inside an array or
-- map; at the lowest level nothing may.
def readBody (nested : Option (Reader Item)) (head : Head) : Reader Item := fun bytes => do
  match head.major with
  | .unsigned => return (.unsigned head.argument, bytes)
  | .negative => return (.negative head.argument, bytes)
  | .bytes =>
    let (pieces, rest) ← readPieces head bytes
    return (.bytes pieces.flatten, rest)
  | .text =>
    let (pieces, rest) ← readPieces head bytes
    return (.text pieces, rest)
  | .array =>
    match nested with
    | none => throw .tooDeep
    | some read =>
      let (items, rest) ← readElements read head maxElements .tooManyElements bytes
      return (.array items, rest)
  | .map =>
    match nested with
    | none => throw .tooDeep
    | some read =>
      let (entries, rest) ← readElements (readEntry read) head maxPairs .tooManyPairs bytes
      return (.map entries, rest)
  | .tag => throw .illFormed
  | .simple =>
    match head.info with
    | 25 => return (.float 2 head.argument, bytes)
    | 26 => return (.float 4 head.argument, bytes)
    | 27 => return (.float 8 head.argument, bytes)
    | _ => return (.simple head.argument, bytes)

-- What can be read with so many levels left: an item, and what stands behind a tag. A tag right
-- behind a tag costs a level, the first one does not.
structure Level where
  item : Reader Item
  content : Reader Item

def Level.above (below : Option Level) : Level :=
  let content : Reader Item := fun bytes => do
    let (head, rest) ← readHead bytes
    if head.major = .tag then
      match below with
      | none => throw .tooDeep
      | some below =>
        let (item, rest) ← below.content rest
        return (.tag head.argument item, rest)
    else readBody (below.map Level.item) head rest
  let item : Reader Item := fun bytes => do
    let (head, rest) ← readHead bytes
    if head.major = .tag then
      let (item, rest) ← content rest
      return (.tag head.argument item, rest)
    else readBody (below.map Level.item) head rest
  ⟨item, content⟩

def level : Nat → Level
  | 0 => .above none
  | levels + 1 => .above (some (level levels))

-- The one item that the bytes encode.
def parse (bytes : Octets) : Except Error Item := do
  if bytes = [] then throw .empty
  let (item, rest) ← (level maxLevels).item bytes
  if rest ≠ [] then throw .trailing
  return item

end RegisterMachine.Cbor
