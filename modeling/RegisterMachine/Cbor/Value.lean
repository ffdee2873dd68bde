import RegisterMachine.Cbor.Parse

namespace RegisterMachine.Cbor

-- An item with its tags resolved.
inductive Value where
  | unsigned (n : Nat)
  | negative (n : Nat)
  | bytes (value : Octets)
  | text (chunks : List Octets)
  | array (items : List Item)
  | map (entries : List (Item × Item))
  | simple (n : Nat)
  | float
  -- A big number, `-1 - n` if negative, with `n` given by its bytes, highest first.
  | big (negative : Bool) (digits : Octets)

-- Whether a tag of a known meaning may stand before the item: a date is a text, an instant is a
-- number, a big number is a byte string.
def tagFits (number : Nat) (content : Item) : Bool :=
  match number, content with
  | 0, .text _ => true
  | 1, .unsigned _ | 1, .negative _ | 1, .float _ _ => true
  | 2, .bytes _ | 3, .bytes _ => true
  | 0, _ | 1, _ | 2, _ | 3, _ => false
  | _, _ => true

-- Tags are dropped, except those of big numbers.
def Item.value : Item → Except Error Value
  | .unsigned n => .ok (.unsigned n)
  | .negative n => .ok (.negative n)
  | .bytes value => .ok (.bytes value)
  | .text chunks => .ok (.text chunks)
  | .array items => .ok (.array items)
  | .map entries => .ok (.map entries)
  | .simple n => .ok (.simple n)
  | .float _ _ => .ok .float
  | .tag number content =>
    if tagFits number content then
      match number, content with
      | 2, .bytes value => .ok (.big false value)
      | 3, .bytes value => .ok (.big true value)
      | _, _ => content.value
    else .error .badTag

-- Null and undefined stand for the zero of any type.
def isNull (n : Nat) : Bool := n = 22 || n = 23

-- The bytes of a text. Each chunk must be UTF-8 on its own.
def joinText (chunks : List Octets) : Except Error Octets :=
  if chunks.all Octets.isText then .ok chunks.flatten else .error .badText

-- The complaint about a value of another type. A text is checked before its type is.
def mismatch {α : Type} : Value → Except Error α
  | .text chunks =>
    match joinText chunks with
    | .error e => .error e
    | .ok _ => .error .wrongType
  | _ => .error .wrongType

def inRange (low high n : Int) : Except Error Int :=
  if low ≤ n ∧ n ≤ high then .ok n else .error .wrongType

-- An integer between two bounds. A simple value with no other meaning counts as its number.
def Item.int (low high : Int) (item : Item) : Except Error Int := do
  match ← item.value with
  | .unsigned n => inRange low high n
  | .negative n => inRange low high (-1 - n)
  | .simple n =>
    if isNull n then return 0
    if n = 20 ∨ n = 21 then throw .wrongType
    inRange low high n
  | .big false digits => inRange low high (Octets.fromBigEndian digits)
  | .big true digits => inRange low high (-1 - Octets.fromBigEndian digits)
  | value => mismatch value

def Item.bool (item : Item) : Except Error Bool := do
  match ← item.value with
  | .simple n =>
    if isNull n then return false
    if n = 20 then return false
    if n = 21 then return true
    throw .wrongType
  | value => mismatch value

def Item.string (item : Item) : Except Error Octets := do
  match ← item.value with
  | .text chunks => joinText chunks
  | .simple n => if isNull n then return [] else throw .wrongType
  | value => mismatch value

-- A sequence of things, each read by `read`.
def Item.list {α : Type} (read : Item → Except Error α) (item : Item) : Except Error (List α) := do
  match ← item.value with
  | .array items => items.mapM read
  | .simple n => if isNull n then return [] else throw .wrongType
  | value => mismatch value

def Item.byte (item : Item) : Except Error UInt8 := do
  return UInt8.ofNat (← item.int 0 255).toNat

-- Bytes: a byte string, the bytes of a big number, or an array of small numbers.
def Item.octets (item : Item) : Except Error Octets := do
  match ← item.value with
  | .bytes value => return value
  | .big _ value => return value
  | _ => item.list Item.byte

-- The keys that name fields of a record.
inductive Key where
  | int (n : Int)
  | text (name : Octets)
deriving DecidableEq

-- A key is a text or an integer of 64 bits, and has no tag.
def Item.key : Item → Except Error Key
  | .unsigned n => .ok (.int n)
  | .negative n => if n < maxLength then .ok (.int (-1 - n)) else .error .wrongType
  | .text chunks =>
    match joinText chunks with
    | .ok name => .ok (.text name)
    | .error e => .error e
  | _ => .error .wrongType

-- Fills a record from the entries of a map. `field` finds the field that a key names and `set`
-- reads its value. The first entry of a field counts, and entries of no field are skipped.
def fill {φ σ : Type} [DecidableEq φ] (field : Key → Option φ)
    (set : φ → Item → σ → Except Error σ) : List (Item × Item) → List φ → σ → Except Error σ
  | [], _, record => .ok record
  | (key, value) :: rest, seen, record => do
    match field (← key.key) with
    | none => fill field set rest seen record
    | some f =>
      if f ∈ seen then fill field set rest seen record
      else fill field set rest (f :: seen) (← set f value record)

-- A record: a map, or null for the record with every field zero.
def Item.record {φ σ : Type} [DecidableEq φ] (field : Key → Option φ)
    (set : φ → Item → σ → Except Error σ) (zero : σ) (item : Item) : Except Error σ := do
  match ← item.value with
  | .map entries => fill field set entries [] zero
  | .simple n => if isNull n then return zero else throw .wrongType
  | value => mismatch value

end RegisterMachine.Cbor
