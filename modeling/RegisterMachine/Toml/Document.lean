import RegisterMachine.Toml.Value
import Std.Data.HashMap
import Std.Data.HashSet

namespace RegisterMachine.Toml

-- What a name in a table stands for. Tables are known by their numbers; of an array of tables only the
-- last one is open for more entries.
inductive Node where
  | leaf (value : Value)
  | table (number : Nat)
  | tables (last : Nat)

-- A path of names from the top.
abbrev Path := List String

-- What is known of a document while its statements are gone through. The table at the top has the
-- number zero.
structure Document where
  -- What each name in each table stands for.
  names : Std.HashMap (Nat × String) Node
  -- The number of the next table.
  next : Nat
  -- Every header and every key with a value, in the order in which they appear.
  keys : Array Path
  -- Tables that were made only because something in them was named. They may still be defined.
  implicit : Std.HashSet Path
  -- Names whose value is an array. They may be given another value.
  arrays : Std.HashSet Path

namespace Document

def empty : Document := ⟨∅, 1, #[], ∅, ∅⟩

def addKey (d : Document) (path : Path) : Document := { d with keys := d.keys.push path }

def markImplicit (d : Document) (path : Path) : Document :=
  { d with implicit := d.implicit.insert path }

def unmarkImplicit (d : Document) (path : Path) : Document :=
  { d with implicit := d.implicit.erase path }

-- Notes whether a name's value is an array. The empty name counts as the table it is in, except at
-- the top.
def noteArray (d : Document) (context : Path) (name : String) (isArray : Bool) : Document :=
  let path := if name = "" ∧ context ≠ [] then context else context ++ [name]
  { d with arrays := if isArray then d.arrays.insert path else d.arrays.erase path }

def get? (d : Document) (table : Nat) (name : String) : Option Node := d.names[(table, name)]?

def set (d : Document) (table : Nat) (name : String) (node : Node) : Document :=
  { d with names := d.names.insert (table, name) node }

-- Takes the next number for a table.
def newTable (d : Document) : Document × Nat := ({ d with next := d.next + 1 }, d.next)

-- The table that a name stands for.
def tableAt? (d : Document) (table : Nat) (name : String) : Option Nat :=
  match d.get? table name with
  | some (.table number) => some number
  | some (.tables last) => some last
  | _ => none

-- The table found by following a path; `none` if some name on it stands for no table.
def find? (d : Document) (table : Nat) : Path → Option Nat
  | [] => some table
  | name :: path => do d.find? (← d.tableAt? table name) path

-- Gives the name at the end of `path`, in the given table, its value. A name that has one already may
-- get another only if it is an array; an implicit table stays what it is and counts as defined from
-- then on.
def defineIn (d : Document) (table : Nat) (path : Path) (name : String) (node : Node) :
    Option Document :=
  if (d.get? table name).isNone then some (d.set table name node)
  else if d.arrays.contains path then some ((d.set table name node).unmarkImplicit path)
  else if d.implicit.contains path then some (d.unmarkImplicit path)
  else none

-- Gives a name in the table at `context` its value.
def define (d : Document) (context : Path) (name : String) (node : Node) : Option Document := do
  d.defineIn (← d.find? 0 context) (context ++ [name]) name node

-- Makes sure that there is a table at each of the names of `path`, which starts in the given table,
-- the one that the names in `done` lead to, the last of them first. A table that was not there is
-- implicit, and a value may be in the way.
def reach (d : Document) (table : Nat) (done : Path) : Path → Option (Document × Nat)
  | [] => some (d, table)
  | name :: path =>
    let done := name :: done
    match d.get? table name with
    | none =>
      let (d, number) := d.newTable
      ((d.set table name (.table number)).markImplicit done.reverse).reach number done path
    | some (.table number) => d.reach number done path
    | some (.tables last) => d.reach last done path
    | some (.leaf _) => none

-- Opens the table at `path`, as a table of its own or as the next one of an array of tables.
def openTable (d : Document) (path : Path) (inArray : Bool) : Option Document := do
  let name := path.getLast?.getD ""
  let (d, table) ← d.reach 0 [] path.dropLast
  let (d, number) := d.newTable
  if inArray then
    match d.get? table name with
    | none | some (.tables _) => return d.set table name (.tables number)
    | some _ => none
  else d.defineIn table path name (.table number)

-- Opens the tables that the first parts of a dotted key name. Such a table may be open already.
def openParts (d : Document) (context : Path) : Path → Option Document
  | [] => some d
  | name :: parts => do
    let context := context ++ [name]
    let d ← (d.markImplicit context).openTable context false
    d.openParts context parts

-- Adds an entry to a table that no path leads to yet.
def addEntry (d : Document) (table : Nat) (name : String) (node : Node) : Path → Option Document
  | [] => some (d.set table name node)
  | part :: parts =>
    match d.get? table part with
    | none =>
      let (d, number) := d.newTable
      (d.set table part (.table number)).addEntry number name node parts
    | some (.table number) => d.addEntry number name node parts
    | some _ => none

def isArray : Value → Bool
  | .array _ => true
  | _ => false

mutual

-- Goes through a value that is given to `name` in the table at `context`. The entries of inline
-- tables are defined on the way, also of those in arrays, each of which opens a new table.
def visit (d : Document) (context : Path) (name : String) (inArray : Bool) :
    Value → Option (Document × Node)
  | .array items => do
    let d ← visitItems (d.noteArray context name true) context name items
    return (d, .leaf (.array []))
  | .table entries => do
    let path := context ++ [name]
    let d ← (d.markImplicit path).openTable path inArray
    let (d, own) := d.newTable
    return (← visitEntries d path own entries, .table own)
  | value => some (d, .leaf value)

def visitItems (d : Document) (context : Path) (name : String) : List Value → Option Document
  | [] => some d
  | item :: rest => do
    let (d, _) ← visit d context name true item
    visitItems d context name rest

-- The table `own` is the inline table by itself.
def visitEntries (d : Document) (context : Path) (own : Nat) :
    List (List String × Value) → Option Document
  | [] => some d
  | (key, value) :: rest => do
    let parts := key.dropLast
    let name := key.getLast?.getD ""
    let d ← d.openParts context parts
    let inner := context ++ parts
    let (d, node) ← visit (d.addKey (inner ++ [name])) inner name false value
    let d ← d.define inner name node
    let d ← (d.noteArray inner name (isArray value)).addEntry own name node parts
    visitEntries d context own rest

end

-- Adds a statement. The context is the table that the last header opened.
def add (d : Document) (context : Path) : Statement → Option (Document × Path)
  | .header path => do
    let d ← d.openTable path false
    return ((d.noteArray path "" false).addKey path, path)
  | .arrayHeader path => do
    let d ← d.openTable path true
    return ((d.noteArray path "" false).addKey path, path)
  | .assign key value => do
    let (d, own) := d.newTable
    return (← d.visitEntries context own [(key, value)], context)

def addAll (d : Document) (context : Path) : List Statement → Option Document
  | [] => some d
  | statement :: rest => do
    let (d, context) ← d.add context statement
    d.addAll context rest

-- The document that a file holds.
def parse (bytes : Octets) : Option Document := do
  empty.addAll [] (← Toml.parse bytes)

end Document

end RegisterMachine.Toml
