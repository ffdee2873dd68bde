import RegisterMachine.Toml.Number
import RegisterMachine.Toml.Date

namespace RegisterMachine.Toml

-- A value as it is written. Of floats and dates only the kind is kept.
inductive Value where
  | string (s : String)
  | integer (n : Int)
  | boolean (b : Bool)
  | float
  | date
  | array (items : List Value)
  -- An inline table: keys of one or several parts, in the order in which they are written.
  | table (entries : List (List String × Value))

-- A number or a date, from its first digit or sign on.
def numeric (cs : List Char) : Option (Value × List Char) :=
  match cs with
  | c :: rest =>
    if c = '+' || c = '-' then
      match rest with
      | 'i' :: 'n' :: 'f' :: rest => some (.float, rest)
      | 'n' :: 'a' :: 'n' :: rest => some (.float, rest)
      | d :: _ =>
        if d.isDigit then
          match Numeral.decimal.span [] rest with
          | (.float, inside, rest) => if isFloat (c :: inside) then some (.float, rest) else none
          | (_, inside, rest) => (integer (c :: inside)).map (.integer ·, rest)
        else none
      | [] => none
    else
      match c, rest with
      | '0', letter :: digits =>
        match baseOf letter with
        | some base => do
          let (n, rest) ← basedInteger base digits
          return (.integer n, rest)
        | none => plain
      | _, _ => plain
  | [] => none
where
  plain : Option (Value × List Char) :=
    match Numeral.digits.span [] cs with
    | (.float, inside, rest) => if isFloat inside then some (.float, rest) else none
    | (.date, inside, rest) =>
      if isDate (inside.reverse.dropWhile (· = ' ')).reverse then some (.date, rest) else none
    | (_, inside, rest) => (integer inside).map (.integer ·, rest)

-- A value that holds no others.
def scalar (cs : List Char) : Option (Value × List Char) :=
  match cs with
  | 't' :: 'r' :: 'u' :: 'e' :: rest => some (.boolean true, rest)
  | 'f' :: 'a' :: 'l' :: 's' :: 'e' :: rest => some (.boolean false, rest)
  | 'i' :: 'n' :: 'f' :: rest => some (.float, rest)
  | 'n' :: 'a' :: 'n' :: rest => some (.float, rest)
  | c :: _ =>
    if c = '"' || c = '\'' then (anyString cs).map fun (s, rest) => (.string s, rest)
    else if c.isDigit || c = '+' || c = '-' then numeric cs
    else none
  | [] => none

mutual

-- A value. Nesting goes no deeper than the characters allow, so that twice their number is fuel
-- enough.
def value : (fuel : Nat) → Scanner Value
  | 0, _ => none
  | fuel + 1, cs =>
    match cs with
    | '[' :: rest => do
      let (found, rest) ← items fuel #[] rest
      return (.array found, rest)
    | '\x7b' :: rest =>
      match skipBlanks rest with
      | '\x7d' :: rest => some (.table [], rest)
      | rest => do
        let (found, rest) ← entries fuel #[] rest
        return (.table found, rest)
    | _ => scalar cs

-- The values of an array up to its closing bracket, those already found in front. A comma may stand
-- behind the last.
def items : (fuel : Nat) → Array Value → Scanner (List Value)
  | 0, _, _ => none
  | fuel + 1, found, cs =>
    match skipFiller false cs with
    | ']' :: rest => some (found.toList, rest)
    | cs => do
      let (item, rest) ← value fuel cs
      match skipFiller false rest with
      | ']' :: rest => return ((found.push item).toList, rest)
      | ',' :: rest => items fuel (found.push item) rest
      | _ => none

-- The entries of an inline table up to its closing brace, at least one, those already found in
-- front.
def entries : (fuel : Nat) → Array (List String × Value) → Scanner (List (List String × Value))
  | 0, _, _ => none
  | fuel + 1, found, cs => do
    let (name, rest) ← key (fuel + 1) cs
    match rest with
    | '=' :: rest => do
      let (item, rest) ← value fuel (skipBlanks rest)
      match skipBlanks rest with
      | '\x7d' :: rest => return ((found.push (name, item)).toList, rest)
      | ',' :: rest => entries fuel (found.push (name, item)) rest
      | _ => none
    | _ => none

end

-- A line of a document.
inductive Statement where
  -- `[a.b]`
  | header (name : List String)
  -- `[[a.b]]`
  | arrayHeader (name : List String)
  -- `a.b = value`
  | assign (name : List String) (value : Value)

-- A statement. Twice the number of characters is fuel enough.
def statement (fuel : Nat) (cs : List Char) : Option (Statement × List Char) :=
  match cs with
  | '[' :: '[' :: rest => do
    let (name, rest) ← key fuel rest
    match rest with
    | ']' :: ']' :: rest => return (.arrayHeader name, rest)
    | _ => none
  | '[' :: rest => do
    let (name, rest) ← key fuel rest
    match rest with
    | ']' :: rest => return (.header name, rest)
    | _ => none
  | _ => do
    let (name, rest) ← key fuel cs
    match rest with
    | '=' :: rest => do
      let (found, rest) ← value fuel (skipBlanks rest)
      return (.assign name found, rest)
    | _ => none

-- The statements of a document, those already found in front. Each takes at least one character.
def statements : (fuel : Nat) → Array Statement → List Char → Option (List Statement)
  | 0, _, _ => none
  | fuel + 1, found, cs =>
    match skipFiller false cs with
    | [] => some found.toList
    | cs => do
      let (first, rest) ← statement (fuel + 1) cs
      statements fuel (found.push first) (← endOfLine rest)

-- The statements that a file holds.
def parse (bytes : Octets) : Option (List Statement) := do
  let cs ← characters bytes
  statements (2 * cs.length + 2) #[] cs

end RegisterMachine.Toml
