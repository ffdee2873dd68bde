import RegisterMachine.Octets

namespace RegisterMachine.Toml

def isBlank (c : Char) : Bool := c = ' ' || c = '\t'

def isNewline (c : Char) : Bool := c = '\n' || c = '\r'

-- The characters of a key that is not quoted.
def isBare (c : Char) : Bool := c.isAlphanum || c = '_' || c = '-'

def isHexDigit (c : Char) : Bool :=
  c.isDigit || ('a' ≤ c && c ≤ 'f') || ('A' ≤ c && c ≤ 'F')

-- The value of a digit of a base up to sixteen.
def digitValue (c : Char) : Nat :=
  if c.isDigit then c.toNat - '0'.toNat
  else if 'a' ≤ c then c.toNat - 'a'.toNat + 10
  else c.toNat - 'A'.toNat + 10

-- The number that digits spell.
def number (base : Nat) (digits : List Char) : Nat :=
  digits.foldl (fun n c => base * n + digitValue c) 0

-- Control characters have no place in a document, save for tabs and line ends. A carriage return
-- is half of a line end.
def isClean : List Char → Bool
  | [] => true
  | '\r' :: '\n' :: rest => isClean rest
  | c :: rest =>
    (c = '\t' || c = '\n' || (32 ≤ c.toNat && c.toNat ≠ 127)) && isClean rest

-- The characters of a document, without the byte order mark at its front.
def characters (bytes : Octets) : Option (List Char) := do
  let bytes :=
    match bytes with
    | 0xff :: 0xfe :: rest | 0xfe :: 0xff :: rest => rest
    | 0xef :: 0xbb :: 0xbf :: rest => rest
    | _ => bytes
  let cs := (← Octets.text? bytes).toList
  if isClean cs then some cs else none

-- Reads something off the front of the characters; `none` if it is not there.
abbrev Scanner (α : Type) := List Char → Option (α × List Char)

def skipBlanks (cs : List Char) : List Char := cs.dropWhile isBlank

-- Drops blanks, line ends and comments.
def skipFiller (inComment : Bool) : List Char → List Char
  | [] => []
  | c :: rest =>
    if inComment then skipFiller (!isNewline c) rest
    else if c = '#' then skipFiller true rest
    else if isBlank c || isNewline c then skipFiller false rest
    else c :: rest

-- What follows a statement: nothing but blanks and a comment up to the end of the line.
def endOfLine (cs : List Char) : Option (List Char) :=
  match skipBlanks cs with
  | [] => some []
  | c :: rest =>
    if c = '#' then some (rest.dropWhile (!isNewline ·))
    else if isNewline c then some rest
    else none

-- Whether what follows a backslash is an escape. A blank is one as far as can be told here.
def isEscape : List Char → Bool
  | 'u' :: rest => (rest.take 4).length = 4 && (rest.take 4).all isHexDigit
  | 'U' :: rest => (rest.take 8).length = 8 && (rest.take 8).all isHexDigit
  | c :: _ => "btnfr\"\\ \t".toList.contains c
  | [] => false

-- The character with the given code point. Surrogates have none.
def codePoint (digits : List Char) : Option Char :=
  let n := number 16 digits
  if n.isValidChar then some (Char.ofNat n) else none

-- The text that the inside of a quoted string stands for. A backslash before blanks that reach over
-- the end of the line drops them and all blanks and line ends behind; `trimming` is set while that
-- goes on. What is already known of the text is given last character first.
def unescape (trimming : Bool) (known : List Char) : List Char → Option (List Char)
  | [] => some known.reverse
  | c :: rest =>
    if c ≠ '\\' then
      if trimming && (isBlank c || isNewline c) then unescape true known rest
      else unescape false (c :: known) rest
    else match rest with
      | 'b' :: rest => unescape false ('\x08' :: known) rest
      | 't' :: rest => unescape false ('\t' :: known) rest
      | 'n' :: rest => unescape false ('\n' :: known) rest
      | 'f' :: rest => unescape false ('\x0c' :: known) rest
      | 'r' :: rest => unescape false ('\r' :: known) rest
      | '"' :: rest => unescape false ('"' :: known) rest
      | '\\' :: rest => unescape false ('\\' :: known) rest
      | 'u' :: d₁ :: d₂ :: d₃ :: d₄ :: rest => do
        let c ← codePoint [d₁, d₂, d₃, d₄]
        unescape false (c :: known) rest
      | 'U' :: d₁ :: d₂ :: d₃ :: d₄ :: d₅ :: d₆ :: d₇ :: d₈ :: rest => do
        let c ← codePoint [d₁, d₂, d₃, d₄, d₅, d₆, d₇, d₈]
        unescape false (c :: known) rest
      | blanks =>
        if (blanks.takeWhile fun c => isBlank c || isNewline c).contains '\n' then
          unescape true known blanks
        else none

-- The inside of a string with escapes, up to the quote that ends it on the same line. `seen` is what
-- was read of it, last character first.
def escaped (seen : List Char) : Scanner (List Char)
  | [] => none
  | c :: rest =>
    if c = '"' then some (seen.reverse, rest)
    else if isNewline c then none
    else if c = '\\' then
      match rest with
      | [] => none
      | e :: after => if isEscape (e :: after) then escaped (e :: '\\' :: seen) after else none
    else escaped (c :: seen) rest

-- The inside of a string without escapes, up to the quote that ends it on the same line.
def literal (cs : List Char) : Option (List Char × List Char) :=
  let isInside (c : Char) : Bool := c ≠ '\'' && !isNewline c
  match cs.dropWhile isInside with
  | '\'' :: rest => some (cs.takeWhile isInside, rest)
  | _ => none

-- Whether five quotes were just read, so that a sixth would be too many. `seen` is what was read,
-- last character first. After a backslash the first of them does not count.
def fiveQuotes (quote : Char) (seen : List Char) : Bool :=
  seen.take 5 = List.replicate 5 quote && !(quote = '"' && seen[5]? = some '\\')

-- The inside of a string up to the three quotes that end it. One or two quotes may stand in front of
-- those.
def quotedLines (quote : Char) (seen : List Char) : Scanner (List Char)
  | [] => none
  | c :: rest =>
    if c = quote then
      match rest with
      | c₂ :: c₃ :: after =>
        if c₂ = quote ∧ c₃ = quote then
          if after.head? = some quote then
            if fiveQuotes quote (quote :: quote :: quote :: seen) then none
            else quotedLines quote (quote :: seen) rest
          else some (seen.reverse, after)
        else quotedLines quote (quote :: seen) rest
      | _ => none
    else if c = '\\' ∧ quote = '"' then
      match rest with
      | [] => none
      | e :: after =>
        if isNewline e || isEscape (e :: after) then quotedLines quote (e :: '\\' :: seen) after
        else none
    else quotedLines quote (c :: seen) rest

-- A line end right behind the opening quotes does not count.
def dropFirstNewline : List Char → List Char
  | '\n' :: rest => rest
  | '\r' :: '\n' :: rest => rest
  | cs => cs

-- A string on one line, its first quote included.
def string : Scanner String
  | '"' :: rest => do
    let (inside, rest) ← escaped [] rest
    return (String.ofList (← unescape false [] inside), rest)
  | '\'' :: rest => do
    let (inside, rest) ← literal rest
    return (String.ofList inside, rest)
  | _ => none

-- A string on one line or several.
def anyString : Scanner String
  | '"' :: '"' :: '"' :: rest => do
    let (inside, rest) ← quotedLines '"' [] rest
    return (String.ofList (← unescape false [] (dropFirstNewline inside)), rest)
  | '\'' :: '\'' :: '\'' :: rest => do
    let (inside, rest) ← quotedLines '\'' [] rest
    return (String.ofList (dropFirstNewline inside), rest)
  | cs => string cs

-- One part of a key.
def keyPart (cs : List Char) : Option (String × List Char) :=
  match cs with
  | '"' :: _ | '\'' :: _ => string cs
  | _ =>
    let part := cs.takeWhile isBare
    if part.isEmpty then none else some (String.ofList part, cs.dropWhile isBare)

-- A key of one or several parts with dots between them, and the blanks behind it. Each further part
-- takes two characters at least, so that `fuel` need not be more than the number of characters.
def key : (fuel : Nat) → Scanner (List String)
  | 0, _ => none
  | fuel + 1, cs => do
    let (part, rest) ← keyPart (skipBlanks cs)
    match skipBlanks rest with
    | '.' :: rest => do
      let (parts, rest) ← key fuel rest
      return (part :: parts, rest)
    | rest => return ([part], rest)

end RegisterMachine.Toml
