import RegisterMachine.Text.Numeral
import RegisterMachine.Octets

namespace RegisterMachine.Text

-- The languages whose way of writing numbers is known.
inductive Language where
  | american
  | german
deriving DecidableEq

-- What stands between groups of three digits.
def Language.separator : Language → Char
  | .american => ','
  | .german => '.'

-- What messages are made of: texts, or bytes that need not be the bytes of one.
class Wording (β : Type) extends Append β where
  ofText : String → β
  bytes : β → Octets

instance : Wording String where
  ofText := id
  bytes := octets

instance : Wording Octets where
  ofText := octets
  bytes := id

-- Something that a message mentions.
inductive Argument (β : Type) where
  | int (n : Int)
  | text (s : β)
deriving DecidableEq

variable {β : Type} [Wording β]

namespace Argument

-- As a count: `%d`.
def asCount (language : Language) : Argument β → β
  | .int n => Wording.ofText (grouped language.separator n)
  | .text s => Wording.ofText "%!d(string=" ++ s ++ Wording.ofText ")"

-- As it is: `%v`.
def asValue (language : Language) : Argument β → β
  | .int n => Wording.ofText (grouped language.separator n)
  | .text s => s

-- With the name of its kind: `int=2,000`.
def asExtra (language : Language) (argument : Argument β) : β :=
  let kind := match argument with
    | .int _ => "int"
    | .text _ => "string"
  Wording.ofText (kind ++ "=") ++ argument.asValue language

-- As a hexadecimal number padded with zeros: `%04x`. A text is taken byte by byte.
def asHex (width : Nat) : Argument β → β
  | .int n => Wording.ofText (hex width n)
  | .text s =>
    let digits := (Wording.bytes s).flatMap fun b => padZeros 2 (digits 16 b.toNat)
    Wording.ofText (String.ofList (padZeros width digits))

end Argument

-- What a format directive asks for.
inductive Directive where
  | count
  | value
  | hex (width : Nat)
deriving DecidableEq

namespace Directive

-- The letter that ends the directive.
def letter : Directive → String
  | .count => "d"
  | .value => "v"
  | .hex _ => "x"

def render (language : Language) (directive : Directive) : Option (Argument β) → β
  | none => Wording.ofText ("%!" ++ directive.letter ++ "(MISSING)")
  | some argument =>
    match directive with
    | .count => argument.asCount language
    | .value => argument.asValue language
    | .hex width => argument.asHex width

end Directive

-- The parts of a format: texts that stand for themselves, and directives. `text` is what stands in
-- front since the last directive.
def pieces (text : List Char) : List Char → List (String ⊕ Directive)
  | [] => [.inl (String.ofList text)]
  | '%' :: '%' :: rest => pieces (text ++ ['%']) rest
  | '%' :: 'd' :: rest => .inl (String.ofList text) :: .inr .count :: pieces [] rest
  | '%' :: 'v' :: rest => .inl (String.ofList text) :: .inr .value :: pieces [] rest
  | '%' :: 'x' :: rest => .inl (String.ofList text) :: .inr (.hex 0) :: pieces [] rest
  | '%' :: '0' :: '2' :: 'x' :: rest =>
    .inl (String.ofList text) :: .inr (.hex 2) :: pieces [] rest
  | '%' :: '0' :: '4' :: 'x' :: rest =>
    .inl (String.ofList text) :: .inr (.hex 4) :: pieces [] rest
  | '%' :: '0' :: '8' :: 'x' :: rest =>
    .inl (String.ofList text) :: .inr (.hex 8) :: pieces [] rest
  | c :: rest => pieces (text ++ [c]) rest

-- The arguments that no directive asks for, up to the end of the complaint about them.
def extra (language : Language) : List (Argument β) → β
  | [] => Wording.ofText ")"
  | [last] => last.asExtra language ++ Wording.ofText ")"
  | argument :: rest => argument.asExtra language ++ Wording.ofText ", " ++ extra language rest

-- The message with each directive replaced by the argument in its turn. Arguments may be left over
-- only if none was mentioned at all; `mentioned` tells whether one was.
def fillIn (language : Language) (mentioned : Bool) :
    List (String ⊕ Directive) → List (Argument β) → β
  | [], arguments =>
    if mentioned && !arguments.isEmpty then Wording.ofText "%!(EXTRA " ++ extra language arguments
    else Wording.ofText ""
  | .inl text :: rest, arguments => Wording.ofText text ++ fillIn language mentioned rest arguments
  | .inr directive :: rest, arguments =>
    directive.render language arguments.head? ++
      fillIn language (mentioned || !arguments.isEmpty) rest arguments.tail

def message (language : Language) (format : String) (arguments : List (Argument β)) : β :=
  fillIn language false (pieces [] format.toList) arguments

-- The program's own messages are American.
def say (format : String) (arguments : List (Argument β)) : β := message .american format arguments

end RegisterMachine.Text
