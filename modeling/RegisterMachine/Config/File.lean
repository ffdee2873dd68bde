import RegisterMachine.Config
import RegisterMachine.Toml.Document

namespace RegisterMachine

-- A letter in lower case. The long s and the Kelvin sign are other forms of `s` and `k`.
def foldCase (c : Char) : Char :=
  if c = '\u017f' then 's' else if c = '\u212a' then 'k' else c.toLower

-- The setting that a key names, without regard to case.
def Setting.ofKey? (name : String) : Option Setting :=
  all.find? fun setting => setting.key.toList == name.toList.map foldCase

-- A part of a key in quotes, with what cannot stand between quotes escaped.
def quoteKeyChar (c : Char) : String :=
  match c with
  | '"' => "\\\""
  | '\\' => "\\\\"
  | '\x08' => "\\b"
  | '\t' => "\\t"
  | '\n' => "\\n"
  | '\x0c' => "\\f"
  | '\r' => "\\r"
  | c => if c.toNat < 32 ∨ c.toNat = 127 then "\\u" ++ Text.hex 4 c.toNat else String.ofList [c]

def keyPartText (part : String) : String :=
  if part ≠ "" ∧ part.toList.all Toml.isBare then part
  else "\"" ++ String.join (part.toList.map quoteKeyChar) ++ "\""

-- A key as it is shown in messages.
def keyText (path : Toml.Path) : String := String.intercalate "." (path.map keyPartText)

namespace Config

-- Changes a setting to the value that a file gives it, which must be of the setting's kind. A
-- negative step limit counts as the number with the same 64 bits.
def change (config : Config) (setting : Setting) (node : Toml.Node) : Option Config :=
  match setting, node with
  | .word, .leaf (.string s) => some { config with word := octets s }
  | .registers, .leaf (.integer n) => some { config with registers := n }
  | .stackCapacity, .leaf (.integer n) => some { config with stackCapacity := n }
  | .memorySize, .leaf (.integer n) => some { config with memorySize := n }
  | .maxSteps, .leaf (.integer n) => some { config with maxSteps := UInt64.ofInt n }
  | .verbose, .leaf (.boolean b) => some { config with verbose := b }
  | _, _ => none

-- Changes the setting that a key's first name is; other names are passed over.
def overlay (document : Toml.Document) (config : Config) : Toml.Path → Option Config
  | [] => some config
  | name :: _ =>
    match Setting.ofKey? name, document.get? 0 name with
    | some setting, some node => config.change setting node
    | _, _ => some config

-- Whether a key is a setting.
def isKnown : Toml.Path → Bool
  | [name] => (Setting.ofKey? name).isSome
  | _ => false

-- The configuration that a file describes, with the standard one where it says nothing, and what is
-- wrong with it; `none` if the file makes no sense. Unknown keys come before wrong values.
def read (bytes : Octets) : Option (Config × List ConfigError) := do
  let document ← Toml.Document.parse bytes
  let config ← document.keys.toList.foldlM (overlay document) standard
  let unknown := document.keys.toList.filter (!isKnown ·)
  return (config, unknown.map (.unknownKey <| keyText ·) ++ config.validate)

end Config

end RegisterMachine
