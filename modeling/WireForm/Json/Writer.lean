import WireForm.Value

/-!
# Writing values as JSON text

The compact form has no blanks, the pretty form puts every item and member on a line of
its own with two blanks for each level. Both escape the same characters and no others.
-/

namespace WireForm.Json

/-! ## Strings -/

/-- A hexadecimal digit in lower case. -/
def hexDigit (n : Nat) : Char := Nat.digitChar n

/-- How a character is written inside quotes: the quote, the backslash and the control
    characters are escaped, and nothing else. -/
def escapeChar (c : Char) : List Char :=
  if c = '"' then ['\\', '"']
  else if c = '\\' then ['\\', '\\']
  else if c = '\x08' then ['\\', 'b']
  else if c = '\x0c' then ['\\', 'f']
  else if c = '\n' then ['\\', 'n']
  else if c = '\r' then ['\\', 'r']
  else if c = '\t' then ['\\', 't']
  else if c.toNat < 0x20 then
    ['\\', 'u', '0', '0', hexDigit (c.toNat / 16), hexDigit (c.toNat % 16)]
  else [c]

/-- A string in quotes. -/
def quoted (text : String) : List Char :=
  '"' :: text.toList.flatMap escapeChar ++ ['"']

/-- The text of a value that is neither a sequence nor a mapping. -/
def scalarChars : Value → List Char
  | .null => "null".toList
  | .bool true => "true".toList
  | .bool false => "false".toList
  | .number n => n.text
  | .string text => quoted text
  | .sequence _ => []
  | .mapping _ => []

/-! ## Compact form -/

mutual
/-- The compact form of a value. -/
def compactChars : Value → List Char
  | .sequence items => '[' :: compactItems items
  | .mapping members => '\x7b' :: compactMembers members
  | value => scalarChars value
/-- The items of a sequence after its bracket. -/
def compactItems : List Value → List Char
  | [] => [']']
  | [item] => compactChars item ++ [']']
  | item :: next :: items => compactChars item ++ ',' :: compactItems (next :: items)
/-- The members of a mapping after its brace. -/
def compactMembers : Members → List Char
  | [] => ['\x7d']
  | [(key, value)] => quoted key ++ ':' :: compactChars value ++ ['\x7d']
  | (key, value) :: next :: members =>
    quoted key ++ ':' :: compactChars value ++ ',' :: compactMembers (next :: members)
end

/-- The compact form as a text. -/
def compact (value : Value) : String := String.ofList (compactChars value)

/-! ## Pretty form -/

/-- A new line indented by a number of levels. -/
def newLine (level : Nat) : List Char := '\n' :: List.replicate (2 * level) ' '

mutual
/-- The pretty form of a value at a level. -/
def prettyChars (level : Nat) : Value → List Char
  | .sequence [] => ['[', ']']
  | .sequence (item :: items) => '[' :: prettyItems (level + 1) (item :: items)
  | .mapping [] => ['\x7b', '\x7d']
  | .mapping (member :: members) => '\x7b' :: prettyMembers (level + 1) (member :: members)
  | value => scalarChars value
/-- The items of a sequence after its bracket. The last is followed by the closing bracket
    on a line one level up. -/
def prettyItems (level : Nat) : List Value → List Char
  | [] => newLine (level - 1) ++ [']']
  | [item] => newLine level ++ prettyChars level item ++ newLine (level - 1) ++ [']']
  | item :: next :: items =>
    newLine level ++ prettyChars level item ++ ',' :: prettyItems level (next :: items)
/-- The members of a mapping after its brace. -/
def prettyMembers (level : Nat) : Members → List Char
  | [] => newLine (level - 1) ++ ['\x7d']
  | [(key, value)] =>
    newLine level ++ quoted key ++ ':' :: ' ' :: prettyChars level value ++
      newLine (level - 1) ++ ['\x7d']
  | (key, value) :: next :: members =>
    newLine level ++ quoted key ++ ':' :: ' ' :: prettyChars level value ++
      ',' :: prettyMembers level (next :: members)
end

/-- The pretty form as a text. -/
def pretty (value : Value) : String := String.ofList (prettyChars 0 value)

end WireForm.Json
