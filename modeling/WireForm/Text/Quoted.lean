import WireForm.Text.Hidden

/-!
# Quoted text

A text between double quotes in which every character can be told: quotes, backslashes and
characters that are not shown are escaped.
-/

namespace WireForm.Text

/-- The escape of a character by its number. -/
def numbered (c : Char) : List Char :=
  ['\\', 'u', '\x7b'] ++ Nat.toDigits 16 c.toNat ++ ['\x7d']

/-- A character inside quotes. -/
def quotedChar (c : Char) : List Char :=
  match c with
  | '"' => ['\\', '"']
  | '\\' => ['\\', '\\']
  | '\n' => ['\\', 'n']
  | '\r' => ['\\', 'r']
  | '\t' => ['\\', 't']
  | '\x00' => ['\\', '0']
  | c => if isHidden c then numbered c else [c]

/-- A text in quotes. -/
def quoted (text : String) : String :=
  String.ofList (('"' :: text.toList.flatMap quotedChar) ++ ['"'])

example : quoted "a\"b\\c\n\t" = "\"a\\\"b\\\\c\\n\\t\"" := by decide +kernel

end WireForm.Text
