import WireForm.Document

/-!
# Arguments of a command

A list of words names a command and then, in any order, its path and its flags. The words are
first read as arguments, a flag with its value being one argument, and a request is made of the
arguments by what they are and not by where they stand.
-/

namespace WireForm.Command

/-! ## Words and arguments -/

/-- An argument. -/
inductive Argument where
  | path (text : String)
  | json
  | noZstd
  | maxBytes (value : String)
  | kind (name : String)
deriving DecidableEq

/-- Whether a word is a flag rather than a path or a value. A lone hyphen is not. -/
def isFlag (word : String) : Bool :=
  match word.toList with
  | '-' :: _ :: _ => true
  | _ => false

/-- The name of a flag and the value attached to it by an equals sign, if there is one. -/
def splitFlag (word : String) : String × Option String :=
  let chars := word.toList
  let name := String.ofList (chars.takeWhile (· ≠ '='))
  match chars.dropWhile (· ≠ '=') with
  | [] => (name, none)
  | _ :: value => (name, some (String.ofList value))

/-- The argument that a flag makes with a value. -/
def valued? (name value : String) : Option Argument :=
  if name = "--max-bytes" then some (.maxBytes value)
  else if name = "--as" then some (.kind value)
  else none

/-- The argument that a flag makes without one. -/
def plain? (name : String) : Option Argument :=
  if name = "--json" then some .json
  else if name = "--no-zstd" then some .noZstd
  else none

/-- Reads words as arguments. After two hyphens alone every word is a path. A value that is a
    word of its own must not look like a flag. -/
def arguments? : List String → Option (List Argument)
  | [] => some []
  | word :: words =>
    if word = "--" then some (words.map .path)
    else if isFlag word then
      match splitFlag word with
      | (name, some value) => do return (← valued? name value) :: (← arguments? words)
      | (name, none) =>
        match plain? name with
        | some argument => do return argument :: (← arguments? words)
        | none =>
          match words with
          | [] => none
          | value :: words =>
            if isFlag value then none
            else do return (← valued? name value) :: (← arguments? words)
    else do return .path word :: (← arguments? words)

/-! ## Numbers -/

/-- The number of a sequence of digits, after those in `read`. -/
def digits? (read : Nat) : List Char → Option Nat
  | [] => some read
  | c :: rest => if c.isDigit then digits? (10 * read + (c.toNat - '0'.toNat)) rest else none

/-- A size: digits, perhaps after a plus sign, below `2 ^ 64`. -/
def size? (text : String) : Option { n : Nat // n < 0x10000000000000000 } := do
  let digits :=
    match text.toList with
    | '+' :: rest => rest
    | chars => chars
  if digits = [] then none
  let size ← digits? 0 digits
  if h : size < 0x10000000000000000 then some ⟨size, h⟩ else none

/-! ## Requests -/

/-- What is asked for. -/
inductive Task where
  /-- How a document is stored. -/
  | info
  /-- A record of the named kind, and its canonical form. -/
  | decode (kind : String)
deriving DecidableEq

/-- A request. -/
structure Request where
  task : Task
  path : String
  json : Bool
  options : LoadOptions
deriving DecidableEq

/-- Whether a list has one item at most. -/
def atMostOne? {α : Type} : List α → Option (Option α)
  | [] => some none
  | [a] => some (some a)
  | _ => none

/-- The one item of a list. -/
def only? {α : Type} : List α → Option α
  | [a] => some a
  | _ => none

namespace Argument

/-- The path of an argument. -/
def path? : Argument → Option String
  | .path text => some text
  | _ => none

/-- The size of an argument, as written. -/
def maxBytes? : Argument → Option String
  | .maxBytes value => some value
  | _ => none

/-- The kind of an argument. -/
def kind? : Argument → Option String
  | .kind name => some name
  | _ => none

end Argument

/-- Makes a request of arguments. Each of them stands once at most. -/
def request? (arguments : List Argument) (task : List String → Option Task) :
    Option Request := do
  let path ← only? (arguments.filterMap Argument.path?)
  if path = "" then none
  if 1 < arguments.count .json ∨ 1 < arguments.count .noZstd then none
  let task ← task (arguments.filterMap Argument.kind?)
  let allowZstd := !arguments.contains .noZstd
  let json := arguments.contains .json
  match ← atMostOne? (arguments.filterMap Argument.maxBytes?) with
  | none => return ⟨task, path, json, { allowZstd }⟩
  | some value =>
    let ⟨maxBytes, maxBytes_lt⟩ ← size? value
    return ⟨task, path, json, { maxBytes, maxBytes_lt, allowZstd }⟩

/-- The task of a command, given the kinds that its arguments name. -/
def task? (command : String) : Option (List String → Option Task) :=
  if command = "info" then some fun
    | [] => some .info
    | _ => none
  else if command = "decode" then some fun kinds => (only? kinds).map .decode
  else none

/-- The request that words make, if they make one. -/
def parse? : List String → Option Request
  | [] => none
  | command :: words => do
    request? (← arguments? words) (← task? command)

end WireForm.Command
