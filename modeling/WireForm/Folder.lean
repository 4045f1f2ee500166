import WireForm.Error

/-!
# Folders

A tree of files in which a path is looked up. `Folder.read` says what reading a path gives,
or why it gives nothing.
-/

namespace WireForm

/-- What a name stands for in a folder. -/
inductive Entry where
  | file (content : List UInt8)
  | folder (entries : List (String × Entry))

/-- A folder. -/
abbrev Folder := List (String × Entry)

namespace Folder

/-- The parts of a path between slashes. -/
def parts : List Char → List (List Char)
  | [] => [[]]
  | c :: rest =>
    if c = '/' then [] :: parts rest
    else
      match parts rest with
      | [] => [[c]]
      | part :: later => (c :: part) :: later

/-- The longest name that is looked up. -/
def maxName : Nat := 255

/-- The longest path that is looked up. -/
def maxPath : Nat := 4095

/-- Looks parts up from an entry on. An empty part or a single point stays in a folder. Two
    points go back to the folder around it; nothing is known of what lies around the first. -/
def find (outer : List Folder) : Entry → List String → Except FileFault (List UInt8)
  | .file content, [] => .ok content
  | .folder _, [] => .error .isFolder
  | .file _, _ :: _ => .error .notFolder
  | .folder entries, part :: parts =>
    if part = "" ∨ part = "." then find outer (.folder entries) parts
    else if part = ".." then
      match outer with
      | [] => find [] (.folder []) parts
      | folder :: outer => find outer (.folder folder) parts
    else if maxName < part.utf8ByteSize then .error .nameTooLong
    else
      match entries.lookup part with
      | none => .error .notFound
      | some entry => find (entries :: outer) entry parts

/-- What reading a path gives. A path from the outermost folder begins where nothing is
    known. -/
def read (folder : Folder) (path : String) : Except FileFault (List UInt8) :=
  let parts := (parts path.toList).map String.ofList
  if path.contains '\x00' then .error .nulInPath
  else if path = "" then .error .notFound
  else if maxPath < path.utf8ByteSize then .error .nameTooLong
  else if path.startsWith "/" then find [] (.folder []) parts
  else find [] (.folder folder) parts

end Folder

end WireForm
