import WireForm.Command.Arguments
import WireForm.Command.Report

/-!
# Help

Help is asked for by a flag, or by a command of its own, and a page is shown then in place of what
the other words ask for. The flag is acted on where it stands: what comes after it is not looked
at, and what comes before it must be right as far as it goes.
-/

namespace WireForm.Command

/-! ## Pages -/

/-- A page of help. -/
inductive Page where
  /-- On the program as a whole. -/
  | program
  /-- On one of its commands. -/
  | info | decode | help
deriving DecidableEq

/-- The page on a command. -/
def Page.ofCommand? (command : String) : Option Page :=
  if command = "info" then some .info
  else if command = "decode" then some .decode
  else if command = "help" then some .help
  else none

/-- How many kinds may be named where a page is on. -/
def Page.kinds : Page → Nat
  | .decode => 1
  | _ => 0

/-! ## Asking for help -/

/-- Whether a word asks for help, when it stands where a flag may. Of a row of short flags the
    first is acted on before the others are looked at. -/
def asksHelp (word : String) : Bool :=
  word = "--help" || ['-', 'h'].isPrefixOf word.toList

/-- The words before the first that asks for help, if there is one before the two hyphens that end
    the flags. -/
def beforeHelp? : List String → Option (List String)
  | [] => none
  | word :: words =>
    if asksHelp word then some []
    else if word = "--" then none
    else (beforeHelp? words).map (word :: ·)

/-- That nothing is wrong with the arguments of a command as far as they go: each of them stands
    once at most, and what is written there is no more than incomplete. -/
def Sound (page : Page) (arguments : List Argument) : Prop :=
  (arguments.filterMap Argument.path?).length ≤ 1 ∧
    "" ∉ arguments.filterMap Argument.path? ∧
    arguments.count .json ≤ 1 ∧ arguments.count .noZstd ≤ 1 ∧
    (arguments.filterMap Argument.kind?).length ≤ page.kinds ∧
    (arguments.filterMap Argument.maxBytes?).length ≤ 1 ∧
    ∀ size ∈ arguments.filterMap Argument.maxBytes?, (size? size).isSome

instance (page : Page) (arguments : List Argument) : Decidable (Sound page arguments) :=
  inferInstanceAs (Decidable (_ ∧ _ ∧ _ ∧ _ ∧ _ ∧ _ ∧ _))

/-- The page that words ask for, if they ask for one. -/
def help? : List String → Option Page
  | [] => none
  | command :: words =>
    if asksHelp command then some .program
    else if command = "help" then
      match words with
      | [] => some .program
      | [command] => Page.ofCommand? command
      | _ => none
    else do
      let page ← Page.ofCommand? command
      let arguments ← arguments? (← beforeHelp? words)
      if Sound page arguments then some page else none

/-! ## What is said -/

/-- What the program says of itself: its pages of help, and what is wrong with words that ask for
    nothing it does. -/
structure Manual where
  page : Page → String
  misuse : List String → String

/-- An entry of a list: a name, and what is said of it from a column on. -/
def entry (column : Nat) (name about : String) : String :=
  name ++ String.ofList (List.replicate (column - name.length) ' ') ++ about

/-- What is said of the commands, after what they have in common. -/
def commandAbout : String := "Document loading flags shared by every command"

/-- The page on the program. -/
def programPage : String := unlines [
  "Structural wire codec tools", "", "Usage: matchwire <COMMAND>", "", "Commands:",
  entry 10 "  info" commandAbout,
  entry 10 "  decode" commandAbout,
  entry 10 "  help" "Print this message or the help of the given subcommand(s)",
  "", "Options:", "  -h, --help  Print help"]

/-- The page on a command that reads a document, with the options that it has beside those of
    all. -/
def commandPage (usage : String) (options : List (String × String)) : String :=
  let options := options ++ [("      --json", ""),
    ("      --no-zstd", "Refuse zstd-compressed input"),
    ("      --max-bytes <MAX_BYTES>", "Maximum document size in bytes after decompression"),
    ("  -h, --help", "Print help")]
  unlines ([commandAbout, "", "Usage: matchwire " ++ usage, "", "Arguments:", "  <PATH>  ", "",
    "Options:"] ++ options.map fun (name, about) => entry 31 name about)

/-- The page on the command for help. -/
def helpPage : String := unlines [
  "Print this message or the help of the given subcommand(s)", "",
  "Usage: matchwire help [COMMAND]...", "", "Arguments:",
  "  [COMMAND]...  Print help for the subcommand(s)"]

/-- The pages as they are written, and the last line of what is said of a misuse. -/
def Manual.standard : Manual where
  page
    | .program => programPage
    | .info => commandPage "info [OPTIONS] <PATH>" []
    | .decode => commandPage "decode [OPTIONS] --as <KIND> <PATH>"
      [("      --as <KIND>", "Type to decode as: data, point, one, two, interface, or type")]
    | .help => helpPage
  misuse _ := unlines ["For more information, try '--help'."]

end WireForm.Command
