import WireForm.Command.Help

/-!
# The command

Runs a list of words on a host. `Command.run` is the whole program, apart from printing.
-/

namespace WireForm.Command

/-- What a run finds outside itself: files, an inflater for compressed ones, and the manual of the
    program. -/
structure Host where
  read : String → Except FileFault (List UInt8)
  inflater : Inflater := .zstd
  manual : Manual := .standard

/-- Files alone make a host with the usual inflater and manual. -/
instance : Coe (String → Except FileFault (List UInt8)) Host := ⟨fun read => { read }⟩

/-- Reads the document under a path. -/
def Host.load (host : Host) (options : LoadOptions) (path : String) : Except Error Document :=
  Document.loadFileWith host.inflater options (host.read path)

/-- What a run leaves. -/
structure Outcome where
  status : UInt32
  stdout : String
  stderr : String
deriving DecidableEq

/-- What a request prints. The name of the kind is looked at before the file is. -/
def answer (host : Host) (request : Request) : Except Error String :=
  match request.task with
  | .info => do
    let document ← host.load request.options request.path
    let info := Info.ofDocument request.path document
    return print request.json info.lines info.toValue
  | .decode name => do
    let kind ← Kind.parse name
    let document ← host.load request.options request.path
    let decoded ← Decoded.ofDocument request.path kind document
    return print request.json decoded.lines decoded.toValue

/-- Runs words on a host. -/
def run (host : Host) (words : List String) : Outcome :=
  match parse? words with
  | some request =>
    match answer host request with
    | .ok text => ⟨0, text, ""⟩
    | .error error => ⟨1, "", "error: " ++ error.message ++ "\n"⟩
  | none =>
    match help? words with
    | some page => ⟨0, host.manual.page page, ""⟩
    | none => ⟨2, "", host.manual.misuse words⟩

end WireForm.Command
