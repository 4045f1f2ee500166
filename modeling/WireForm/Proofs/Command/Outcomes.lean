import WireForm.Proofs.Command.Help
import WireForm.Proofs.Command.Runs

/-!
# How runs end

A run prints what was asked for, a report or a page of help, or it names the first stage that
failed, or it says how the command is used. The stages are taken in a fixed order, and whether the
report is to be in JSON is no concern of theirs. Nothing is taken for granted of the files, of the
inflater or of what the manual says.
-/

namespace WireForm

/-! ## Kinds by name -/

namespace Command

/-! ## Stages -/

section Stages

variable (host : Host) (request : Request)

end Stages

section Answers

variable {host : Host} {request : Request}

end Answers

/-! ## Runs -/

section Runs

variable {host : Host} {words : List String} {request : Request}

end Runs

end Command

end WireForm
