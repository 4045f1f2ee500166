import WireForm.Command.Help
import WireForm.Proofs.Command.Requests

/-!
# Requests and help

Words that make a request ask for no help, so it is of no matter which of the two is looked for
first. But help can be asked for in the middle of any request, between two of its arguments, and
then nothing else is done.
-/

namespace WireForm.Command

/-! ## Words that ask for help -/

section Words

variable {arguments : List Argument} {front words : List String} {command word : String}
  {request : Request}

end Words

end WireForm.Command
