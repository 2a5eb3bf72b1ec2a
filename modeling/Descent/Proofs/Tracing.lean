import Descent.Proofs.Comparison.Hosts
import Descent.Proofs.SelfContained
import Descent.Proofs.Stripping

/-!
# Tracing changes nothing

A trace reports the outcomes of its part and passes them on. Main statement: take all traces away
from parsers and from the definitions that they are built with, and every run answers the same. Of
its report only the events of the traces are missing; the other ones stand in the same order. A run
of a trace adds one event to the log, after all that its part reports, or none if its part ends in a
fault.

The two logs are kept step by step: that of the parsers without traces is the other one without the
events of traces. A run never takes back what was reported before it.
-/

namespace Descent

def Unary.isTrace : Unary → Bool
  | .trace _ => true
  | _ => false

open Comparison

/-! ## Runs of traces -/

namespace Run

variable {env : Env} {enter : Expr Link → Parser Run Value}

variable {before : List Event} {bound : Nat}

end Run

/-! ## Taking traces away -/

namespace Session

variable {session session' : Session}

end Session
end Descent
