/-
  A host that drains.

  1. **States** — once a host refuses calls it goes on to refuse them until it is made ready again,
     whatever requests come in and whatever else is done with its controller
     (`Session.refuses_run`).

  2. **Refusals** — a host that refuses calls answers every request for a mount at once and does
     nothing else: the world, the host and the trace are left alone (`answer_of_refusing`).

  3. **Draining** — behind a trigger, all requests for mounts are refused and the probes answer.
     The refusal has the same body for every method: it comes from in front of the service, and no
     layer behind it leaves the body of an answer to `HEAD` out.
-/
import Switchboard.Echo.Service
import Switchboard.Proofs.Host.Routing
import Switchboard.Proofs.Host.Session

namespace Switchboard.Host

open Http

variable {σ : Type}

/-! ## States -/

/-- Behind a trigger no calls are let in. -/
theorem Controller.trigger_refuses (c : Controller) : c.trigger.2.state.acceptsCalls = false := by
  rw [trigger_state]
  split
  · rfl
  next hrefuses => exact (Bool.not_eq_true _).mp hrefuses

namespace Session

/-- Only being made ready lets calls in again. -/
theorem refuses_step {s : Session σ} {move : Move} (hmove : move ≠ .control .setReady)
    (h : s.host.controller.state.acceptsCalls = false) :
    (s.step move).host.controller.state.acceptsCalls = false := by
  have husage := usage_step s move
  show (s.step move).usage.state.acceptsCalls = false
  rw [husage]
  cases move with
  | request generatedId r => exact h
  | control c =>
    cases haccepts : (s.usage.step c).state.acceptsCalls with
    | false => rfl
    | true =>
      have hc : c ≠ .setReady := fun hc => hmove (congrArg Move.control hc)
      have hbefore := Usage.acceptsCalls_of_step hc haccepts
      exact absurd (hbefore.symm.trans h) (by decide)

theorem refuses_run {s : Session σ} {moves : List Move} (hmoves : .control .setReady ∉ moves)
    (h : s.host.controller.state.acceptsCalls = false) :
    (s.run moves).host.controller.state.acceptsCalls = false := by
  induction moves generalizing s with
  | nil => exact h
  | cons move moves ih =>
    obtain ⟨hfirst, hrest⟩ := not_or.1 (mt List.mem_cons.2 hmoves)
    exact ih hrest (refuses_step (fun he => hfirst he.symm) h)

end Session

/-! ## Refusals -/

/-- A request for a mount of a host that refuses calls is answered at once, and nothing happens. -/
theorem answer_of_refusing {h : Host σ} (generatedId : Bytes) {r : Request} (world : σ) {i : Nat}
    (hrefuses : h.controller.state.acceptsCalls = false) (htime : h.config.requestTimeout ≠ 0)
    (hoptions : r.method ≠ .options) (htarget : h.target? r.uri.path = some (.mount i)) :
    h.answer generatedId r world =
      (.of (h.layered generatedId r (some shuttingDown)) world, h) := by
  have hreply : h.atTarget (some (.mount i)) (identified generatedId r) world =
      (.of (some shuttingDown) world, h) := by
    rw [atTarget, tracked_of_refuses hrefuses]
  rw [h.answer_eq_layered generatedId r world hoptions htime, htarget, hreply]
  rfl

/-- The layers leave the body of a refusal as it is. -/
theorem layered_refusal_body {h : Host σ} (generatedId : Bytes) {r : Request} {i : Nat}
    (htarget : h.target? r.uri.path = some (.mount i)) :
    (h.layered generatedId r (some shuttingDown)).body = shuttingDown.body :=
  layered_body h generatedId r (.inl (by rw [htarget]; rfl))

/-! ## Draining -/

/-- **Draining.**  Use a host with a positive time limit in any way, trigger its shutdown, and go on
    in any way in which it is not made ready again.  Then every request for a mount, except
    `OPTIONS`, is answered with 503 and the same error body, and nothing else happens: the world
    stays as it is, so no handler has run in it; the host does, so no call id is taken; and nothing
    is logged or measured.  The health report and the liveness probe still answer with 200, and the
    readiness probe with 503. -/
theorem draining_refuses (start : Session σ) (htime : start.host.config.requestTimeout ≠ 0)
    (before after : List Move) (hafter : .control .setReady ∉ after) :
    let s := start.run (before ++ .control .trigger :: after)
    (∀ generatedId r i, r.method ≠ .options → s.host.target? r.uri.path = some (.mount i) →
      let answer := s.host.answer generatedId r s.world
      answer.1.result.status = 503 ∧
      answer.1.result.body = Utf8.encode (ErrorBody.render ⟨"server is shutting down"⟩) ∧
      answer.1.state = s.world ∧ answer.1.trace = {} ∧ answer.2 = s.host) ∧
    (∀ generatedId r, r.method = .get →
      let status := (s.host.answer generatedId r s.world).1.result.status
      (r.uri.path = healthPath → status = 200) ∧ (r.uri.path = livePath → status = 200) ∧
        (r.uri.path = readyPath → status = 503)) := by
  intro s
  have hrun : s = ((start.run before).step (.control .trigger)).run after := by
    show start.run _ = _
    rw [Session.run_append]
    rfl
  have hrefuses : s.host.controller.state.acceptsCalls = false := by
    rw [hrun]
    exact Session.refuses_run hafter (start.run before).host.controller.trigger_refuses
  have hlimit : s.host.config.requestTimeout ≠ 0 := by
    rw [Session.config_run]
    exact htime
  constructor
  · intro generatedId r i hoptions htarget answer
    have hanswer : answer = _ :=
      answer_of_refusing generatedId s.world hrefuses hlimit hoptions htarget
    rw [hanswer]
    refine ⟨layered_status _ _ _ _, ?_, rfl, rfl, rfl⟩
    exact layered_refusal_body generatedId htarget
  · intro generatedId r hget status
    obtain ⟨hhealth, hlive, hready⟩ := target?_probes s.host
    have hprobed {probed : Target} (hpath : s.host.target? r.uri.path = some probed)
        (hprobe : probed.isProbe = true) : status = (s.host.probe probed).status := by
      have hanswer := answer_probe s.host generatedId s.world hget hpath hprobe hlimit
      show (s.host.answer generatedId r s.world).1.result.status = _
      rw [hanswer]
      exact layered_status _ _ _ _
    refine ⟨fun hpath => ?_, fun hpath => ?_, fun hpath => ?_⟩
    · exact hprobed (hpath ▸ hhealth) rfl
    · exact hprobed (hpath ▸ hlive) rfl
    · have hstate : s.host.controller.state ≠ .ready := by
        intro hstate
        rw [hstate] at hrefuses
        cases hrefuses
      rw [hprobed (hpath ▸ hready) rfl, probe, if_neg hstate]
      rfl

/-- A host with one mount, whose shutdown is triggered and that drains, refuses a call, and its
    probes answer. -/
theorem drained_echo_refuses :
    let h : Host Unit := { mounts := [⟨"/echo", .ofText "/echo", Echo.contract, Echo.register {}⟩] }
    let start : Session Unit := { host := h, world := () }
    let s :=
      start.run [.control .setReady, .control .trigger, .control (.drain 5), .control .trigger]
    let call : Request := ⟨.post, ⟨none, none, "/echo", none⟩, .http11, [], [.pending], false⟩
    let ready : Request := ⟨.get, ⟨none, none, readyPath, none⟩, .http11, [], [], false⟩
    h.config.requestTimeout ≠ 0 ∧ s.host.controller.state = .stopped ∧
      (s.host.answer [] call s.world).1.result.status = 503 ∧
      (s.host.answer [] ready s.world).1.result.status = 503 := by
  intro h start s call ready
  have htime : start.host.config.requestTimeout ≠ 0 := show 30000 ≠ 0 by decide
  have hafter : Move.control .setReady ∉ [Move.control (.drain 5), .control .trigger] := by decide
  obtain ⟨hcalls, hprobes⟩ := draining_refuses start htime [.control .setReady] _ hafter
  have htarget : s.host.target? "/echo" = some (.mount 0) := rfl
  exact ⟨htime, rfl, (hcalls [] call 0 (by decide) htarget).1, (hprobes [] ready rfl).2.2 rfl⟩

/-- The refusal of a `HEAD` request has a body. -/
theorem head_refusal_has_body :
    let h : Host Unit := { mounts := [⟨"/echo", .ofText "/echo", Echo.contract, Echo.register {}⟩] }
    let s := Session.run { host := h, world := () } [.control .trigger]
    let request : Request := ⟨.head, ⟨none, none, "/echo", none⟩, .http11, [], [], false⟩
    let response := (s.host.answer [] request s.world).1.result
    response.status = 503 ∧ response.body ≠ [] := by
  intro h s request response
  have htarget : s.host.target? "/echo" = some (.mount 0) := rfl
  have hanswer := answer_of_refusing [] s.world (r := request) rfl (show 30000 ≠ 0 by decide)
    (by decide) htarget
  have hresponse : response = s.host.layered [] request (some shuttingDown) :=
    congrArg (fun answer => answer.1.result) hanswer
  have hbody : shuttingDown.body ≠ [] := by decide
  rw [hresponse]
  refine ⟨layered_status _ _ _ _, ?_⟩
  rw [layered_refusal_body [] htarget]
  exact hbody

end Switchboard.Host
