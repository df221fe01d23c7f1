/-
  What a host makes of a request.

  1. **Layers** — `Host.layered`: what the layers around a target make of its answer.  They add
     headers and may leave out the body of a probe, but none touches a status (`layered_status`,
     `layered_body`).

  2. **Tracking** — a request counts as in flight while a service serves it, and for nobody
     afterwards (`tracked_of_accepts`); while calls are refused no service sees it
     (`tracked_of_refuses`).

  3. **Answers** — `Host.reached?`: the mount that a request reaches, if there is one.  Without one
     nothing comes of the request but its answer (`answer_eq_of_unreached`).  Otherwise the service
     of the mount serves the request: the world is what the service leaves, the status is that of
     its answer, and of the host only this service changes (`answer_of_reached`), so what serving
     keeps true of a service stays true of all of them (`answer_keeps`).
-/
import Switchboard.Host.Basic
import Switchboard.Proofs.Service.Dispatch

namespace Switchboard

open Http

namespace Host

variable {σ : Type}

/-! ## The layers -/

@[simp] theorem identified_method (id : Bytes) (r : Request) :
    (identified id r).method = r.method := by
  unfold identified
  split <;> rfl

@[simp] theorem identified_uri (id : Bytes) (r : Request) : (identified id r).uri = r.uri := by
  unfold identified
  split <;> rfl

@[simp] theorem identified_body (id : Bytes) (r : Request) : (identified id r).body = r.body := by
  unfold identified
  split <;> rfl

@[simp] theorem withRequestId_status (request : Headers) (r : Response) :
    (withRequestId request r).status = r.status := by
  unfold withRequestId
  split
  · split <;> rfl
  · rfl

@[simp] theorem withRequestId_body (request : Headers) (r : Response) :
    (withRequestId request r).body = r.body := by
  unfold withRequestId
  split
  · split <;> rfl
  · rfl

@[simp] theorem withoutTunnelBody_status (m : Method) (r : Response) :
    (withoutTunnelBody m r).status = r.status := by
  unfold withoutTunnelBody
  split <;> rfl

/-! ## Reaching a mount -/

/-- The mount that a request reaches, with its number.  `OPTIONS`, a request without any time, and
    one that comes while the host drains or after it has stopped reach none. -/
def reached? (h : Host σ) (r : Request) : Option (Nat × Mount σ) :=
  if r.method = .options ∨ h.config.requestTimeout = 0 ∨
    h.controller.state.acceptsCalls = false then none
  else
    match h.target? r.uri.path with
    | some (.mount i) => h.mounts[i]?.map (i, ·)
    | _ => none

/-- What a request has to be to reach a mount. -/
theorem reached?_eq_some {h : Host σ} {r : Request} {i : Nat} {m : Mount σ} :
    h.reached? r = some (i, m) ↔
      r.method ≠ .options ∧ h.config.requestTimeout ≠ 0 ∧ h.controller.state.acceptsCalls = true ∧
        h.target? r.uri.path = some (.mount i) ∧ h.mounts[i]? = some m := by
  unfold reached?
  split
  next hbusy =>
    refine ⟨nofun, fun ⟨hoptions, htime, haccepts, _⟩ => ?_⟩
    rcases hbusy with hbusy | hbusy | hbusy
    · exact absurd hbusy hoptions
    · exact absurd hbusy htime
    · rw [haccepts] at hbusy
      cases hbusy
  next hfree =>
    obtain ⟨hoptions, htime, haccepts⟩ : r.method ≠ .options ∧ h.config.requestTimeout ≠ 0 ∧
        h.controller.state.acceptsCalls = true := by simpa using hfree
    split
    next j htarget =>
      rw [htarget, Option.map_eq_some_iff]
      constructor
      · rintro ⟨m', hmount, he⟩
        cases he
        exact ⟨hoptions, htime, haccepts, rfl, hmount⟩
      · rintro ⟨-, -, -, he, hmount⟩
        cases he
        exact ⟨m, hmount, rfl⟩
    next hother => exact ⟨nofun, fun ⟨_, _, _, htarget, _⟩ => absurd htarget (hother i)⟩

/-- The request as the service of a mount sees it. -/
def forwarded (generatedId : Bytes) (r : Request) : Request :=
  { identified generatedId r with routed := true }

/-- What the service of a mount makes of a request to the host. -/
def served (h : Host σ) (m : Mount σ) (generatedId : Bytes) (r : Request) (world : σ) :
    Ran σ Service.Served × Service m.contract Controller σ :=
  m.service.serve h.controller.acquire (forwarded generatedId r) world

theorem fromService_state (m : Method) (r : Ran σ Service.Served) :
    (fromService m r).state = r.state := by
  unfold fromService
  split <;> rfl

/-- The status of what comes out of a mount, where a missing answer counts as one that took too
    long. -/
theorem fromService_status (m : Method) (r : Ran σ Service.Served) :
    ((fromService m r).result.map Response.status).getD 408 = r.result.status := by
  unfold fromService
  split
  next response h => rw [h]; exact withoutTunnelBody_status m response
  next p h => rw [h]; rfl
  next h => rw [h]; rfl

theorem fromService_answered (m : Method) {r : Ran σ Service.Served} {response : Response}
    (h : r.result = .answered response) :
    (fromService m r).result = some (withoutTunnelBody m response) := by
  simp only [fromService, h]

variable (h : Host σ) (generatedId : Bytes) (r : Request) (world : σ)

/-- What the layers around a target make of its answer; a missing one counts as one that took too
    long. -/
def layered (answer? : Option Response) : Response :=
  let request := (identified generatedId r).headers
  let response := withCors h.config.corsOrigins request
    (match answer? with
      | some response => withRequestId request response
      | none => timedOut)
  if ((h.target? r.uri.path).map Target.isProbe).getD false then completeProbe r.method response
  else response

theorem layered_status (answer? : Option Response) :
    (h.layered generatedId r answer?).status = (answer?.map Response.status).getD 408 := by
  -- Neither branch touches the status.
  show Response.status (if _ then _ else _) = _
  cases answer? with
  | none => split <;> rfl
  | some response => split <;> exact withRequestId_status _ _

/-- Only the answer of a probe to `HEAD` loses its body. -/
theorem layered_body {response : Response}
    (hkeeps : ((h.target? r.uri.path).map Target.isProbe).getD false = false ∨ r.method ≠ .head) :
    (h.layered generatedId r (some response)).body = response.body := by
  have hcopied := withRequestId_body (identified generatedId r).headers response
  rw [layered]
  rcases hkeeps with htarget | hmethod
  · rw [htarget, if_neg Bool.false_ne_true]
    exact hcopied
  · split
    · exact (if_neg hmethod).trans hcopied
    · exact hcopied

theorem layered_body_none : (h.layered generatedId r none).body = [] := by
  show Response.body (if _ then _ else _) = _
  split
  · exact ite_self _
  · rfl

/-- A request that is not answered at once is left to its target. -/
theorem answer_eq_layered (hoptions : r.method ≠ .options) (htime : h.config.requestTimeout ≠ 0) :
    let reply := h.atTarget (h.target? r.uri.path) (identified generatedId r) world
    h.answer generatedId r world = (reply.1.map (h.layered generatedId r), reply.2) := by
  simp only [answer, identified_uri, identified_method]
  rw [if_neg hoptions, inTime, if_neg htime]
  rfl

/-- Without any time every request takes too long. -/
theorem answer_of_no_time {r : Request} (hoptions : r.method ≠ .options)
    (htime : h.config.requestTimeout = 0) :
    h.answer generatedId r world = (.of (h.layered generatedId r none) world, h) := by
  simp only [answer, identified_uri, identified_method]
  rw [if_neg hoptions, inTime, if_pos htime]
  rfl

section Tracking

variable {h} {r} {world} {m : Method} {serve : Host σ → Ran σ Service.Served × Host σ}

/-- While calls are accepted a request counts as in flight for the service, and for nobody
    afterwards. -/
theorem tracked_of_accepts (haccepts : h.controller.state.acceptsCalls = true) :
    let served := serve { h with controller := h.controller.acquire }
    h.tracked m serve world =
      (fromService m served.1, { served.2 with controller := served.2.controller.release }) :=
  if_pos haccepts

theorem tracked_of_refuses (hrefuses : h.controller.state.acceptsCalls = false) :
    h.tracked m serve world = (.of (some shuttingDown) world, h) :=
  if_neg (hrefuses ▸ Bool.false_ne_true)

/-- Serving that does nothing but answer does nothing else when it is tracked. -/
theorem tracked_of_idle {response : Response}
    (hserve : serve { h with controller := h.controller.acquire } =
      (.of (.answered response) world, { h with controller := h.controller.acquire })) :
    ∃ answer?, h.tracked m serve world = (.of answer? world, h) := by
  cases haccepts : h.controller.state.acceptsCalls with
  | false =>
    rw [tracked_of_refuses haccepts]
    exact ⟨_, rfl⟩
  | true =>
    rw [tracked_of_accepts haccepts, hserve, Controller.release_acquire]
    exact ⟨_, rfl⟩

/-- At a mount the service serves the request, and of the host only this service changes. -/
theorem atTarget_mount {i : Nat} {m : Mount σ} (haccepts : h.controller.state.acceptsCalls = true)
    (hmount : h.mounts[i]? = some m) :
    let served := m.service.serve h.controller.acquire { r with routed := true } world
    h.atTarget (some (.mount i)) r world =
      (fromService r.method served.1,
        { h with mounts := h.mounts.set i { m with service := served.2 } }) := by
  intro served
  have hserved : { h with controller := h.controller.acquire }.atMount i r world =
      (served.1, { h with
        controller := h.controller.acquire
        mounts := h.mounts.set i { m with service := served.2 } }) := by
    rw [atMount, hmount]
  show h.tracked r.method (fun h => h.atMount i r world) world = _
  rw [tracked_of_accepts haccepts, hserved, Controller.release_acquire]

end Tracking

/-- A path without a route is answered with 404. -/
theorem answer_of_unrouted {r : Request} (hoptions : r.method ≠ .options)
    (htime : h.config.requestTimeout ≠ 0) (haccepts : h.controller.state.acceptsCalls = true)
    (htarget : h.target? r.uri.path = none) :
    h.answer generatedId r world =
      (.of (h.layered generatedId r (some (.ofStatus 404))) world, h) := by
  have hreply : h.atTarget none (identified generatedId r) world =
      (.of (some (.ofStatus 404)) world, h) := by
    have hpassed : withoutTunnelBody (identified generatedId r).method (.ofStatus 404) =
        .ofStatus 404 :=
      if_neg fun htunnel => absurd htunnel.2.2 (show ¬404 ≤ 299 by decide)
    show h.tracked _ (fun h => (.of (.answered (.ofStatus 404)) world, h)) world = _
    rw [tracked_of_accepts haccepts, Controller.release_acquire]
    show (Ran.of (some (withoutTunnelBody _ _)) world, h) = _
    rw [hpassed]
  rw [h.answer_eq_layered generatedId r world hoptions htime, htarget, hreply]
  rfl

/-- A request that reaches no mount is answered, and nothing else comes of it. -/
theorem answer_eq_of_unreached (hr : h.reached? r = none) :
    ∃ response, h.answer generatedId r world = (.of response world, h) := by
  by_cases hoptions : r.method = .options
  · simp only [answer, identified_method, if_pos hoptions]
    exact ⟨_, rfl⟩
  by_cases htime : h.config.requestTimeout = 0
  · rw [h.answer_of_no_time generatedId world hoptions htime]
    exact ⟨_, rfl⟩
  obtain ⟨answer?, hreply⟩ : ∃ answer?,
    h.atTarget (h.target? r.uri.path) (identified generatedId r) world =
      (.of answer? world, h) := by
    cases htarget : h.target? r.uri.path with
    | none => exact tracked_of_idle rfl
    | some target =>
      cases target with
      | health | live | ready | index => exact ⟨_, rfl⟩
      | mount i =>
        cases haccepts : h.controller.state.acceptsCalls with
        | false =>
          rw [atTarget, tracked_of_refuses haccepts]
          exact ⟨_, rfl⟩
        | true =>
          -- Only a number behind the last mount is left.
          have hmount : h.mounts[i]? = none := by
            rw [Option.eq_none_iff_forall_ne_some]
            intro m hm
            rw [reached?_eq_some.2 ⟨hoptions, htime, haccepts, htarget, hm⟩] at hr
            cases hr
          have hidle : ({ h with controller := h.controller.acquire } : Host σ).atMount i
              (identified generatedId r) world =
                (.of (.answered (.ofStatus 404)) world,
                  { h with controller := h.controller.acquire }) := by
            rw [atMount, hmount]
          show ∃ answer?,
            h.tracked _ (fun h => h.atMount i (identified generatedId r) world) world = _
          exact tracked_of_idle hidle
  rw [h.answer_eq_layered generatedId r world hoptions htime, hreply]
  exact ⟨_, rfl⟩

theorem answer_of_unreached (hr : h.reached? r = none) :
    (h.answer generatedId r world).1.state = world ∧ (h.answer generatedId r world).2 = h := by
  obtain ⟨response, hanswer⟩ := h.answer_eq_of_unreached generatedId r world hr
  rw [hanswer]
  exact ⟨rfl, rfl⟩

/-- A request that reaches a mount is left to its service. -/
theorem atTarget_of_reached {i : Nat} {m : Mount σ} (hr : h.reached? r = some (i, m)) :
    h.atTarget (h.target? r.uri.path) (identified generatedId r) world =
      (fromService r.method (h.served m generatedId r world).1,
        { h with mounts :=
          h.mounts.set i { m with service := (h.served m generatedId r world).2 } }) := by
  obtain ⟨-, -, haccepts, htarget, hmount⟩ := reached?_eq_some.1 hr
  rw [htarget, atTarget_mount haccepts hmount]
  show (fromService (identified generatedId r).method (h.served m generatedId r world).1, _) = _
  rw [identified_method]
  rfl

/-- A request that reaches a mount is served there. -/
theorem answer_eq_of_reached {i : Nat} {m : Mount σ} (hr : h.reached? r = some (i, m)) :
    h.answer generatedId r world =
      ((fromService r.method (h.served m generatedId r world).1).map (h.layered generatedId r),
        { h with mounts :=
          h.mounts.set i { m with service := (h.served m generatedId r world).2 } }) := by
  obtain ⟨hoptions, htime, -⟩ := reached?_eq_some.1 hr
  rw [h.answer_eq_layered generatedId r world hoptions htime,
    h.atTarget_of_reached generatedId r world hr]

theorem answer_of_reached {i : Nat} {m : Mount σ} (hr : h.reached? r = some (i, m)) :
    (h.answer generatedId r world).1.state = (h.served m generatedId r world).1.state ∧
      (h.answer generatedId r world).1.result.status =
        (h.served m generatedId r world).1.result.status ∧
      (h.answer generatedId r world).2 =
        { h with mounts :=
          h.mounts.set i { m with service := (h.served m generatedId r world).2 } } := by
  rw [h.answer_eq_of_reached generatedId r world hr]
  exact ⟨fromService_state _ _,
    (h.layered_status generatedId r _).trans (fromService_status _ _), rfl⟩

/-- The answer of a service that is reached is passed on, except for the body of an open tunnel. -/
theorem answer_of_answered {i : Nat} {m : Mount σ} (hr : h.reached? r = some (i, m))
    {response : Response}
    (hresponse : (h.served m generatedId r world).1.result = .answered response)
    (hkept : withoutTunnelBody r.method response = response) :
    (h.answer generatedId r world).1.result.status = response.status ∧
      (h.answer generatedId r world).1.result.body = response.body := by
  have hkeeps : ((h.target? r.uri.path).map Target.isProbe).getD false = false ∨
      r.method ≠ .head := by
    left
    rw [(reached?_eq_some.1 hr).2.2.2.1]
    rfl
  rw [h.answer_eq_of_reached generatedId r world hr, Ran.result_map,
    fromService_answered _ hresponse, hkept]
  exact ⟨h.layered_status generatedId r (some response), h.layered_body generatedId r hkeeps⟩

/-- What serving keeps true of a service, answering a request keeps true of all mounted services. -/
theorem answer_keeps {P : {c : Contract} → Service c Controller σ → Prop}
    (hserve :
      ∀ {c : Contract} {service : Service c Controller σ} (controller : Controller) (r : Request)
      (world : σ), P service → P (service.serve controller r world).2)
    (hmounts : ∀ m ∈ h.mounts, P m.service) :
    ∀ m ∈ (h.answer generatedId r world).2.mounts, P m.service := by
  cases hr : h.reached? r with
  | none =>
    rw [(h.answer_of_unreached generatedId r world hr).2]
    exact hmounts
  | some reached =>
    obtain ⟨i, m⟩ := reached
    have hm : m ∈ h.mounts := List.mem_of_getElem? (reached?_eq_some.1 hr).2.2.2.2
    rw [(h.answer_of_reached generatedId r world hr).2.2]
    intro m' hm'
    rcases List.mem_or_eq_of_mem_set hm' with hm' | rfl
    · exact hmounts m' hm'
    · exact hserve h.controller.acquire (forwarded generatedId r) world (hmounts m hm)

end Host

end Switchboard
