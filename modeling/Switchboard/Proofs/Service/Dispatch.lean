/-
  What dispatching, calling and serving do to results and to the world.

    * `perform_undeclared`, `perform_unregistered`, `perform_registered`  one equation for each way
      a call of a wired service can go;
    * `result_dispatch`, `state_dispatch`  measuring a call changes neither its result nor the
      world;
    * `serve_runs`  serving a request runs one handler, or changes nothing;
    * `perform_recorded`, `serve_recorded`, `call_recorded`  a recorded wiring answers and acts as
      the wiring itself, and notes exactly the runs that `Wiring.notes` lists.
-/
import Switchboard.Proofs.Service.Wiring

namespace Switchboard

open Http

/-! ## Runs -/

namespace Ran

variable {σ α β τ : Type}

@[simp] theorem result_of (a : α) (s : σ) : (of a s).result = a := rfl
@[simp] theorem state_of (a : α) (s : σ) : (of a s).state = s := rfl
@[simp] theorem result_map (f : α → β) (r : Ran σ α) : (r.map f).result = f r.result := rfl
@[simp] theorem state_map (f : α → β) (r : Ran σ α) : (r.map f).state = r.state := rfl

/-- A run next to notes, to which some are added. -/
def noting (r : Ran σ α) (notes : List τ) : Ran (σ × List τ) α :=
  ⟨r.result, (r.state, notes), r.trace⟩

theorem noting_of (a : α) (s : σ) (notes : List τ) : (of a s).noting notes = of a (s, notes) := rfl

end Ran

variable {c : Contract} {ε σ τ : Type}

/-! ## The runs of a wiring -/

/-- What is noted of the run of a handler on a payload: one note if the payload is a request. -/
def Registration.notes (note : (g : Registration c ε σ) → CallContext → g.op.Request → τ)
    (g : Registration c ε σ) (context : CallContext) (payload : Bytes) : List τ :=
  match g.op.request.decode payload with
  | .ok request => [note g context request]
  | .error _ => []

/-- What is noted of a call. -/
def Wiring.notes (note : (g : Registration c ε σ) → CallContext → g.op.Request → τ)
    (w : Wiring c ε σ) (context : CallContext) (operation : String) (payload : Bytes) : List τ :=
  match w.last? operation with
  | some g => g.notes note context payload
  | none => []

theorem Registration.slot_recorded
    (note : (g : Registration c ε σ) → CallContext → g.op.Request → τ)
    (g : Registration c ε σ) (surroundings : ε) (context : CallContext)
    (payload : Bytes) (world : σ) (notes : List τ) :
    (g.recorded note).slot surroundings context payload (world, notes) =
      (g.slot surroundings context payload world).noting
        (notes ++ g.notes note context payload) := by
  simp only [slot, Operation.slot, recorded, Registration.notes]
  cases h : g.op.request.decode payload with
  | error fault => simp only [List.append_nil, Ran.noting_of]
  | ok request => rfl

namespace Service

/-! ## Preparing -/

section Preparing

variable {s : Service c ε σ} {callId : Nat} {r : Request}

theorem prepare_method (hm : s.config.requirePost ∧ r.method ≠ .post) :
    s.prepare callId r = .error (.methodNotAllowed r.method) := if_pos hm

theorem prepare_tooLarge (hm : ¬(s.config.requirePost ∧ r.method ≠ .post))
    (hb : readBody s.config.maxRequestBytes r.body = .tooLarge) :
    s.prepare callId r = .error (.payloadTooLarge s.config.maxRequestBytes) := by
  rw [prepare, if_neg hm, hb]

theorem prepare_failed (hm : ¬(s.config.requirePost ∧ r.method ≠ .post)) {message : String}
    (hb : readBody s.config.maxRequestBytes r.body = .failed message) :
    s.prepare callId r = .error (.badRequest ("failed to read request body: " ++ message)) := by
  rw [prepare, if_neg hm, hb]

theorem prepare_complete (hm : ¬(s.config.requirePost ∧ r.method ≠ .post)) {payload : Bytes}
    (hb : readBody s.config.maxRequestBytes r.body = .complete payload) :
    s.prepare callId r =
      (selectOperation c.selector (.ofRequest callId c.name r) payload).map fun operation =>
        some (.ofRequest callId c.name r, operation, payload) := by
  rw [prepare, if_neg hm, hb]

/-- A call has the context of its request. -/
theorem context_of_prepare {context : CallContext} {operation : String} {payload : Bytes}
    (h : s.prepare callId r = .ok (some (context, operation, payload))) :
    context = .ofRequest callId c.name r := by
  by_cases hm : s.config.requirePost ∧ r.method ≠ .post
  · rw [prepare_method hm] at h
    cases h
  cases hread : readBody s.config.maxRequestBytes r.body with
  | tooLarge =>
    rw [prepare_tooLarge hm hread] at h
    cases h
  | failed message =>
    rw [prepare_failed hm hread] at h
    cases h
  | unfinished =>
    rw [prepare, if_neg hm, hread] at h
    cases h
  | complete body =>
    rw [prepare_complete hm hread] at h
    cases hselect : selectOperation c.selector (.ofRequest callId c.name r) body with
    | error e =>
      rw [hselect] at h
      cases h
    | ok selected =>
      rw [hselect] at h
      cases h
      rfl

/-- The query names the operation, whatever the body holds. -/
theorem selectOperation_of_query {param name : String} {context : CallContext}
    (h : context.queryParam param = some name) (payload : Bytes) :
    selectOperation (.named param) context payload = .ok name := by
  rw [selectOperation, h]

end Preparing

/-! ## Performing -/

section Performing

variable (w : Wiring c ε σ) (config : DispatchConfig) (lastCallId : Nat) (surroundings : ε)
  (context : CallContext) {operation : String} (payload : Bytes) (world : σ)

theorem perform_undeclared (h : operation ∉ c.operations) :
    (w.service config lastCallId).perform surroundings context operation payload world =
      .of (.failed (.unknownOperation operation)) world := by
  rw [perform, Contract.declares_eq, if_neg h]

theorem perform_unregistered (h : operation ∈ c.operations) (hl : w.last? operation = none) :
    (w.service config lastCallId).perform surroundings context operation payload world =
      .of (.failed (.notRegistered c.name operation)) world := by
  have hs : (w.service config lastCallId).registry.slot? operation = none := by
    rw [Wiring.service, Wiring.slot?_registry, hl]
    rfl
  simp only [perform, Contract.declares_eq, if_pos h, hs]

theorem perform_registered {g : Registration c ε σ} (hl : w.last? operation = some g) :
    (w.service config lastCallId).perform surroundings context operation payload world =
      g.slot surroundings context payload world := by
  have hs : (w.service config lastCallId).registry.slot? operation = some g.slot := by
    rw [Wiring.service, Wiring.slot?_registry, hl]
    rfl
  simp only [perform, Contract.declares_eq, if_pos (Wiring.mem_operations_of_last? hl), hs]

end Performing

/-- A recorded wiring performs as the wiring itself, and notes the run. -/
theorem perform_recorded (note : (g : Registration c ε σ) → CallContext → g.op.Request → τ)
    (w : Wiring c ε σ) (config : DispatchConfig) (lastCallId : Nat) (surroundings : ε)
    (context : CallContext) (operation : String) (payload : Bytes) (world : σ) (notes : List τ) :
    ((w.recorded note).service config lastCallId).perform surroundings context operation payload
        (world, notes) =
      ((w.service config lastCallId).perform surroundings context operation payload world).noting
        (notes ++ w.notes note context operation payload) := by
  cases hl : w.last? operation with
  | none =>
    have hr : (w.recorded note).last? operation = none := by rw [Wiring.last?_recorded, hl]; rfl
    have hn : w.notes note context operation payload = [] := by rw [Wiring.notes, hl]
    rw [hn, List.append_nil]
    by_cases h : operation ∈ c.operations
    · rw [perform_unregistered _ _ _ _ _ _ _ h hr, perform_unregistered _ _ _ _ _ _ _ h hl]
      rfl
    · rw [perform_undeclared _ _ _ _ _ _ _ h, perform_undeclared _ _ _ _ _ _ _ h]
      rfl
  | some g =>
    have hr : (w.recorded note).last? operation = some (g.recorded note) := by
      rw [Wiring.last?_recorded, hl]; rfl
    have hn : w.notes note context operation payload = g.notes note context payload := by
      rw [Wiring.notes, hl]
    rw [perform_registered _ _ _ _ _ _ _ hr, perform_registered _ _ _ _ _ _ _ hl, hn,
      Registration.slot_recorded]

/-! ## Measuring -/

@[simp] theorem result_measured (context : CallContext) (operation : String)
    (r : Ran σ (Outcome CallError Bytes)) : (measured c context operation r).result = r.result := by
  unfold measured
  cases ending? r.result <;> rfl

@[simp] theorem state_measured (context : CallContext) (operation : String)
    (r : Ran σ (Outcome CallError Bytes)) : (measured c context operation r).state = r.state := by
  unfold measured
  cases ending? r.result <;> rfl

theorem measured_noting (context : CallContext) (operation : String)
    (r : Ran σ (Outcome CallError Bytes)) (notes : List τ) :
    measured c context operation (r.noting notes) =
      (measured c context operation r).noting notes := by
  unfold measured Ran.noting
  cases ending? r.result <;> rfl

variable (s : Service c ε σ) (surroundings : ε) (context : CallContext) (operation : String)
  (payload : Bytes) (world : σ)

theorem result_dispatch : (s.dispatch surroundings context operation payload world).result =
    (s.perform surroundings context operation payload world).result :=
  result_measured _ _ _

theorem state_dispatch : (s.dispatch surroundings context operation payload world).state =
    (s.perform surroundings context operation payload world).state :=
  state_measured _ _ _

/-! ## Serving -/

section Serving

variable {s} {r : Request} {surroundings} {world}

theorem serve_of_refused {e : CallError} (h : s.prepare s.nextCallId.1 r = .error e) :
    (s.serve surroundings r world).1 =
      ⟨.answered (errorResponse e), world, .event (rejectedEvent c s.nextCallId.1 e)⟩ := by
  simp only [serve, serveAs, h]

theorem serve_of_unfinished (h : s.prepare s.nextCallId.1 r = .ok none) :
    (s.serve surroundings r world).1 = .of .unfinished world := by
  simp only [serve, serveAs, h]

theorem serve_of_call {context : CallContext} {operation : String} {payload : Bytes}
    (h : s.prepare s.nextCallId.1 r = .ok (some (context, operation, payload))) :
    (s.serve surroundings r world).1 =
      (s.dispatch surroundings context operation payload world).map respond := by
  simp only [serve, serveAs, h]

/-- The status of the response that is given in the end. -/
def Served.status : Served → Nat
  | .answered response => response.status
  | .panicked _ => 500
  | .unfinished => 408

/-- No error has the status of success. -/
theorem errorResponse_status_ne (e : CallError) : (errorResponse e).status ≠ 200 := by
  cases e <;> exact nofun

/-- A request that makes a call of a registered operation, with a payload that is a request of it,
    runs the handler. -/
theorem serve_of_registered {w : Wiring c ε σ} {config : DispatchConfig} {lastCallId : Nat}
    {context : CallContext} {operation : String} {payload : Bytes} {g : Registration c ε σ}
    {request : g.op.Request}
    (hprepare : (w.service config lastCallId).prepare (lastCallId + 1) r =
      .ok (some (context, operation, payload)))
    (hlast : w.last? operation = some g) (hrequest : g.op.request.decode payload = .ok request) :
    let ran := ((w.service config lastCallId).serve surroundings r world).1
    let handled := g.handler surroundings context request world
    ran.state = handled.state ∧ ran.result = respond (g.op.answer handled.result) := by
  intro ran handled
  have hserve : ran = _ := serve_of_call hprepare
  rw [hserve, Ran.state_map, Ran.result_map, result_dispatch, state_dispatch,
    perform_registered _ _ _ _ _ _ _ hlast, Registration.slot, Operation.slot, hrequest]
  exact ⟨rfl, rfl⟩

/-- Serving a request either changes nothing and does not succeed, or it runs the handler registered
    last for the operation it selects. -/
theorem serve_runs (w : Wiring c ε σ) (config : DispatchConfig)
    (lastCallId : Nat) (surroundings : ε) (r : Request) (world : σ) :
    let service := w.service config lastCallId
    let ran := (service.serve surroundings r world).1
    (ran.state = world ∧ ran.result.status ≠ 200) ∨
    (∃ context operation payload g request,
      service.prepare (lastCallId + 1) r = .ok (some (context, operation, payload)) ∧
      w.last? operation = some g ∧ g.op.request.decode payload = .ok request ∧
      let handled := g.handler surroundings context request world
      ran.state = handled.state ∧ ran.result = respond (g.op.answer handled.result)) := by
  intro service ran
  rcases hp : service.prepare (lastCallId + 1) r with e | _ | ⟨context, operation, payload⟩
  · have hserve : ran = _ := serve_of_refused hp
    rw [hserve]
    exact .inl ⟨rfl, errorResponse_status_ne e⟩
  · have hserve : ran = _ := serve_of_unfinished hp
    rw [hserve]
    exact .inl ⟨rfl, show 408 ≠ 200 by decide⟩
  cases hl : w.last? operation with
  | none =>
    have hserve : ran = _ := serve_of_call hp
    rw [hserve, Ran.state_map, Ran.result_map, result_dispatch, state_dispatch]
    by_cases hd : operation ∈ c.operations
    · rw [perform_unregistered _ _ _ _ _ _ _ hd hl]
      exact .inl ⟨rfl, errorResponse_status_ne _⟩
    · rw [perform_undeclared _ _ _ _ _ _ _ hd]
      exact .inl ⟨rfl, errorResponse_status_ne _⟩
  | some g =>
    cases hq : g.op.request.decode payload with
    | error fault =>
      have hserve : ran = _ := serve_of_call hp
      rw [hserve, Ran.state_map, Ran.result_map, result_dispatch, state_dispatch,
        perform_registered _ _ _ _ _ _ _ hl, Registration.slot, Operation.slot, hq]
      exact .inl ⟨rfl, errorResponse_status_ne _⟩
    | ok request =>
      exact .inr ⟨context, operation, payload, g, request, rfl, hl, hq,
        serve_of_registered hp hl hq⟩

end Serving

/-! ## Recorded services -/

variable (note : (g : Registration c ε σ) → CallContext → g.op.Request → τ) (w : Wiring c ε σ)
  (config : DispatchConfig) (lastCallId : Nat) (notes : List τ)

theorem dispatch_recorded :
    ((w.recorded note).service config lastCallId).dispatch surroundings context operation payload
        (world, notes) =
      ((w.service config lastCallId).dispatch surroundings context operation payload world).noting
        (notes ++ w.notes note context operation payload) := by
  rw [dispatch, perform_recorded, measured_noting]
  rfl

/-- A recorded service calls as the service itself does. -/
theorem call_recorded (op : Operation c) (request : op.Request) :
    ((w.recorded note).service config lastCallId).call surroundings context
      op request (world, notes) =
      ((w.service config lastCallId).call surroundings context op request world).noting
        (notes ++ match op.request.encode request with
          | .ok payload => w.notes note context op.name payload
          | .error _ => []) := by
  unfold call
  cases h : op.request.encode request with
  | error reason => simp only [List.append_nil, Ran.noting_of]
  | ok payload =>
    simp only [dispatch_recorded]
    rfl

/-- A recorded service serves as the service itself does. -/
theorem serve_recorded (r : Request) :
    (((w.recorded note).service config lastCallId).serve surroundings r (world, notes)).1 =
      ((w.service config lastCallId).serve surroundings r world).1.noting
        (notes ++ match (w.service config lastCallId).prepare (lastCallId + 1) r with
          | .ok (some (context, operation, payload)) => w.notes note context operation payload
          | _ => []) := by
  let service := w.service config lastCallId
  let recorded := (w.recorded note).service config lastCallId
  have hsame : recorded.prepare recorded.nextCallId.1 r = service.prepare (lastCallId + 1) r := rfl
  rcases hp : service.prepare (lastCallId + 1) r with e | _ | ⟨context, operation, payload⟩
  · rw [serve_of_refused (s := recorded) (hsame.trans hp), serve_of_refused (s := service) hp]
    simp only [List.append_nil]
    rfl
  · rw [serve_of_unfinished (s := recorded) (hsame.trans hp), serve_of_unfinished (s := service) hp]
    simp only [List.append_nil]
    rfl
  · rw [serve_of_call (s := recorded) (hsame.trans hp), serve_of_call (s := service) hp,
      dispatch_recorded]
    rfl

end Service

end Switchboard
