/-
  The stages of a request, and the first that refuses it.

  1. **Stages** — `Stage.order` lists the eight checks that a request goes through.

  2. **Visits** — a `Visit` is a request at a wired service.  `Visit.refusal` says of each stage by
     itself why it refuses the request, from nothing but what the stage looks at; it does not ask
     whether the request gets that far.  So a request may be refused by many stages at once.

  3. **The answer** — `serve_answers_first_refusal`: the answer is the refusal of the first stage
     that has one, in the order of the list, and else the written value of the handler.  The handler
     of the operation runs once if all stages in front of it pass; otherwise none does.
-/
import Switchboard.Echo.Service
import Switchboard.Proofs.Service.Dispatch

namespace Switchboard

open Http

variable {c : Contract} {ε σ τ : Type}

/-! ## Stages -/

/-- What a request is checked for. -/
inductive Stage where
  | method
  | body
  | selection
  | declaration
  | registration
  | decoding
  | handling
  | encoding
  deriving Repr, DecidableEq

namespace Stage

/-- The stages that make a call out of a request. -/
def preparing : List Stage := [.method, .body, .selection]

/-- The stages between the call and the run of its handler. -/
def resolving : List Stage := [.declaration, .registration, .decoding]

/-- The stages from the run of the handler on. -/
def answering : List Stage := [.handling, .encoding]

/-- The stages in front of the run of the handler. -/
def beforeHandler : List Stage := preparing ++ resolving

/-- All stages, in the order in which they are asked. -/
def order : List Stage := beforeHandler ++ answering

end Stage

example :
    Stage.order = [.method, .body, .selection, .declaration, .registration, .decoding,
      .handling, .encoding] := rfl

/-! ## Visits -/

/-- The frames of a body come to an end or to a failure: none that never comes is in front of
    that. -/
def bodyStops : List Frame → Bool
  | [] => true
  | .data _ :: frames => bodyStops frames
  | .failure _ :: _ => true
  | .pending :: _ => false

/-- A request at a service. -/
structure Visit (c : Contract) (ε σ : Type) where
  wiring : Wiring c ε σ
  config : DispatchConfig
  lastCallId : Nat
  surroundings : ε
  request : Request
  world : σ

namespace Visit

variable (v : Visit c ε σ)

/-- The service that is visited. -/
def service : Service c ε σ := v.wiring.service v.config v.lastCallId

/-- What the handler is told besides the request.  The call id is the next one. -/
def context : CallContext := .ofRequest (v.lastCallId + 1) c.name v.request

/-- The body, if it can be read. -/
def payload? : Option Bytes :=
  match readBody v.config.maxRequestBytes v.request.body with
  | .complete payload => some payload
  | _ => none

/-- The operation that the request selects, if it selects one. -/
def operation? : Option String :=
  v.payload?.bind fun payload => (selectOperation c.selector v.context payload).toOption

/-- The registration of that operation, if there is one. -/
def registration? : Option (Registration c ε σ) := v.operation?.bind v.wiring.last?

/-- The registration with the request it is to answer, if the body can be read as one. -/
def decoded? : Option ((g : Registration c ε σ) × g.op.Request) :=
  v.registration?.bind fun g => v.payload?.bind fun payload =>
    (g.op.request.decode payload).toOption.map fun request => ⟨g, request⟩

/-- The run of the handler on that request. -/
def run? : Option ((g : Registration c ε σ) × Ran σ (Outcome HandlerError g.op.Response)) :=
  v.decoded?.map fun d => ⟨d.1, d.1.handler v.surroundings v.context d.2 v.world⟩

/-- The written value of the handler, if it has one that can be written. -/
def value? : Option Bytes :=
  v.run?.bind fun run =>
    match run.2.result with
    | .done response => (run.1.op.response.encode response).toOption
    | _ => none

/-- Why a stage refuses the request, if it does. -/
def refusal : Stage → Option CallError
  | .method =>
    if v.config.requirePost ∧ v.request.method ≠ .post then
      some (.methodNotAllowed v.request.method)
    else none
  | .body =>
    match readBody v.config.maxRequestBytes v.request.body with
    | .tooLarge => some (.payloadTooLarge v.config.maxRequestBytes)
    | .failed message => some (.badRequest ("failed to read request body: " ++ message))
    | _ => none
  | .selection =>
    v.payload?.bind fun payload =>
      match selectOperation c.selector v.context payload with
      | .error e => some e
      | .ok _ => none
  | .declaration =>
    v.operation?.bind fun operation =>
      if operation ∈ c.operations then none else some (.unknownOperation operation)
  | .registration =>
    v.operation?.bind fun operation =>
      if (v.wiring.last? operation).isSome then none else some (.notRegistered c.name operation)
  | .decoding =>
    v.registration?.bind fun g => v.payload?.bind fun payload =>
      match g.op.request.decode payload with
      | .error fault => some (.badRequest (fault.message payload))
      | .ok _ => none
  | .handling =>
    v.run?.bind fun run =>
      match run.2.result with
      | .failed error => some (.handler error)
      | _ => none
  | .encoding =>
    v.run?.bind fun run =>
      match run.2.result with
      | .done response =>
        match run.1.op.response.encode response with
        | .error reason => some (.encoding reason)
        | .ok _ => none
      | _ => none

/-- The same visit with recorded handlers, and notes next to the world. -/
def recorded (note : (g : Registration c ε σ) → CallContext → g.op.Request → τ) (notes : List τ) :
    Visit c ε (σ × List τ) :=
  ⟨v.wiring.recorded note, v.config, v.lastCallId, v.surroundings, v.request, (v.world, notes)⟩

/-! ## From stage to stage -/

/-- A body that stops is not waited for. -/
theorem readBody_ne_unfinished {frames : List Frame} (h : bodyStops frames = true) (limit : Nat) :
    readBody limit frames ≠ .unfinished := by
  induction frames generalizing limit with
  | nil => exact nofun
  | cons frame frames ih =>
    cases frame with
    | data bytes =>
      rw [readBody]
      split
      · exact nofun
      · have := ih h (limit - bytes.length)
        cases hr : readBody (limit - bytes.length) frames with
        | unfinished => exact absurd hr this
        | complete _ => exact nofun
        | tooLarge => exact nofun
        | failed _ => exact nofun
    | failure message => exact nofun
    | pending => cases h

/-- A request that is refused in front of the call makes none. -/
theorem prepare_of_refused {e : CallError} (hfirst : Stage.preparing.findSome? v.refusal = some e) :
    v.service.prepare (v.lastCallId + 1) v.request = .error e := by
  simp only [Stage.preparing, List.findSome?_cons, List.findSome?_nil, refusal] at hfirst
  by_cases hm : v.config.requirePost ∧ v.request.method ≠ .post
  · rw [if_pos hm] at hfirst
    cases hfirst
    exact Service.prepare_method hm
  rw [if_neg hm] at hfirst
  cases hb : readBody v.config.maxRequestBytes v.request.body with
  | unfinished =>
    simp only [hb, payload?, Option.bind_none] at hfirst
    cases hfirst
  | tooLarge =>
    rw [hb] at hfirst
    cases hfirst
    exact Service.prepare_tooLarge hm hb
  | failed message =>
    rw [hb] at hfirst
    cases hfirst
    exact Service.prepare_failed hm hb
  | complete payload =>
    have hprepare : v.service.prepare (v.lastCallId + 1) v.request =
        (selectOperation c.selector v.context payload).map fun operation =>
          some (v.context, operation, payload) := Service.prepare_complete hm hb
    rw [hprepare]
    simp only [hb, payload?, Option.bind_some] at hfirst
    cases hs : selectOperation c.selector v.context payload with
    | error e' =>
      rw [hs] at hfirst
      cases hfirst
      rfl
    | ok operation =>
      rw [hs] at hfirst
      cases hfirst

/-- A request that is let through to its body, and selects an operation with it, makes a call. -/
theorem prepare_of_selected (hmethod : v.refusal .method = none)
    {operation : String} {payload : Bytes}
    (hp : v.payload? = some payload) (ho : v.operation? = some operation) :
    v.service.prepare (v.lastCallId + 1) v.request =
      .ok (some (v.context, operation, payload)) := by
  have hm : ¬(v.config.requirePost ∧ v.request.method ≠ .post) := by
    intro hm
    rw [refusal, if_pos hm] at hmethod
    cases hmethod
  have hb : readBody v.config.maxRequestBytes v.request.body = .complete payload := by
    unfold payload? at hp
    split at hp
    next hread => rw [hread, Option.some.inj hp]
    next => cases hp
  have hs : selectOperation c.selector v.context payload = .ok operation := by
    rw [operation?, hp, Option.bind_some] at ho
    cases hs : selectOperation c.selector v.context payload with
    | error e =>
      rw [hs] at ho
      cases ho
    | ok operation' =>
      rw [hs] at ho
      exact congrArg Except.ok (Option.some.inj ho)
  have hprepare : v.service.prepare (v.lastCallId + 1) v.request =
      (selectOperation c.selector v.context payload).map fun operation =>
        some (v.context, operation, payload) := Service.prepare_complete hm hb
  rw [hprepare, hs]
  rfl

/-- The stages that make a call out of a request: one of them refuses it, or a call comes out. -/
theorem prepare_cases (stops : bodyStops v.request.body = true) :
    (∃ e, Stage.preparing.findSome? v.refusal = some e ∧
      v.service.prepare (v.lastCallId + 1) v.request = .error e) ∨
    (∃ operation payload, Stage.preparing.findSome? v.refusal = none ∧
      v.payload? = some payload ∧ v.operation? = some operation ∧
      v.service.prepare (v.lastCallId + 1) v.request =
        .ok (some (v.context, operation, payload))) := by
  cases hfirst : Stage.preparing.findSome? v.refusal with
  | some e => exact .inl ⟨e, rfl, v.prepare_of_refused hfirst⟩
  | none =>
    have hpass := List.findSome?_eq_none_iff.1 hfirst
    have hbody := hpass .body (by decide)
    have hselection := hpass .selection (by decide)
    simp only [refusal] at hbody hselection
    -- Nothing is left of a body but to be complete.
    obtain ⟨payload, hp⟩ : ∃ payload, v.payload? = some payload := by
      rw [payload?]
      cases hb : readBody v.config.maxRequestBytes v.request.body with
      | complete payload => exact ⟨payload, rfl⟩
      | unfinished => exact absurd hb (readBody_ne_unfinished stops _)
      | tooLarge | failed _ =>
        rw [hb] at hbody
        cases hbody
    obtain ⟨operation, ho⟩ : ∃ operation, v.operation? = some operation := by
      rw [hp, Option.bind_some] at hselection
      rw [operation?, hp, Option.bind_some]
      cases hs : selectOperation c.selector v.context payload with
      | ok operation => exact ⟨operation, rfl⟩
      | error e =>
        rw [hs] at hselection
        cases hselection
    exact .inr ⟨operation, payload, rfl, hp, ho,
      v.prepare_of_selected (hpass .method (by decide)) hp ho⟩

/-- The stages between a call and the run of its handler: one of them refuses it and nothing runs,
    or the handler runs once. -/
theorem perform_cases (note : (g : Registration c ε σ) → CallContext → g.op.Request → τ)
    {operation : String} {payload : Bytes} (hp : v.payload? = some payload)
    (ho : v.operation? = some operation) :
    (∃ e, Stage.resolving.findSome? v.refusal = some e ∧
      v.wiring.notes note v.context operation payload = [] ∧
      v.service.perform v.surroundings v.context operation payload v.world =
        .of (.failed e) v.world) ∨
    (∃ g request, Stage.resolving.findSome? v.refusal = none ∧ v.decoded? = some ⟨g, request⟩ ∧
      v.wiring.notes note v.context operation payload = [note g v.context request] ∧
      v.service.perform v.surroundings v.context operation payload v.world =
        (g.handler v.surroundings v.context request v.world).map g.op.answer) := by
  simp only [Stage.resolving, List.findSome?_cons, List.findSome?_nil, refusal,
    decoded?, registration?, hp, ho, Option.bind_some, Wiring.notes]
  cases hl : v.wiring.last? operation with
  | none =>
    by_cases hd : operation ∈ c.operations
    · rw [if_pos hd]
      exact .inl ⟨_, rfl, rfl, Service.perform_unregistered _ _ _ _ _ _ _ hd hl⟩
    · rw [if_neg hd]
      exact .inl ⟨_, rfl, rfl, Service.perform_undeclared _ _ _ _ _ _ _ hd⟩
  | some g =>
    have hperform : v.service.perform v.surroundings v.context operation payload v.world =
        g.slot v.surroundings v.context payload v.world :=
      Service.perform_registered _ _ _ _ _ _ _ hl
    rw [if_pos (Wiring.mem_operations_of_last? hl), hperform]
    simp only [Option.bind_some, Registration.slot, Operation.slot, Registration.notes]
    cases hq : g.op.request.decode payload with
    | error fault => exact .inl ⟨_, rfl, rfl, rfl⟩
    | ok request => exact .inr ⟨g, request, rfl, rfl, rfl, rfl⟩

/-- The stages from the run of a handler on, for a handler that does not panic. -/
theorem answer_cases {g : Registration c ε σ} {request : g.op.Request} (hg : g.NeverPanics)
    (hd : v.decoded? = some ⟨g, request⟩) :
    let ran := g.handler v.surroundings v.context request v.world
    (∃ e, Stage.answering.findSome? v.refusal = some e ∧ g.op.answer ran.result = .failed e) ∨
    (∃ bytes, Stage.answering.findSome? v.refusal = none ∧ v.value? = some bytes ∧
      g.op.answer ran.result = .done bytes) := by
  intro ran
  have hr : v.run? = some ⟨g, ran⟩ := by rw [run?, hd]; rfl
  simp only [Stage.answering, List.findSome?_cons, List.findSome?_nil, refusal, value?, hr,
    Option.bind_some]
  cases hres : ran.result with
  | panicked panic => exact absurd hres (hg _ _ _ _ panic)
  | failed error => exact .inl ⟨_, rfl, rfl⟩
  | done response =>
    simp only [Operation.answer]
    cases he : g.op.response.encode response with
    | error reason => exact .inl ⟨_, rfl, rfl⟩
    | ok bytes => exact .inr ⟨bytes, rfl, rfl, rfl⟩

theorem mem_wiring_of_decoded? {g : Registration c ε σ} {request : g.op.Request}
    (h : v.decoded? = some ⟨g, request⟩) : g ∈ v.wiring := by
  obtain ⟨g', hg, h⟩ := Option.bind_eq_some_iff.1 h
  obtain ⟨payload, -, h⟩ := Option.bind_eq_some_iff.1 h
  obtain ⟨request', -, h⟩ := Option.map_eq_some_iff.1 h
  cases h
  obtain ⟨operation, -, hl⟩ := Option.bind_eq_some_iff.1 hg
  exact Wiring.mem_of_last? hl

/-- What is noted of a visit. -/
def notes (note : (g : Registration c ε σ) → CallContext → g.op.Request → τ) : List τ :=
  match v.service.prepare (v.lastCallId + 1) v.request with
  | .ok (some (context, operation, payload)) => v.wiring.notes note context operation payload
  | _ => []

/-- A request is refused in front of the handler, and nothing runs; or the handler runs once, and
    the rest is up to it. -/
theorem serve_cases (note : (g : Registration c ε σ) → CallContext → g.op.Request → τ)
    (stops : bodyStops v.request.body = true) :
    let ran := (v.service.serve v.surroundings v.request v.world).1
    (∃ e, Stage.beforeHandler.findSome? v.refusal = some e ∧ v.notes note = [] ∧
      ran.result = .answered (Service.errorResponse e) ∧ ran.state = v.world) ∨
    (∃ g request, Stage.beforeHandler.findSome? v.refusal = none ∧ v.decoded? = some ⟨g, request⟩ ∧
      v.notes note = [note g v.context request] ∧
      let handled := g.handler v.surroundings v.context request v.world
      ran.result = Service.respond (g.op.answer handled.result) ∧ ran.state = handled.state) := by
  intro ran
  rw [Stage.beforeHandler, List.findSome?_append]
  rcases v.prepare_cases stops
    with ⟨e, hfirst, hprepare⟩ | ⟨operation, payload, hnone, hp, ho, hprepare⟩
  · have hserve : ran = _ := Service.serve_of_refused hprepare
    refine .inl ⟨e, by rw [hfirst, Option.some_or], by rw [notes, hprepare], ?_, ?_⟩
    · rw [hserve]
    · rw [hserve]
  have hnotes : v.notes note = v.wiring.notes note v.context operation payload := by
    rw [notes, hprepare]
  have hserve : ran = _ := Service.serve_of_call hprepare
  rw [hserve, hnone, Option.none_or, hnotes, Ran.result_map, Ran.state_map, Service.result_dispatch,
    Service.state_dispatch]
  rcases v.perform_cases note hp ho with
    ⟨e, hfirst, hno, hperform⟩ | ⟨g, request, hpass, hd, hone, hperform⟩
  · refine .inl ⟨e, hfirst, hno, ?_, ?_⟩
    · rw [hperform, Ran.result_of, Service.respond]
    · rw [hperform, Ran.state_of]
  · refine .inr ⟨g, request, hpass, hd, hone, ?_, ?_⟩
    · rw [hperform, Ran.result_map]
    · rw [hperform, Ran.state_map]

end Visit

/-! ## The answer -/

/-- The response to a request that is refused: the status and message of the refusal, and the method
    that is served where another was asked for. -/
theorem Service.errorResponse_eq (e : CallError) :
    Service.errorResponse e =
      ⟨e.status,
        header "content-type" "application/json" ::
          if e.status = 405 then [header "allow" "POST"] else [],
        Utf8.encode ("\x7b\"message\":" ++ Json.writeText e.message ++ "\x7d")⟩ := by
  have hkeep : Named.remove "allow" [header "content-type" "application/json"] =
      [header "content-type" "application/json"] := rfl
  cases e <;>
    simp only [errorResponse, documentResponse, jsonContentType, CallError.body, ErrorBody.render,
      CallError.status, Nat.reduceEqDiff, if_true, if_false]
  rw [Response.setHeader, hkeep, List.singleton_append]

/-- **First refusal.**  A request is answered by the first stage that refuses it, and else with the
    written value of the handler of the operation it selects.  That handler runs exactly once if
    every stage in front of it passes, and otherwise no handler runs at all: that is what the notes
    say, and the world. -/
theorem serve_answers_first_refusal (v : Visit c ε σ) (calm : ∀ g ∈ v.wiring, g.NeverPanics)
    (stops : bodyStops v.request.body = true)
    (note : (g : Registration c ε σ) → CallContext → g.op.Request → τ) (notes : List τ) :
    let ran := (v.service.serve v.surroundings v.request v.world).1
    let noted := ((v.recorded note notes).service.serve v.surroundings v.request (v.world, notes)).1
    (∃ response, ran.result = .answered response ∧
      match Stage.order.findSome? v.refusal with
      | some e => response = ⟨e.status,
          header "content-type" "application/json" ::
            if e.status = 405 then [header "allow" "POST"] else [],
          Utf8.encode ("\x7b\"message\":" ++ Json.writeText e.message ++ "\x7d")⟩
      | none => ∃ bytes, v.value? = some bytes ∧
          response = ⟨200, [header "content-type" "application/json"], bytes⟩) ∧
    noted.result = ran.result ∧ noted.state.1 = ran.state ∧
    ((∀ stage ∈ Stage.beforeHandler, v.refusal stage = none) →
      ∃ g request, v.decoded? = some ⟨g, request⟩ ∧
        ran.state = (g.handler v.surroundings v.context request v.world).state ∧
        noted.state.2 = notes ++ [note g v.context request]) ∧
    ((∃ stage ∈ Stage.beforeHandler, v.refusal stage ≠ none) →
      ran.state = v.world ∧ noted.state.2 = notes) := by
  intro ran noted
  have hnoted : noted = ran.noting (notes ++ v.notes note) := Service.serve_recorded _ _ _ _ _ _ _ _
  have hpass : (∀ stage ∈ Stage.beforeHandler, v.refusal stage = none) ↔
      Stage.beforeHandler.findSome? v.refusal = none := List.findSome?_eq_none_iff.symm
  have hfails : (∃ stage ∈ Stage.beforeHandler, v.refusal stage ≠ none) ↔
      Stage.beforeHandler.findSome? v.refusal ≠ none := by
    rw [ne_eq, ← hpass]
    push Not
    rfl
  have horder : Stage.order.findSome? v.refusal =
      (Stage.beforeHandler.findSome? v.refusal).or (Stage.answering.findSome? v.refusal) :=
    List.findSome?_append
  refine ⟨?_, by rw [hnoted, Ran.noting], by rw [hnoted, Ran.noting], ?_⟩
  all_goals rcases v.serve_cases note stops with ⟨e, hfirst, hno, hresult, hstate⟩ |
    ⟨g, request, hnone, hd, hone, hresult, hstate⟩
  · rw [horder, hfirst, Option.some_or]
    exact ⟨_, hresult, Service.errorResponse_eq e⟩
  · rw [horder, hnone, Option.none_or]
    have hg : g.NeverPanics := calm g (v.mem_wiring_of_decoded? hd)
    rcases v.answer_cases hg hd with ⟨e, hfirst, hanswer⟩ | ⟨bytes, hend, hvalue, hanswer⟩
    · rw [hfirst]
      exact ⟨_, hresult.trans (by rw [hanswer]; rfl), Service.errorResponse_eq e⟩
    · rw [hend]
      exact ⟨_, hresult.trans (by rw [hanswer]; rfl), bytes, hvalue, rfl⟩
  · rw [hpass, hfails, hfirst, hnoted]
    refine ⟨nofun, fun _ => ⟨hstate, ?_⟩⟩
    rw [Ran.noting, hno, List.append_nil]
  · rw [hpass, hfails, hnone, hnoted]
    refine ⟨fun _ => ⟨g, request, hd, hstate, ?_⟩, fun h => absurd rfl h⟩
    rw [Ran.noting, hone]

/-- A request with the wrong method and a body that fails is refused for its method. -/
theorem serve_refuses_method_before_body :
    let v : Visit Echo.contract Unit Unit :=
      ⟨[⟨Echo.echo, Echo.handleEcho⟩], {}, 0, (),
        ⟨.get, .root, .http11, [], [.data [0x7B], .failure "gone"], false⟩, ()⟩
    (∀ g ∈ v.wiring, g.NeverPanics) ∧ bodyStops v.request.body = true ∧
      v.refusal .body = some (.badRequest "failed to read request body: gone") ∧
      (v.service.serve () v.request ()).1.result = .answered ⟨405,
        [header "content-type" "application/json", header "allow" "POST"],
        Utf8.encode
          ("\x7b\"message\":" ++ Json.writeText "method not allowed: GET" ++ "\x7d")⟩ := by
  intro v
  have calm : ∀ g ∈ v.wiring, g.NeverPanics := by
    intro g hg
    obtain rfl := List.mem_singleton.1 hg
    exact nofun
  have stops : bodyStops v.request.body = true := rfl
  refine ⟨calm, stops, rfl, ?_⟩
  obtain ⟨⟨response, hresult, hresponse⟩, -⟩ :=
    serve_answers_first_refusal v calm stops (fun _ _ _ => ()) []
  rw [hresult]
  exact congrArg Service.Served.answered hresponse

end Switchboard
