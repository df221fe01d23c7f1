/-
  A refusal is told to the client word for word.

  1. **Visits** — a request that some stage refuses is answered with its first refusal, even if the
     rest of its body never comes (`serve_of_refused`).  A handler that fails refuses its request,
     unless the method has done so (`first_refusal_of_failed`).

  2. **Replies** — `Tells`: a response tells of a failure if it has the status, if its body reads as
     an error body with the message, and if every client that gets it in full reports both.  Every
     response to a refusal does (`tells_errorResponse`).

  3. **Fidelity** — so the clients are told of every refusal with its status and its message, and of
     what a handler fails with as it stands, with status 500 (`refusals_told`).  That is so through
     a host too (`Client.call_of_refused`).
-/
import Switchboard.Proofs.Client.Agreement
import Switchboard.Proofs.Service.Stages

namespace Switchboard

open Http Host

variable {c : Contract} {ε σ : Type}

/-! ## Visits -/

namespace Visit

variable (v : Visit c ε σ)

/-- A request that is refused behind the call has made one. -/
theorem exists_call_of_refused {e : CallError}
    (hfirst : (Stage.resolving ++ Stage.answering).findSome? v.refusal = some e) :
    ∃ operation payload, v.payload? = some payload ∧ v.operation? = some operation := by
  cases ho : v.operation? with
  | some operation =>
    obtain ⟨payload, hp, -⟩ := Option.bind_eq_some_iff.1 ho
    exact ⟨operation, payload, hp, rfl⟩
  | none =>
    -- Without an operation there is nothing that the later stages look at.
    have hpass : ∀ stage ∈ Stage.resolving ++ Stage.answering, v.refusal stage = none := by
      simp only [Stage.resolving, Stage.answering, List.cons_append, List.nil_append,
        List.forall_mem_cons, refusal, run?, decoded?, registration?, ho, Option.bind_none,
        Option.map_none]
      exact ⟨trivial, trivial, trivial, trivial, trivial, fun _ h => absurd h List.not_mem_nil⟩
    rw [List.findSome?_eq_none_iff.2 hpass] at hfirst
    cases hfirst

/-- What a handler leaves behind fails the call, if it is refused. -/
theorem answer_of_refused {g : Registration c ε σ} {request : g.op.Request}
    (hd : v.decoded? = some ⟨g, request⟩) {e : CallError}
    (hfirst : Stage.answering.findSome? v.refusal = some e) :
    g.op.answer (g.handler v.surroundings v.context request v.world).result = .failed e := by
  have hr : v.run? = some ⟨g, g.handler v.surroundings v.context request v.world⟩ := by
    rw [run?, hd]; rfl
  simp only [Stage.answering, List.findSome?_cons, List.findSome?_nil, refusal, hr,
    Option.bind_some] at hfirst
  cases hres : (g.handler v.surroundings v.context request v.world).result with
  | panicked panic =>
    rw [hres] at hfirst
    cases hfirst
  | failed error =>
    rw [hres] at hfirst
    cases hfirst
    rfl
  | done response =>
    simp only [hres] at hfirst
    rw [Operation.answer]
    cases he : g.op.response.encode response with
    | ok bytes =>
      rw [he] at hfirst
      cases hfirst
    | error reason =>
      rw [he] at hfirst
      cases hfirst
      rfl

/-- A request that is refused is answered with its first refusal. -/
theorem serve_of_refused {e : CallError} (refused : Stage.order.findSome? v.refusal = some e) :
    (v.service.serve v.surroundings v.request v.world).1.result =
      .answered (Service.errorResponse e) := by
  rw [Stage.order, Stage.beforeHandler, List.append_assoc, List.findSome?_append] at refused
  cases hfirst : Stage.preparing.findSome? v.refusal with
  | some e' =>
    rw [hfirst, Option.some_or] at refused
    cases refused
    rw [Service.serve_of_refused (v.prepare_of_refused hfirst)]
  | none =>
    rw [hfirst, Option.none_or] at refused
    obtain ⟨operation, payload, hp, ho⟩ := v.exists_call_of_refused refused
    have hmethod : v.refusal .method = none := List.findSome?_eq_none_iff.1 hfirst _ (by decide)
    rw [Service.serve_of_call (v.prepare_of_selected hmethod hp ho), Ran.result_map,
      Service.result_dispatch]
    rw [List.findSome?_append] at refused
    rcases v.perform_cases (fun _ _ _ => ()) hp ho with
      ⟨e', hresolving, -, hperform⟩ | ⟨g, request, hpass, hd, -, hperform⟩
    · rw [hresolving, Option.some_or] at refused
      cases refused
      rw [hperform, Ran.result_of, Service.respond]
    · rw [hpass, Option.none_or] at refused
      rw [hperform, Ran.result_map, v.answer_of_refused hd refused, Service.respond]

/-- A handler that fails is the first to refuse a request that has got to it. -/
theorem first_refusal_of_failed (hmethod : v.refusal .method = none)
    {run : (g : Registration c ε σ) × Ran σ (Outcome HandlerError g.op.Response)}
    (hrun : v.run? = some run) {error : HandlerError} (hfailed : run.2.result = .failed error) :
    Stage.order.findSome? v.refusal = some (.handler error) := by
  obtain ⟨⟨g, request⟩, hd, rfl⟩ := Option.map_eq_some_iff.1 hrun
  obtain ⟨g', hg, hdecoded⟩ := Option.bind_eq_some_iff.1 hd
  obtain ⟨payload, hp, hdecoded⟩ := Option.bind_eq_some_iff.1 hdecoded
  obtain ⟨operation, ho, hlast⟩ := Option.bind_eq_some_iff.1 hg
  have hcall := v.prepare_of_selected hmethod hp ho
  -- No stage in front of the call refuses a request that makes one.
  have hpreparing : Stage.preparing.findSome? v.refusal = none := by
    cases hfirst : Stage.preparing.findSome? v.refusal with
    | none => rfl
    | some e => exact nomatch (v.prepare_of_refused hfirst).symm.trans hcall
  have hresolving : Stage.resolving.findSome? v.refusal = none := by
    rcases v.perform_cases (fun _ _ _ => ()) hp ho with ⟨e, hfirst, hno, -⟩ | ⟨-, -, hpass, -⟩
    · rw [Wiring.notes, hlast] at hno
      simp only [Registration.notes] at hno
      cases hq : g'.op.request.decode payload with
      | ok request' => rw [hq] at hno; cases hno
      | error fault => rw [hq] at hdecoded; cases hdecoded
    · exact hpass
  have hhandling : v.refusal .handling = some (.handler error) := by
    rw [refusal, hrun, Option.bind_some]
    dsimp only
    rw [hfailed]
  rw [Stage.order, Stage.beforeHandler, List.findSome?_append, List.findSome?_append,
    hpreparing, hresolving, Stage.answering, List.findSome?_cons, hhandling]
  rfl

end Visit

/-! ## Replies -/

/-- No failure has a status of success, nor one that comes without a body. -/
theorem CallError.status_failure (e : CallError) :
    400 ≤ e.status ∧ Client.isBodyless e.status = false := by
  cases e <;> simp only [status] <;> decide

/-- A reply brings a response in full, whether or not it announces how long the body is. -/
structure Client.Reply.Brings (reply : Client.Reply) (response : Response) : Prop where
  status : reply.status = response.status
  body : reply.body = response.body
  announced : reply.announced = none ∨ reply.announced = some response.body.length
  closed : reply.closed = false

theorem Client.Reply.Brings.arrives? {reply : Client.Reply} {response : Response}
    (brings : reply.Brings response)
    (hstatus : 200 ≤ response.status) (hbody : Client.isBodyless response.status = false) :
    reply.arrives? = some (response.status, response.body) := by
  obtain ⟨hs, hb, hannounced, hclosed⟩ := brings
  rw [Client.Reply.arrives?, hclosed, hs, hb, hbody, if_neg Bool.false_ne_true,
    if_neg Bool.false_ne_true, if_neg (by omega)]
  rcases hannounced with hnone | hlength
  · rw [hnone]
  · simp only [hlength, Nat.lt_irrefl, if_false, List.take_length]

/-- A response of a service tells of a failure: by its status, by its body, and so every client that
    gets it reports the status and the message. -/
structure Tells (c : Contract) (response : Response) (status : Nat) (message : String) : Prop where
  hasStatus : response.status = status
  hasMessage : ErrorBody.record.codec.decode response.body = .ok ⟨message⟩
  reported : ∀ (op : Operation c) (reply : Client.Reply), reply.Brings response →
    (Client.receive op reply.arrives?).1 = .error (.rpc c.name op.name status message)

/-- A client takes the response to a refusal for a failure, and reads its message. -/
theorem Client.interpret_refused (op : Operation c) (e : CallError) :
    Client.interpret op e.status (Utf8.encode e.body.render) =
      .error (.rpc c.name op.name e.status e.message) := by
  have hfailure : ¬(200 ≤ e.status ∧ e.status ≤ 299) := by
    have hleast := e.status_failure.1
    omega
  rw [Client.interpret, if_neg hfailure, CallError.body, Client.failureMessage_render]

theorem Service.errorResponse_status (e : CallError) : (errorResponse e).status = e.status := by
  cases e <;> rfl

theorem Service.errorResponse_body (e : CallError) :
    (errorResponse e).body = Utf8.encode e.body.render := by
  rw [errorResponse_eq, CallError.body, ErrorBody.render]

/-- The response to a refusal tells of it. -/
theorem tells_errorResponse (c : Contract) (e : CallError) :
    Tells c (Service.errorResponse e) e.status e.message := by
  have hstatus := Service.errorResponse_status e
  have hbody := Service.errorResponse_body e
  refine ⟨hstatus, ?_, fun op reply brings => ?_⟩
  · rw [hbody]
    exact ErrorBody.decode_render e.body
  · obtain ⟨hleast, hfull⟩ := e.status_failure
    rw [brings.arrives? (by omega) (by rw [hstatus, hfull]), hstatus, hbody]
    exact Client.interpret_refused op e

/-! ## Fidelity -/

/-- **Fidelity.**  A request that is refused is answered, and the answer tells of its first refusal:
    it has the status, its body reads as an error body with the message, and a client that gets it
    in full reports both.  Where it is the handler that fails, the message is what the handler said
    and the status is 500. -/
theorem refusals_told (v : Visit c ε σ) :
    let served := (v.service.serve v.surroundings v.request v.world).1
    (∀ e, Stage.order.findSome? v.refusal = some e →
      ∃ response, served.result = .answered response ∧ Tells c response e.status e.message) ∧
    (∀ run error, v.refusal .method = none → v.run? = some run → run.2.result = .failed error →
      ∃ response, served.result = .answered response ∧ Tells c response 500 error.message) := by
  intro served
  have htold : ∀ e, Stage.order.findSome? v.refusal = some e →
      ∃ response, served.result = .answered response ∧ Tells c response e.status e.message :=
    fun e refused => ⟨_, v.serve_of_refused refused, tells_errorResponse c e⟩
  exact ⟨htold, fun run error hmethod hrun hfailed =>
    htold (.handler error) (v.first_refusal_of_failed hmethod hrun hfailed)⟩

/-- Two requests that are refused.  The name that the query of one escapes is not declared; the
    handler that the other gets to fails with a document of its own. -/
theorem escaped_refusals_told :
    let misnamed : Visit Todos.contract Unit Unit :=
      ⟨[], {}, 0, (),
        ⟨.post, ⟨none, none, "/", some "fn=%22a%22+%C3%A9"⟩, .http11, [], [], false⟩, ()⟩
    let said : String := "\x7b\"message\":\"\\n\"\x7d\n"
    let g : Registration Echo.contract Unit Unit :=
      ⟨Echo.echo, fun _ _ _ world => .of (.failed ⟨said⟩) world⟩
    ∃ payload : Bytes,
      let failing : Visit Echo.contract Unit Unit :=
        ⟨[g], { maxRequestBytes := payload.length }, 0, (),
          ⟨.post, .root, .http11, [], [.data payload], false⟩, ()⟩
      (Stage.order.findSome? misnamed.refusal = some (.unknownOperation "\"a\" é") ∧
        ∃ response, (misnamed.service.serve () misnamed.request ()).1.result = .answered response ∧
          Tells Todos.contract response 400 "invalid function: \"a\" é") ∧
      failing.refusal .method = none ∧
      (∃ run, failing.run? = some run ∧ run.2.result = .failed ⟨said⟩) ∧
      ∃ response, (failing.service.serve () failing.request ()).1.result = .answered response ∧
        Tells Echo.contract response 500 said := by
  intro misnamed said g
  obtain ⟨payload, -, hdecode⟩ :=
    Offered.echo.faithful.request.decode_encode (⟨"hi"⟩ : Echo.EchoRequest)
  refine ⟨payload, ?_⟩
  intro failing
  have refused : Stage.order.findSome? misnamed.refusal = some (.unknownOperation "\"a\" é") := by
    cbv
  have hmethod : failing.refusal .method = none := rfl
  have hrun : ∃ run, failing.run? = some run ∧ run.2.result = .failed ⟨said⟩ := by
    have hread : readBody payload.length ([payload].map .data) = .complete [payload].flatten :=
      readBody_pieces (by rw [List.flatten_singleton])
    rw [List.flatten_singleton, List.map_singleton] at hread
    have hp : failing.payload? = some payload := by
      simp only [Visit.payload?, failing, hread]
    have hg : failing.registration? = some g := by
      rw [Visit.registration?, Visit.operation?, hp]
      rfl
    have hd : failing.decoded? = some ⟨g, ⟨"hi"⟩⟩ := by
      rw [Visit.decoded?, hg, hp]
      show ((Echo.echo.request.decode payload).toOption.map _) = _
      rw [hdecode]
      rfl
    exact ⟨⟨g, .of (.failed ⟨said⟩) ()⟩, by rw [Visit.run?, hd]; rfl, rfl⟩
  obtain ⟨run, hran, hfailed⟩ := hrun
  exact ⟨⟨refused, (refusals_told misnamed).1 _ refused⟩, hmethod, ⟨run, hran, hfailed⟩,
    (refusals_told failing).2 run ⟨said⟩ hmethod hran hfailed⟩

/-- A client whose request gets to a service behind a host, and is refused there, is told so. -/
theorem Client.call_of_refused {v : Visit c Controller σ} {e : CallError}
    (refused : Stage.order.findSome? v.refusal = some e) {client : Client c} {op : Operation c}
    {request : op.Request} {sent : Request}
    (hsent : client.request? op request = some sent) {h : Host σ}
    {i : Nat} {path : String} {pattern : Pattern}
    (hr : h.reached? sent = some (i, ⟨path, pattern, c, v.service⟩)) {generatedId : Bytes}
    (hsurroundings : v.surroundings = h.controller.acquire)
    (hrequest : v.request = forwarded generatedId sent) :
    (client.call op request h generatedId v.world).1.result =
      .error (.rpc c.name op.name e.status e.message) := by
  have hserved : (h.served ⟨path, pattern, c, v.service⟩ generatedId sent v.world).1.result =
      .answered (Service.errorResponse e) := by
    have hserve := v.serve_of_refused refused
    rw [hsurroundings, hrequest] at hserve
    exact hserve
  -- A failure is never the opening of a tunnel.
  have hkept : withoutTunnelBody sent.method (Service.errorResponse e) =
      Service.errorResponse e := by
    refine if_neg fun htunnel => ?_
    have hleast := e.status_failure.1
    rw [Service.errorResponse_status] at htunnel
    omega
  obtain ⟨hstatus, hbody⟩ := h.answer_of_answered generatedId sent v.world hr hserved hkept
  rw [(Client.call_of_sent hsent h generatedId v.world).1, hstatus, hbody,
    Service.errorResponse_status, Service.errorResponse_body]
  exact Client.interpret_refused op e

end Switchboard
