/-
  Three ways to call an operation, and one answer.

  1. **Handlers** — `Own`: the handlers that the two services come with.  They look at nothing but
     their request and the world, and they never panic.

  2. **Requests** — `Posted`: a request that calls an operation with a document.  A service whose
     handler for the operation is one of its own answers it as the handler does (`serve_posted`),
     however the operation is selected (`serve_selected`).

  3. **Clients** — what a client sends is such a request (`Client.exists_posted`), and it is told
     what the answer means (`Client.call_of_sent`).

  4. **Agreement** — so a call from inside the process, a request to the service, and a call of a
     client behind a host give the same and leave the same world.  It takes a path that the client's
     requests can ask for, and a host that leaves them any time.
-/
import Switchboard.Client.Basic
import Switchboard.Proofs.Host.Routing
import Switchboard.Proofs.Http.Url
import Switchboard.Proofs.Todos.Service

namespace Switchboard

open Http Host

variable {c : Contract} {ε σ : Type}

/-! ## Handlers -/

/-- The handlers that the two services come with. -/
inductive Own (store : Part σ Todos.Store) : {c : Contract} → Registration c ε σ → Prop where
  | getTodos : Own store ⟨Todos.getTodos, Todos.handleGetTodos store⟩
  | getTodo : Own store ⟨Todos.getTodo, Todos.handleGetTodo store⟩
  | addTodo : Own store ⟨Todos.addTodo, Todos.handleAddTodo store⟩
  | deleteTodo : Own store ⟨Todos.deleteTodo, Todos.handleDeleteTodo store⟩
  | echo : Own store ⟨Echo.echo, Echo.handleEcho⟩

section Handlers

variable {store : Part σ Todos.Store} {g : Registration c ε σ} (own : Own store g)

include own

theorem Own.offered : Offered g.op := by
  cases own with
  | getTodos => exact .getTodos
  | getTodo => exact .getTodo
  | addTodo => exact .addTodo
  | deleteTodo => exact .deleteTodo
  | echo => exact .echo

/-- What such a handler gives and does depends on its request and the world alone. -/
theorem Own.blind (surroundings surroundings' : ε) (context context' : CallContext)
    (request : g.op.Request) (world : σ) :
    (g.handler surroundings context request world).result =
        (g.handler surroundings' context' request world).result ∧
      (g.handler surroundings context request world).state =
        (g.handler surroundings' context' request world).state := by
  cases own with
  | getTodo =>
    have hsame := (Todos.handleGetTodo_eq store surroundings context request world).trans
      (Todos.handleGetTodo_eq store surroundings' context' request world).symm
    exact ⟨congrArg Ran.result hsame, congrArg Ran.state hsame⟩
  | getTodos | addTodo | deleteTodo | echo => exact ⟨rfl, rfl⟩

theorem Own.ne_panicked (surroundings : ε) (context : CallContext)
    (request : g.op.Request) (world : σ)
    (panic : Panic) : (g.handler surroundings context request world).result ≠ .panicked panic := by
  cases own with
  | getTodo =>
    intro hpanic
    replace hpanic := (congrArg Ran.result
      (Todos.handleGetTodo_eq store surroundings context request world)).symm.trans hpanic
    rw [Ran.result_of] at hpanic
    split at hpanic <;> cases hpanic
  | getTodos | addTodo | deleteTodo | echo => exact nofun

/-- The operation is selected where the query names it. -/
theorem Own.selected {context : CallContext} (payload : Bytes)
    (hnamed : ∀ param, c.selector = .named param → context.queryParam param = some g.op.name) :
    selectOperation c.selector context payload = .ok g.op.name := by
  cases own with
  | getTodos | getTodo | addTodo | deleteTodo =>
    exact Service.selectOperation_of_query (hnamed "fn" rfl) payload
  | echo => rfl

end Handlers

/-! ## Requests -/

/-- A request that calls an operation with a document, which may come in any pieces.  Where the
    service has several operations, the query names this one. -/
structure Posted (op : Operation c) (payload : Bytes) (r : Request) : Prop where
  method : r.method = .post
  body : ∃ pieces : List Bytes, r.body = pieces.map .data ∧ pieces.flatten = payload
  named : ∀ param, c.selector = .named param →
    (Form.decode (r.uri.query.getD "")).last? param = some op.name

theorem Posted.ne_options {op : Operation c} {payload : Bytes} {r : Request}
    (posted : Posted op payload r) :
    r.method ≠ .options := by
  rw [posted.method]
  decide

/-- The layers of a host do not touch what such a request asks for. -/
theorem Posted.forwarded {op : Operation c} {payload : Bytes} {r : Request}
    (posted : Posted op payload r)
    (generatedId : Bytes) : Posted op payload (Host.forwarded generatedId r) := by
  obtain ⟨hmethod, hbody, hnamed⟩ := posted
  constructor
  · exact (identified_method generatedId r).trans hmethod
  · show ∃ pieces : List Bytes, (identified generatedId r).body = _ ∧ _
    rw [identified_body]
    exact hbody
  · show ∀ param, _ → (Form.decode ((identified generatedId r).uri.query.getD "")).last? param = _
    rw [identified_uri]
    exact hnamed

/-- A body in pieces is read whole if it fits. -/
theorem readBody_pieces {limit : Nat} {pieces : List Bytes} (h : pieces.flatten.length ≤ limit) :
    readBody limit (pieces.map .data) = .complete pieces.flatten := by
  induction pieces generalizing limit with
  | nil => rfl
  | cons piece pieces ih =>
    rw [List.flatten_cons, List.length_append] at h
    have hfirst : ¬limit < piece.length := by omega
    have hrest : pieces.flatten.length ≤ limit - piece.length := by omega
    rw [List.map_cons, readBody, if_neg hfirst, ih hrest]
    rfl

section Serving

variable {store : Part σ Todos.Store} {g : Registration c ε σ} {w : Wiring c ε σ}
  {config : DispatchConfig} {payload : Bytes} {request : g.op.Request} {r : Request}

/-- A service answers a request that selects an operation as the handler of the operation does. -/
theorem serve_selected (own : Own store g) (registered : w.last? g.op.name = some g)
    (lastCallId : Nat) (hdecode : g.op.request.decode payload = .ok request)
    (fits : payload.length ≤ config.maxRequestBytes) (hmethod : r.method = .post)
    (hbody : ∃ pieces : List Bytes, r.body = pieces.map .data ∧ pieces.flatten = payload)
    (hselected : selectOperation c.selector (.ofRequest (lastCallId + 1) c.name r)
      payload = .ok g.op.name)
    (surroundings surroundings' : ε) (context : CallContext) (world : σ) :
    let ran := ((w.service config lastCallId).serve surroundings r world).1
    let handled := g.handler surroundings' context request world
    ran.result = Service.respond (g.op.answer handled.result) ∧ ran.state = handled.state := by
  intro ran handled
  obtain ⟨pieces, hbody, rfl⟩ := hbody
  have hread : readBody (w.service config lastCallId).config.maxRequestBytes r.body =
      .complete pieces.flatten := by
    rw [hbody]
    exact readBody_pieces fits
  have hpost : ¬((w.service config lastCallId).config.requirePost ∧ r.method ≠ .post) :=
    fun h => h.2 hmethod
  let context' := CallContext.ofRequest (lastCallId + 1) c.name r
  have hprepare : (w.service config lastCallId).prepare (lastCallId + 1) r =
      .ok (some (context', g.op.name, pieces.flatten)) := by
    rw [Service.prepare_complete hpost hread]
    show Except.map _ (selectOperation c.selector context' pieces.flatten) = _
    rw [hselected]
    rfl
  have hserved : ran.state = (g.handler surroundings context' request world).state ∧
      ran.result =
        Service.respond (g.op.answer (g.handler surroundings context' request world).result) :=
    Service.serve_of_registered hprepare registered hdecode
  obtain ⟨hresult, hstate⟩ := own.blind surroundings surroundings' context' context request world
  exact ⟨by rw [hserved.2, hresult], by rw [hserved.1, hstate]⟩

/-- So it answers one whose query names the operation. -/
theorem serve_posted (own : Own store g) (registered : w.last? g.op.name = some g)
    (lastCallId : Nat) (hdecode : g.op.request.decode payload = .ok request)
    (fits : payload.length ≤ config.maxRequestBytes)
    (posted : Posted g.op payload r) (surroundings surroundings' : ε)
    (context : CallContext) (world : σ) :
    let ran := ((w.service config lastCallId).serve surroundings r world).1
    let handled := g.handler surroundings' context request world
    ran.result = Service.respond (g.op.answer handled.result) ∧ ran.state = handled.state :=
  serve_selected own registered lastCallId hdecode fits posted.method posted.body
    (own.selected payload posted.named) surroundings surroundings' context world

end Serving

/-! ## Clients -/

namespace Client

/-- The path that the requests of a client for an operation ask for. -/
def path? (client : Client c) (operation : String) : Option String :=
  (client.url? operation).bind fun url => (Uri.parse url.target).toOption.map Uri.path

variable {client : Client c}

/-- The URL of a call is clean and names the operation where it has to be named. -/
theorem url?_spec {operation : String} {url : Url} (h : client.url? operation = some url) :
    url.Clean ∧ ∀ param, c.selector = .named param →
      (Form.decode (url.query.getD "")).last? param = some operation := by
  obtain ⟨endpoint, hparse, hurl⟩ := Option.map_eq_some_iff.1 h
  have hclean : endpoint.Clean := Url.clean_of_parse? hparse
  cases hselector : c.selector with
  | fixed =>
    rw [hselector] at hurl
    obtain rfl : endpoint = url := hurl
    exact ⟨hclean, nofun⟩
  | named param =>
    rw [hselector] at hurl
    obtain rfl : endpoint.withPair param operation = url := hurl
    refine ⟨hclean.withPair param operation, fun other hother => ?_⟩
    cases hother
    exact endpoint.last?_withPair param operation

/-- Where the service has one operation, its URL is the endpoint. -/
theorem url?_fixed {operation only : String} (h : c.selector = .fixed only) :
    client.url? operation = Url.parse? client.connection.authority? client.endpoint := by
  rw [url?, h]
  exact Option.map_id'

/-- The path of a URL that is not too long is the one that is asked for. -/
theorem path?_eq {operation : String} {url : Url} (h : client.url? operation = some url)
    (hlength : url.target.utf8ByteSize ≤ Uri.maxLength) :
    client.path? operation = some url.path := by
  rw [path?, h, Option.bind_some, (url?_spec h).1.parse_target hlength]
  rfl

/-- The request that posts a document to a URL. -/
def posting (url : Url) (payload : Bytes) : Request :=
  ⟨.post, ⟨none, none, url.path, url.query⟩, .http11, [header "content-type" jsonContentType],
    [.data payload], false⟩

/-- A request can be built for a clean URL, unless the URL is too long. -/
theorem build_post {url : Url} (hclean : url.Clean) (payload : Bytes) :
    (Request.build Method.post.name url.target .http11 [header "content-type" jsonContentType]
        [.data payload]).toOption =
      if url.target.utf8ByteSize ≤ Uri.maxLength then some (posting url payload) else none := by
  have hmethod : Method.parse? Method.post.name = some .post := by decide
  rw [Request.build, hmethod]
  by_cases hlength : url.target.utf8ByteSize ≤ Uri.maxLength
  · rw [if_pos hlength, hclean.parse_target hlength]
    rfl
  · rw [if_neg hlength, Uri.parse, if_pos (Nat.lt_of_not_le hlength)]
    rfl

/-- What a client sends through its connection. -/
def sending (client : Client c) (url : Url) (payload : Bytes) : Request :=
  { posting url payload with headers := (posting url payload).headers ++ client.connection.headers }

/-- What a client sends: its document, to the URL of the call. -/
theorem request?_eq_some {op : Operation c} {request : op.Request} {sent : Request} :
    client.request? op request = some sent ↔
      ∃ url payload, client.url? op.name = some url ∧ op.request.encode request = .ok payload ∧
        url.target.utf8ByteSize ≤ Uri.maxLength ∧ client.sending url payload = sent := by
  have hrequest : client.request? op request = (client.url? op.name).bind fun url =>
      (op.request.encode request).toOption.bind fun payload =>
        (Request.build Method.post.name url.target .http11 [header "content-type" jsonContentType]
          [.data payload]).toOption.bind fun built =>
            some { built with headers := built.headers ++ client.connection.headers } := rfl
  rw [hrequest]
  constructor
  · intro hsent
    obtain ⟨url, hurl, hsent⟩ := Option.bind_eq_some_iff.1 hsent
    obtain ⟨payload, hpayload, hsent⟩ := Option.bind_eq_some_iff.1 hsent
    rw [build_post (url?_spec hurl).1] at hsent
    split at hsent
    next hlength =>
      refine ⟨url, payload, hurl, ?_, hlength, Option.some.inj hsent⟩
      cases hencode : op.request.encode request with
      | ok payload' => rw [hencode] at hpayload; exact congrArg Except.ok (Option.some.inj hpayload)
      | error reason => rw [hencode] at hpayload; cases hpayload
    next => cases hsent
  · rintro ⟨url, payload, hurl, hencode, hlength, rfl⟩
    rw [hurl, Option.bind_some, hencode]
    show (Request.build _ _ _ _ _).toOption.bind _ = _
    rw [build_post (url?_spec hurl).1, if_pos hlength]
    rfl

/-- A client sends its operation and its document to its path. -/
theorem exists_posted {op : Operation c} {path : String} (hpath : client.path? op.name = some path)
    {request : op.Request} {payload : Bytes} (hencode : op.request.encode request = .ok payload) :
    ∃ sent, client.request? op request = some sent ∧ sent.uri.path = path ∧
      Posted op payload sent := by
  obtain ⟨url, hurl, htarget⟩ := Option.bind_eq_some_iff.1 hpath
  obtain ⟨hclean, hnamed⟩ := url?_spec hurl
  -- A target that is too long would not read as a URI.
  have hlength : url.target.utf8ByteSize ≤ Uri.maxLength := by
    by_contra hlong
    rw [Uri.parse, if_pos (Nat.lt_of_not_le hlong)] at htarget
    cases htarget
  rw [hclean.parse_target hlength] at htarget
  obtain rfl : url.path = path := Option.some.inj htarget
  exact ⟨client.sending url payload,
    request?_eq_some.2 ⟨url, payload, hurl, hencode, hlength, rfl⟩, rfl,
      ⟨rfl, ⟨[payload], rfl, List.append_nil payload⟩, hnamed⟩⟩

/-- The caller is told what the answer of the host means. -/
theorem call_of_sent {op : Operation c} {request : op.Request} {sent : Request}
    (hsent : client.request? op request = some sent) (h : Host σ)
    (generatedId : Bytes) (world : σ) :
    let ran := (h.answer generatedId sent world).1
    let received := (client.call op request h generatedId world).1
    received.result = interpret op ran.result.status ran.result.body ∧
      received.state = ran.state := by
  intro ran received
  have hcall : received = ⟨interpret op ran.result.status ran.result.body, ran.state,
      ran.trace ++ .event (receivedEvent c op.name ran.result.status ran.result.body.length)⟩ := by
    simp only [received, call, hsent]
    rfl
  rw [hcall]
  exact ⟨rfl, rfl⟩

/-- The caller is told the status of a failure that comes without a body. -/
theorem call_of_failure {op : Operation c} {request : op.Request} {sent : Request}
    (hsent : client.request? op request = some sent) {h : Host σ} {generatedId : Bytes} {world : σ}
    {response : Response} (hanswer : h.answer generatedId sent world = (.of response world, h))
    {status : Nat} (hstatus : response.status = status) (hfailure : ¬(200 ≤ status ∧ status ≤ 299))
    (hbody : response.body = []) :
    (client.call op request h generatedId world).1.result =
      .error (.rpc c.name op.name status "") := by
  have hmessage : failureMessage [] = "" := by cbv
  rw [(call_of_sent hsent h generatedId world).1, hanswer]
  show interpret op response.status response.body = _
  rw [hstatus, hbody, interpret, if_neg hfailure, hmessage]

end Client

/-! ## Agreement -/

namespace Outcome

variable {α : Type} {outcome : Outcome HandlerError α}

theorem atCaller_eq_done {value : α} : outcome.atCaller = .done value ↔ outcome = .done value := by
  cases outcome <;> simp [atCaller]

theorem atCaller_eq_failed {error : CallError} :
    outcome.atCaller = .failed error ↔ ∃ reported, outcome = .failed reported ∧
      .handler reported = error := by
  cases outcome <;> simp [atCaller]

theorem atCaller_eq_panicked {panic : Panic} :
    outcome.atCaller = .panicked panic ↔ outcome = .panicked panic := by
  cases outcome <;> simp [atCaller]

end Outcome

/-- A client of an operation whose requests get to a service that is mounted at a host: the path
    they ask for is the path of the mount, which has no parameters; and the host lets calls in and
    leaves them some time. -/
structure Reaches (client : Client c) (operation : String)
    (service : Service c Controller σ) (h : Host σ) :
    Prop where
  assembled : Assembled h
  mounted : ∃ (i : Nat) (path : String) (pattern : Pattern),
    h.mounts[i]? = some ⟨path, pattern, c, service⟩ ∧ Pattern.BraceFree path ∧
      client.path? operation = some path
  accepts : h.controller.state.acceptsCalls = true
  time : h.config.requestTimeout ≠ 0

/-- The body of an error reads back as it is. -/
theorem ErrorBody.decode_render (b : ErrorBody) :
    record.codec.decode (Utf8.encode b.render) = .ok b := by
  have hfaithful : record.codec.Faithful :=
    Json.Record.faithful _ ⟨Json.Codec.faithful_text, trivial⟩ (by decide)
  obtain ⟨bytes, hencode, hdecode⟩ := hfaithful.decode_encode b
  have hbytes : Utf8.encode b.render = bytes := by
    rw [Json.Codec.encode, write_eq_render] at hencode
    exact Except.ok.inj hencode
  rw [hbytes, hdecode]

/-- The message of an error body reaches the caller of a client word for word. -/
theorem Client.failureMessage_render (message : String) :
    Client.failureMessage (Utf8.encode (ErrorBody.render ⟨message⟩)) = message := by
  rw [Client.failureMessage, ErrorBody.decode_render]

/-- What a service answers for what its handler gives, and how a client reads this answer. -/
theorem respond_answer {op : Operation c} (hop : op.Faithful)
    (outcome : Outcome HandlerError op.Response) (hpanic : ∀ panic, outcome ≠ .panicked panic) :
    ∃ response, Service.respond (op.answer outcome) = .answered response ∧
      (∀ value, outcome = .done value → ∃ document, op.response.encode value = .ok document ∧
        response = Service.documentResponse 200 document ∧
        Client.interpret op response.status response.body = .ok value) ∧
      (∀ error, outcome = .failed error →
        response = Service.documentResponse 500 (Utf8.encode (ErrorBody.render ⟨error.message⟩)) ∧
        Client.interpret op response.status response.body =
          .error (.rpc c.name op.name 500 error.message)) := by
  cases outcome with
  | panicked panic => exact absurd rfl (hpanic panic)
  | done value =>
    obtain ⟨document, hencode, hdecode⟩ := hop.response.decode_encode value
    have hanswer : op.answer (.done value) = .done document := by
      rw [Operation.answer, hencode]
    refine ⟨Service.documentResponse 200 document, by rw [hanswer]; rfl, ?_, fun _ h => by cases h⟩
    intro value' hvalue
    cases hvalue
    refine ⟨document, hencode, rfl, ?_⟩
    show (op.response.decode document).mapError _ = _
    rw [hdecode]
    rfl
  | failed error =>
    refine ⟨Service.documentResponse 500 (Utf8.encode (ErrorBody.render ⟨error.message⟩)), rfl,
      (fun _ h => by cases h), ?_⟩
    intro error' herror
    cases herror
    have hread : Client.interpret op 500 (Utf8.encode (ErrorBody.render ⟨error.message⟩)) =
        .error (.rpc c.name op.name 500 error.message) := by
      rw [Client.interpret, if_neg (by decide), Client.failureMessage_render]
    refine ⟨rfl, ?_⟩
    dsimp only [Service.documentResponse]
    exact hread

/-- **Agreement.**  Take an operation of the two services with its own handler, and a request whose
    document fits the limit of the service.  Then a call from inside the process, a request that
    posts the document to the service, and a call of a client whose requests reach the service at a
    host leave the same world and give the same: a value, which the service writes with status 200
    and the client reads back, or an error of the call, whose status and message come in the error
    body and to the caller of the client. -/
theorem call_serve_client_agree {store : Part σ Todos.Store} {g : Registration c Controller σ}
    (own : Own store g) {w : Wiring c Controller σ} (registered : w.last? g.op.name = some g)
    (config : DispatchConfig) (lastCallId : Nat) {request : g.op.Request} {payload : Bytes}
    (written : g.op.request.encode request = .ok payload)
    (fits : payload.length ≤ config.maxRequestBytes)
    (surroundings : Controller) (context : CallContext) (r : Request)
    (posted : Posted g.op payload r) (client : Client c) (h : Host σ)
    (reaches : Reaches client g.op.name (w.service config lastCallId) h)
    (generatedId : Bytes) (world : σ) :
    let service := w.service config lastCallId
    let called := service.call surroundings context g.op request world
    let served := (service.serve surroundings r world).1
    let received := (client.call g.op request h generatedId world).1
    (∀ value, called.result = .done value → ∃ document, g.op.response.encode value = .ok document ∧
      served.result = .answered (Service.documentResponse 200 document) ∧
        received.result = .ok value) ∧
    (∀ error, called.result = .failed error →
      served.result = .answered (Service.documentResponse error.status
        (Utf8.encode (ErrorBody.render ⟨error.message⟩))) ∧
      received.result = .error (.rpc c.name g.op.name error.status error.message)) ∧
    (∀ panic, called.result ≠ .panicked panic) ∧
    served.state = called.state ∧ received.state = called.state := by
  intro service called served received
  have hop : g.op.Faithful := own.offered.faithful
  let handled := g.handler surroundings context request world
  have hcalled : called.result = handled.result.atCaller :=
    result_call_of_faithful hop registered config lastCallId surroundings context request world
  have hcalledState : called.state = handled.state :=
    state_call_of_faithful hop registered config lastCallId surroundings context request world
  have hpanic : ∀ panic, handled.result ≠ .panicked panic :=
    own.ne_panicked surroundings context request world
  obtain ⟨document, hdocument, hdecode⟩ := hop.request.decode_encode request
  obtain rfl : document = payload := Except.ok.inj (hdocument.symm.trans written)
  obtain ⟨response, hresponse, hdone, hfailed⟩ := respond_answer hop handled.result hpanic
  -- The service by itself.
  obtain ⟨hserved, hservedState⟩ : served.result = Service.respond (g.op.answer handled.result) ∧
      served.state = handled.state :=
    serve_posted own registered lastCallId hdecode fits posted surroundings
      surroundings context world
  -- The service behind the host, with what the client sends.
  obtain ⟨i, path, pattern, at_i, free, hclient⟩ := reaches.mounted
  obtain ⟨sent, hsent, hpath, hposted⟩ := Client.exists_posted hclient written
  obtain ⟨hstate, hpassed⟩ :=
    answer_of_mounted reaches.assembled at_i free reaches.accepts reaches.time
    generatedId hposted.method hpath world
  obtain ⟨hmounted, hmountedState⟩ :
      (h.served ⟨path, pattern, c, service⟩ generatedId sent world).1.result =
        Service.respond (g.op.answer handled.result) ∧
      (h.served ⟨path, pattern, c, service⟩ generatedId sent world).1.state = handled.state :=
    serve_posted own registered lastCallId hdecode fits (hposted.forwarded generatedId)
      h.controller.acquire
      surroundings context world
  obtain ⟨hstatus, hbody⟩ := hpassed response (hmounted.trans hresponse)
  obtain ⟨hreceived, hreceivedState⟩ := Client.call_of_sent hsent h generatedId world
  rw [hstatus, hbody] at hreceived
  have hleft : received.state = called.state :=
    hreceivedState.trans (hstate.trans (hmountedState.trans hcalledState.symm))
  refine ⟨?_, ?_, ?_, hservedState.trans hcalledState.symm, hleft⟩
  · intro value hvalue
    obtain ⟨document', hencode, hwritten, hread⟩ :=
      hdone value (Outcome.atCaller_eq_done.1 (hcalled ▸ hvalue))
    exact ⟨document', hencode, by rw [hserved, hresponse, hwritten], hreceived.trans hread⟩
  · intro error herror
    obtain ⟨reported, hreported, rfl⟩ := Outcome.atCaller_eq_failed.1 (hcalled ▸ herror)
    obtain ⟨hwritten, hread⟩ := hfailed reported hreported
    exact ⟨by rw [hserved, hresponse, hwritten]; rfl, hreceived.trans hread⟩
  · intro panic hpanicked
    exact hpanic panic (Outcome.atCaller_eq_panicked.1 (hcalled ▸ hpanicked))

/-- A todo is added through a client of a host with nothing else. -/
theorem client_adds_todo :
    let store : Part Todos.Store Todos.Store := .whole
    ∃ payload : Bytes,
      let service := Wiring.service (Todos.wiring store) { maxRequestBytes := payload.length } 0
      let h : Host Todos.Store :=
        { mounts := [⟨"/todos", .ofText "/todos", Todos.contract, service⟩] }
      let client : Client Todos.contract := { endpoint := "http://h/todos" }
      (client.call Todos.addTodo ⟨"soon", "tea"⟩ h [] .empty).1.result =
          .ok ⟨1, "soon", "tea", .todo⟩ ∧
        (client.call Todos.addTodo ⟨"soon", "tea"⟩ h [] .empty).1.state.rows =
          [⟨1, "soon", "tea", .todo⟩] := by
  intro store
  have own : Own (ε := Controller) store ⟨Todos.addTodo, Todos.handleAddTodo store⟩ := .addTodo
  have registered : (Todos.wiring store).last? Todos.addTodo.name =
      some (⟨Todos.addTodo, Todos.handleAddTodo store⟩ : Registration _ Controller _) := rfl
  obtain ⟨payload, hencode, -⟩ :=
    own.offered.faithful.request.decode_encode (⟨"soon", "tea"⟩ : Todos.AddTodoRequest)
  refine ⟨payload, ?_⟩
  intro service h client
  have hclient : client.path? Todos.addTodo.name = some "/todos" := by
    have hparse : Url.parse? Url.plainAuthority? client.endpoint =
        some ⟨"http", "h", "/todos", none⟩ :=
      Url.parse?_segment "todos".toList (by decide) (by decide) (by decide) (by decide)
    have hurl : client.url? Todos.addTodo.name =
        some ⟨"http", "h", "/todos", some "fn=addTodo"⟩ := by
      rw [Client.url?, hparse]
      decide
    exact Client.path?_eq hurl (by decide)
  have reaches : Reaches client Todos.addTodo.name service h :=
    ⟨.single {} (by decide) (by decide) (by decide) service,
      ⟨0, "/todos", _, rfl, by decide, hclient⟩, rfl, show 30000 ≠ 0 by decide⟩
  obtain ⟨sent, -, -, posted⟩ := Client.exists_posted hclient hencode
  let config : DispatchConfig := { maxRequestBytes := payload.length }
  let context : CallContext := .ofRequest 1 Todos.contract.name sent
  obtain ⟨hdone, -, -, -, hleft⟩ :=
    call_serve_client_agree own registered config 0 hencode (Nat.le_refl _) {}
    context sent posted client h reaches [] .empty
  -- From inside the process the handler does what it does to an empty store.
  have hcalled := result_call_of_faithful own.offered.faithful registered config 0 {} context
    ⟨"soon", "tea"⟩ .empty
  have hkept := state_call_of_faithful own.offered.faithful registered config 0 {} context
    ⟨"soon", "tea"⟩ .empty
  obtain ⟨-, -, -, hreceived⟩ := hdone _ hcalled
  dsimp only at hreceived hleft hkept
  rw [hreceived, hleft, hkept]
  exact ⟨rfl, rfl⟩

/-- Two clients of `Echo` whose calls fail where a call from inside the process does not: the path
    of one is escaped when it is sent, so that no mount is at it, and the host of the other leaves
    no time. -/
theorem echo_out_of_reach :
    let service : Service Echo.contract Controller Unit := Echo.register {}
    let h : Host Unit := { mounts := [⟨"/a b", .ofText "/a b", Echo.contract, service⟩] }
    let hurried : Host Unit :=
      { config := { requestTimeout := 0 },
        mounts := [⟨"/echo", .ofText "/echo", Echo.contract, service⟩] }
    let client : Client Echo.contract := { endpoint := "http://h/a b" }
    let other : Client Echo.contract := { endpoint := "http://h/echo" }
    let payload : Bytes := Utf8.encode "\x7b\"message\":\"hi\"\x7d"
    let context : CallContext := .ofRequest 1 "Echo" ⟨.post, .root, .http11, [], [], false⟩
    Assembled h ∧ Pattern.BraceFree "/a b" ∧ Assembled hurried ∧ Pattern.BraceFree "/echo" ∧
      Echo.echo.request.encode ⟨"hi"⟩ = .ok payload ∧
      payload.length ≤ service.config.maxRequestBytes ∧
      (service.call {} context Echo.echo ⟨"hi"⟩ ()).result = .done "hi" ∧
      (∃ sent, client.request? Echo.echo ⟨"hi"⟩ = some sent ∧ Posted Echo.echo payload sent ∧
        sent.uri.path = "/a%20b" ∧ (h.answer [] sent ()).1.result.status = 404) ∧
      (client.call Echo.echo ⟨"hi"⟩ h [] ()).1.result = .error (.rpc "Echo" "echo" 404 "") ∧
      (other.call Echo.echo ⟨"hi"⟩ hurried [] ()).1.result =
        .error (.rpc "Echo" "echo" 408 "") := by
  intro service h hurried client other payload context
  have hencode : Echo.echo.request.encode ⟨"hi"⟩ = .ok payload := by cbv
  have registered : Wiring.last? [⟨Echo.echo, Echo.handleEcho⟩] Echo.echo.name =
      some (⟨Echo.echo, Echo.handleEcho⟩ : Registration _ Controller Unit) := rfl
  have hcalled : (service.call {} context Echo.echo ⟨"hi"⟩ ()).result = .done "hi" :=
    result_call_of_faithful Offered.echo.faithful registered {} 0 {} context ⟨"hi"⟩ ()
  have hlost : ∃ sent, client.request? Echo.echo ⟨"hi"⟩ = some sent ∧
      Posted Echo.echo payload sent ∧ sent.uri.path = "/a%20b" ∧
      h.answer [] sent () = (.of (h.layered [] sent (some (.ofStatus 404))) (), h) ∧
      (h.layered [] sent (some (.ofStatus 404))).body = [] := by
    have hparse : Url.parse? Url.plainAuthority? "http://h/a b" =
        some ⟨"http", "h", "/a%20b", none⟩ :=
      Url.parse?_segment "a b".toList (by decide) (by decide) (by decide) (by decide)
    have hurl : client.url? Echo.echo.name = some ⟨"http", "h", "/a%20b", none⟩ :=
      (Client.url?_fixed rfl).trans hparse
    obtain ⟨sent, hsent, hpath, posted⟩ :=
      Client.exists_posted (Client.path?_eq hurl (by decide)) hencode
    have htarget : h.target? sent.uri.path = none := by
      rw [hpath]
      rfl
    have hkeeps : ((h.target? sent.uri.path).map Target.isProbe).getD false = false := by
      rw [htarget]
      rfl
    exact ⟨sent, hsent, posted, hpath,
      h.answer_of_unrouted [] () posted.ne_options (show 30000 ≠ 0 by decide) rfl htarget,
      layered_body h [] sent (.inl hkeeps)⟩
  have hlate : (other.call Echo.echo ⟨"hi"⟩ hurried [] ()).1.result =
      .error (.rpc "Echo" "echo" 408 "") := by
    have hparse : Url.parse? Url.plainAuthority? "http://h/echo" =
        some ⟨"http", "h", "/echo", none⟩ :=
      Url.parse?_segment "echo".toList (by decide) (by decide) (by decide) (by decide)
    have hurl : other.url? Echo.echo.name = some ⟨"http", "h", "/echo", none⟩ :=
      (Client.url?_fixed rfl).trans hparse
    obtain ⟨sent, hsent, -, posted⟩ :=
      Client.exists_posted (Client.path?_eq hurl (by decide)) hencode
    have hanswer := hurried.answer_of_no_time [] () posted.ne_options rfl
    exact Client.call_of_failure hsent hanswer (layered_status _ _ _ _) (by decide)
      (layered_body_none hurried [] sent)
  obtain ⟨sent, hsent, posted, hpath, hanswer, hempty⟩ := hlost
  refine ⟨.single {} (by decide) (by decide) (by decide) service, by decide,
    .single _ (by decide) (by decide) (by decide) service, by decide, hencode, by decide, hcalled,
    ⟨sent, hsent, posted, hpath, ?_⟩, ?_, hlate⟩
  · rw [hanswer]
    exact layered_status _ _ _ _
  · exact Client.call_of_failure hsent hanswer (layered_status _ _ _ _) (by decide) hempty

end Switchboard
