/-
  Two ways to name an operation, and one answer.

  The query of a request may name the operation, and then the body is the request of the operation.
  Or the body is an envelope, which names the operation next to the fields of the request and
  whatever else there may be.

  1. **Records** — `RequestOf`: the records that the requests of `Todos` are.  Their fields are
     strings and integers, and none of them is called `fn`.

  2. **Selection** — an envelope selects the operation that it names (`selectOperation_envelope`).

  3. **Agreement** — so both requests are answered alike and leave the same store.  The object of
     the envelope takes one level of the depth that values may have, and a further member that needs
     it all is read by itself and not inside (`envelope_too_deep`).
-/
import Switchboard.Proofs.Client.Agreement
import Switchboard.Proofs.Json.Envelope

namespace Switchboard

open Json

variable {ε σ : Type}

/-! ## Selection -/

/-- Where the query names no operation, the body has to. -/
theorem selectOperation_of_unnamed {param : String} {context : CallContext}
    (h : context.queryParam param = none) (payload : Bytes) :
    selectOperation (.named param) context payload = selectFromBody param payload := by
  rw [selectOperation, h]

/-- An envelope selects the operation that it names. -/
theorem selectOperation_envelope {α : Type} {x : Record α} {a : α} {param name : String}
    (e : Envelope x a param name) (hreadable : x.fields.Readable) (hparam : param ∉ x.fields.names)
    {context : CallContext} (hquery : context.queryParam param = none) :
    selectOperation (.named param) context e.text = .ok name := by
  obtain ⟨members, hmembers, hname⟩ := e.last?_members hreadable hparam
  rw [selectOperation_of_unnamed hquery, selectFromBody, hmembers]
  dsimp only
  rw [hname]

/-- A request with a document, which may come in any pieces, whose query does not name an
    operation. -/
structure Unnamed (param : String) (payload : Bytes) (r : Http.Request) : Prop where
  method : r.method = .post
  body : ∃ pieces : List Bytes, r.body = pieces.map .data ∧ pieces.flatten = payload
  unnamed : (Http.Form.decode (r.uri.query.getD "")).last? param = none

namespace Todos

/-! ## Records -/

/-- The records that the requests of the operations are. -/
inductive RequestOf : (op : Operation contract) → Record op.Request → Prop where
  | getTodos : RequestOf getTodos GetTodosRequest.record
  | getTodo : RequestOf getTodo GetTodoRequest.record
  | addTodo : RequestOf addTodo AddTodoRequest.record
  | deleteTodo : RequestOf deleteTodo DeleteTodoRequest.record

/-- The request of every operation is one of these records. -/
theorem exists_requestOf {store : Part σ Store} {g : Registration contract ε σ}
    (hg : g ∈ wiring store) :
    ∃ x, RequestOf g.op x := by
  rcases mem_wiring.1 hg with rfl | rfl | rfl | rfl
  · exact ⟨_, .getTodos⟩
  · exact ⟨_, .getTodo⟩
  · exact ⟨_, .addTodo⟩
  · exact ⟨_, .deleteTodo⟩

namespace RequestOf

variable {op : Operation contract} {x : Record op.Request} (h : RequestOf op x)

include h

theorem codec : op.request = x.codec := by
  cases h <;> rfl

theorem readable : x.fields.Readable := by
  cases h with
  | getTodos => trivial
  | getTodo | deleteTodo => exact ⟨Codec.readable_int64, trivial⟩
  | addTodo => exact ⟨Codec.readable_text, Codec.readable_text, trivial⟩

theorem nodup : x.fields.names.Nodup := by
  cases h <;> decide

theorem fn_not_mem : "fn" ∉ x.fields.names := by
  cases h <;> decide

end RequestOf

theorem own_of_mem_wiring {store : Part σ Store} {g : Registration contract ε σ}
    (hg : g ∈ wiring store) :
    Own store g := by
  rcases mem_wiring.1 hg with rfl | rfl | rfl | rfl
  · exact .getTodos
  · exact .getTodo
  · exact .addTodo
  · exact .deleteTodo

/-! ## Agreement -/

/-- **The two conventions agree.**  Take a service with the four handlers, an operation of it with a
    request, and an envelope of that request that names the operation.  A `POST` of the envelope
    whose query names no operation, and a `POST` of the document of the request whose query names
    it, are answered with the same response and leave the same world, if both bodies fit. -/
theorem conventions_agree {store : Part σ Store} {g : Registration contract ε σ}
    (hg : g ∈ wiring store)
    {x : Record g.op.Request} (hx : RequestOf g.op x) (request : g.op.Request)
    (e : Envelope x request "fn" g.op.name) {payload : Bytes}
    (hencode : g.op.request.encode request = .ok payload) (w : Wiring contract ε σ)
    (config : DispatchConfig) (lastCallId : Nat) (hfits : e.text.length ≤ config.maxRequestBytes)
    (hfits' : payload.length ≤ config.maxRequestBytes) {enveloped named : Http.Request}
    (henveloped : Unnamed "fn" e.text enveloped) (hnamed : Posted g.op payload named)
    (surroundings surroundings' : ε) (world : σ) :
    let service := register store (w.service config lastCallId)
    let viaBody := (service.serve surroundings enveloped world).1
    let viaQuery := (service.serve surroundings' named world).1
    (∃ response, viaBody.result = .answered response ∧ viaQuery.result = .answered response) ∧
      viaBody.state = viaQuery.state := by
  intro service viaBody viaQuery
  have own : Own store g := own_of_mem_wiring hg
  have hservice : service = Wiring.service (w ++ wiring store) config lastCallId :=
    register_eq _ _ _ _
  have registered := last?_of_mem_wiring w hg
  let context := CallContext.inProcess contract.name
  let handled := g.handler surroundings context request world
  have hbody : viaBody.result = Service.respond (g.op.answer handled.result) ∧
      viaBody.state = handled.state := by
    have hdecode : g.op.request.decode e.text = .ok request := by
      rw [hx.codec]
      exact e.decode hx.readable hx.fn_not_mem hx.nodup
    simp only [viaBody, hservice]
    exact serve_selected own registered lastCallId hdecode hfits henveloped.method henveloped.body
      (selectOperation_envelope e hx.readable hx.fn_not_mem henveloped.unnamed) surroundings
      surroundings context world
  have hquery : viaQuery.result = Service.respond (g.op.answer handled.result) ∧
      viaQuery.state = handled.state := by
    obtain ⟨bytes, hbytes, hdecode⟩ := own.offered.faithful.request.decode_encode request
    obtain rfl : bytes = payload := Except.ok.inj (hbytes.symm.trans hencode)
    simp only [viaQuery, hservice]
    exact serve_posted own registered lastCallId hdecode hfits' hnamed surroundings'
      surroundings context world
  -- No handler panics, so there is a response.
  obtain ⟨response, hresponse, -⟩ := respond_answer own.offered.faithful handled.result
    (own.ne_panicked surroundings context request world)
  exact ⟨⟨response, hbody.1.trans hresponse, hquery.1.trans hresponse⟩, hbody.2.trans hquery.2.symm⟩

/-- An envelope with escapes in keys and values, blanks, two further members of one name in front,
    the fields in reverse, and the name of the operation last. -/
def escapedEnvelope : Envelope AddTodoRequest.record ⟨"soon", "tea"⟩ "fn" "addTodo" :=
  let spelling (key name value : String) (h : document text (Utf8.encode name) = .ok key) :
      Spelling :=
    ⟨key, Utf8.encode name, Utf8.encode value, h⟩
  let selector := spelling "fn" "\n\"\\u0066n\" " " \"addTodo\"" (by cbv)
  let deadline := spelling "deadline" " \"deadline\"" "\t\"so\\u006fn\"" (by cbv)
  let description := spelling "description" "\"d\\u0065scription\"" "\"tea\" " (by cbv)
  let nested := spelling "x" "\"x\" " " [\x7b\"fn\":1,\"fn\":null\x7d, []]" (by cbv)
  let number := spelling "x" "\"x\"" "-1.5e3" (by cbv)
  { members := [number, nested, description, deadline, selector]
    fields := [deadline, description]
    selector
    further := [nested, number]
    before := Utf8.encode " "
    behind := Utf8.encode "\n"
    order := List.reverse_perm [selector, deadline, description, nested, number]
    spelled := ⟨deadline, [description], rfl, rfl, by cbv, description, [], rfl, rfl, by cbv, rfl⟩
    selects := ⟨rfl, by cbv⟩
    other := by decide
    valued :=
      List.forall_mem_cons.2 ⟨by decide +kernel, List.forall_mem_singleton.2 (by decide +kernel)⟩
    blank_before := by decide
    blank_behind := by decide }

/-- A request to the root of a service. -/
def postTo (query : Option String) (body : Bytes) : Http.Request :=
  ⟨.post, { Http.Uri.root with query }, .http11, [], [.data body], false⟩

theorem unnamed_postTo (payload : Bytes) : Unnamed "fn" payload (postTo none payload) :=
  ⟨rfl, ⟨[payload], rfl, List.append_nil payload⟩, by cbv⟩

theorem posted_postTo {op : Operation contract} {query : String} (payload : Bytes)
    (hquery : (Http.Form.decode query).last? "fn" = some op.name) :
    Posted op payload (postTo (some query) payload) := by
  refine ⟨rfl, ⟨[payload], rfl, List.append_nil payload⟩, fun param hparam => ?_⟩
  cases hparam
  exact hquery

/-- An envelope that is hard to read, and the plain document, add the same todo. -/
theorem escaped_envelope_adds_todo :
    let text := Utf8.encode (" \x7b\"x\":-1.5e3,\"x\" : [\x7b\"fn\":1,\"fn\":null\x7d, []]," ++
      "\"d\\u0065scription\":\"tea\" , \"deadline\":\t\"so\\u006fn\",\n\"\\u0066n\" : \"addTodo\"\x7d\n")
    let payload := Utf8.encode "\x7b\"deadline\":\"soon\",\"description\":\"tea\"\x7d"
    let service : Service contract Unit Store := register .whole (Wiring.service [] {} 0)
    let viaBody := (service.serve () (postTo none text) .empty).1
    let viaQuery := (service.serve () (postTo (some "fn=addTodo") payload) .empty).1
    escapedEnvelope.text = text ∧
      (∃ response, viaBody.result = .answered response ∧ viaQuery.result = .answered response) ∧
      viaBody.state = viaQuery.state ∧ viaQuery.state.rows = [⟨1, "soon", "tea", .todo⟩] := by
  intro text payload service viaBody viaQuery
  have htext : escapedEnvelope.text = text := by decide +kernel
  have hencode : addTodo.request.encode (⟨"soon", "tea"⟩ : AddTodoRequest) = .ok payload := by cbv
  have henveloped : Unnamed "fn" escapedEnvelope.text (postTo none text) := by
    rw [htext]
    exact unnamed_postTo text
  have hnamed : Posted addTodo payload (postTo (some "fn=addTodo") payload) :=
    posted_postTo payload (by cbv)
  have hfits : escapedEnvelope.text.length ≤ ({} : DispatchConfig).maxRequestBytes := by
    rw [htext]
    decide +kernel
  have hmem :
      (⟨addTodo, handleAddTodo .whole⟩ : Registration contract Unit Store) ∈ wiring .whole :=
    mem_wiring.2 (.inr (.inr (.inl rfl)))
  obtain ⟨hanswered, hstate⟩ :=
    conventions_agree hmem .addTodo ⟨"soon", "tea"⟩ escapedEnvelope hencode [] {} 0
    hfits (by decide +kernel) henveloped hnamed () () .empty
  exact ⟨htext, hanswered, hstate, by decide +kernel⟩

/-- A further member that is nested as deep as a value may be: it is read as a value, but not inside
    the object.  The envelope is refused, where the plain document is answered. -/
theorem envelope_too_deep :
    let nested : Spelling := ⟨"x", Utf8.encode "\"x\"", nestedLists depthLimit, by cbv⟩
    let selector : Spelling := ⟨"fn", Utf8.encode "\"fn\"", Utf8.encode "\"getTodos\"", by cbv⟩
    let text := objectText [nested, selector]
    let payload := Utf8.encode "\x7b\x7d"
    let service : Service contract Unit Store := register .whole (Wiring.service [] {} 0)
    (∃ v, document (value depthLimit) nested.value = .ok v) ∧
      document Json.text selector.value = .ok getTodos.name ∧
      getTodos.request.encode {} = .ok payload ∧
      text.length ≤ service.config.maxRequestBytes ∧
      payload.length ≤ service.config.maxRequestBytes ∧
      Unnamed "fn" text (postTo none text) ∧
      Posted getTodos payload (postTo (some "fn=getTodos") payload) ∧
      (service.serve () (postTo none text) .empty).1.result.status = 400 ∧
      (service.serve () (postTo (some "fn=getTodos") payload) .empty).1.result.status = 200 := by
  intro nested selector text payload service
  have hless : 126 < depthLimit := by decide
  obtain ⟨v, hv⟩ := exists_reads_nestedLists hless []
  rw [List.append_nil] at hv
  have hlength : text.length ≤ service.config.maxRequestBytes := by decide +kernel
  refine ⟨⟨v, document_iff.2 ⟨[], hv, rfl⟩⟩, by cbv, by cbv, hlength, by decide +kernel,
    unnamed_postTo text, posted_postTo payload (by cbv), ?_, by decide +kernel⟩
  have hread : readBody service.config.maxRequestBytes ([text].map .data) =
      .complete [text].flatten :=
    readBody_pieces (by rw [List.flatten_singleton]; exact hlength)
  rw [List.flatten_singleton] at hread
  cases hdocument : document envelope text with
  | ok found =>
    have hrefused : document envelope (objectText [nested, selector] ++ []) ≠ .ok found :=
      not_envelope_objectText fun more v rest => not_reads_nestedLists (by decide)
    rw [List.append_nil] at hrefused
    exact absurd hdocument hrefused
  | error fault =>
    have hprepare : service.prepare service.nextCallId.1 (postTo none text) =
        .error (.badRequest (fault.message text)) := by
      have hquery :
          (CallContext.ofRequest service.nextCallId.1 contract.name (postTo none text)).queryParam
            "fn" = none := (unnamed_postTo text).unnamed
      rw [Service.prepare_complete (fun h => h.2 rfl) hread]
      show Except.map _ (selectOperation (.named "fn") _ text) = _
      rw [selectOperation_of_unnamed hquery, selectFromBody, hdocument]
      rfl
    rw [Service.serve_of_refused hprepare]
    rfl

end Todos

end Switchboard
