/-
  The operation that a client calls is the one that the service selects.

  1. **Queries** — a query with the name of an operation behind it selects this operation, whatever
     stands in front of it and whatever the body says (`selectOperation_withPair`).

  2. **Requests** — what a client sends to a service with several operations is its document, posted
     to the endpoint with the name of the operation behind its query (`Client.request?_named`).

  3. **Selection** — so the operation that is selected is the one that was called, whatever its name
     is and whatever query the endpoint comes with (`selection_arrives`).
-/
import Switchboard.Proofs.Client.Agreement

namespace Switchboard

open Http

variable {c : Contract}

/-! ## Queries -/

/-- The pair behind a query selects the operation, before any other pair and before the body. -/
theorem selectOperation_withPair {param operation : String} {context : CallContext} {u : Url}
    (hquery : context.uri.query = (u.withPair param operation).query) (payload : Bytes) :
    selectOperation (.named param) context payload = .ok operation := by
  have hlast : context.queryParam param = some operation := by
    rw [CallContext.queryParam, hquery]
    exact u.last?_withPair param operation
  exact Service.selectOperation_of_query hlast payload

/-! ## Requests -/

namespace Client

variable {param : String} {client : Client c} {op : Operation c}
  {request : op.Request} {sent : Request}

/-- Where the operations of a service are selected by name, the name goes behind the query of the
    endpoint. -/
theorem url?_named (hnamed : c.selector = .named param) (operation : String) :
    client.url? operation =
      (Url.parse? client.connection.authority? client.endpoint).map
        (·.withPair param operation) := by
  rw [url?, hnamed]

/-- What a client sends to such a service. -/
theorem request?_named (hnamed : c.selector = .named param) :
    client.request? op request = some sent ↔
      ∃ endpoint payload, Url.parse? client.connection.authority? client.endpoint = some endpoint ∧
        op.request.encode request = .ok payload ∧
        (endpoint.withPair param op.name).target.utf8ByteSize ≤ Uri.maxLength ∧
        client.sending (endpoint.withPair param op.name) payload = sent := by
  rw [request?_eq_some, url?_named hnamed]
  constructor
  · rintro ⟨url, payload, hurl, hencode, hlength, hsent⟩
    obtain ⟨endpoint, hparse, rfl⟩ := Option.map_eq_some_iff.1 hurl
    exact ⟨endpoint, payload, hparse, hencode, hlength, hsent⟩
  · rintro ⟨endpoint, payload, hparse, hencode, hlength, hsent⟩
    exact ⟨_, payload, by rw [hparse, Option.map_some], hencode, hlength, hsent⟩

end Client

/-! ## Selection -/

/-- **Selection.**  Take a service whose operations are selected by name, and a client of any of
    them.  Whatever arrives with the path and query of what the client sends selects the operation,
    whatever its body holds, and however the connection of the client reads hosts.  What is sent
    posts the document to the path of the endpoint, with the pairs of the endpoint in front of the
    name of the operation; and it is sent if the endpoint is a URL, the document can be written, and
    the URL does not get too long. -/
theorem selection_arrives {param : String} (hnamed : c.selector = .named param) (client : Client c)
    (op : Operation c) (request : op.Request) :
    (∀ sent, client.request? op request = some sent →
      (∀ arrived : Request, arrived.uri = sent.uri → ∀ (callId : Nat) (body : Bytes),
        selectOperation c.selector (.ofRequest callId c.name arrived) body = .ok op.name) ∧
      ∃ endpoint payload, Url.parse? client.connection.authority? client.endpoint = some endpoint ∧
        op.request.encode request = .ok payload ∧
        sent.method = .post ∧ sent.body = [.data payload] ∧ sent.uri.path = endpoint.path ∧
        Form.decode (sent.uri.query.getD "") =
          Form.decode (endpoint.query.getD "") ++ [(param, op.name)]) ∧
    ((∃ sent, client.request? op request = some sent) ↔
      ∃ endpoint payload, Url.parse? client.connection.authority? client.endpoint = some endpoint ∧
        op.request.encode request = .ok payload ∧
        (endpoint.withPair param op.name).target.utf8ByteSize ≤ Uri.maxLength) := by
  refine ⟨fun sent hsent => ?_, ?_⟩
  · obtain ⟨endpoint, payload, hparse, hencode, -, rfl⟩ := (Client.request?_named hnamed).1 hsent
    refine ⟨fun arrived harrived callId body => ?_, endpoint, payload, hparse, hencode, rfl, rfl,
      endpoint.withPair_path param op.name, endpoint.decode_withPair param op.name⟩
    have hquery : (CallContext.ofRequest callId c.name arrived).uri.query =
        (endpoint.withPair param op.name).query := congrArg Uri.query harrived
    rw [hnamed]
    exact selectOperation_withPair hquery body
  · constructor
    · rintro ⟨sent, hsent⟩
      obtain ⟨endpoint, payload, hparse, hencode, hlength, -⟩ :=
        (Client.request?_named hnamed).1 hsent
      exact ⟨endpoint, payload, hparse, hencode, hlength⟩
    · rintro ⟨endpoint, payload, hparse, hencode, hlength⟩
      exact ⟨_, (Client.request?_named hnamed).2 ⟨endpoint, payload, hparse, hencode, hlength, rfl⟩⟩

/-- An operation with a name full of marks is selected at an endpoint that names others twice,
    whatever the body names. -/
theorem marked_selection_arrives :
    let c : Contract := ⟨"Odd", .named "f n", ["a b&f+n=c%é", ""]⟩
    let op : Operation c :=
      { name := "a b&f+n=c%é", Request := String, Response := String,
        request := .text, response := .text }
    let client : Client c := { endpoint := "http://h/x?f+n=old&f%20n=older" }
    c.selector = .named "f n" ∧
      ∃ sent, client.request? op "" = some sent ∧ ∀ body,
        selectOperation c.selector (.ofRequest 1 c.name sent) body = .ok "a b&f+n=c%é" := by
  intro c op client
  have hnamed : c.selector = .named "f n" := rfl
  have hparse : Url.parse? client.connection.authority? client.endpoint =
      some ⟨"http", "h", "/x", some "f+n=old&f%20n=older"⟩ := by
    have hmark : ∀ d ∈ "?f+n=old&f%20n=older".toList.head?, Url.endsPath d = true := by
      intro d (hd : some '?' = some d)
      cases hd
      decide
    exact (Url.parse?_segment_query "x".toList "?f+n=old&f%20n=older".toList
      (by decide) (by decide) hmark (by decide) rfl).trans (by decide)
  have hencode : op.request.encode "" = .ok (Utf8.encode "\"\"") := by decide
  obtain ⟨hselects, hsends⟩ := selection_arrives hnamed client op ""
  obtain ⟨sent, hsent⟩ := hsends.2 ⟨_, _, hparse, hencode, by decide⟩
  exact ⟨hnamed, sent, hsent, (hselects sent hsent).1 sent rfl 1⟩

end Switchboard
