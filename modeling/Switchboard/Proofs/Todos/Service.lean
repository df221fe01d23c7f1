/-
  What serving a request does to the todo store.

    * `register_eq`     the four handlers stand behind whatever was registered before;
    * `handler_effect`  a handler that answers has performed the store operation of its request, and
                        one
      that fails has not touched the store;
    * `serve_todos`     a request to a `Todos` service is answered with 200 and its store operation
                        is
      performed, or the store is as it was.

  Nothing can fail behind the change of the store: the only stage there is the writing of the
  response, and every response is written.
-/
import Switchboard.Proofs.Service.Transparency
import Switchboard.Proofs.Todos.History
import Switchboard.Todos.Service

namespace Switchboard

variable {c : Contract} {ε σ : Type}

/-! ## Statuses -/

/-- An answer that can be written decides the status. -/
theorem Service.respond_status {op : Operation c} (hop : op.response.Faithful)
    (outcome : Outcome HandlerError op.Response) :
    (Service.respond (op.answer outcome)).status =
      match outcome with
      | .done _ => 200
      | .failed _ => 500
      | .panicked _ => 500 := by
  cases outcome with
  | failed error => rfl
  | panicked panic => rfl
  | done response =>
    obtain ⟨bytes, hencode, -⟩ := hop.decode_encode response
    rw [Operation.answer, hencode]
    rfl

namespace Todos

/-! ## The wiring -/

/-- The four handlers over a store. -/
def wiring (store : Part σ Store) : Wiring contract ε σ :=
  [⟨getTodos, handleGetTodos store⟩, ⟨getTodo, handleGetTodo store⟩, ⟨addTodo, handleAddTodo store⟩,
    ⟨deleteTodo, handleDeleteTodo store⟩]

/-- Registering the four handlers puts them behind what was registered before. -/
theorem register_eq (store : Part σ Store) (w : Wiring contract ε σ) (config : DispatchConfig)
    (lastCallId : Nat) :
    register store (w.service config lastCallId) =
      Wiring.service (w ++ wiring store) config lastCallId := by
  rw [Wiring.service, Wiring.service, Wiring.registry, Wiring.registry, List.foldl_append]
  rfl

/-- The four handlers, one by one. -/
theorem mem_wiring {store : Part σ Store} {g : Registration contract ε σ} : g ∈ wiring store ↔
    g = ⟨getTodos, handleGetTodos store⟩ ∨ g = ⟨getTodo, handleGetTodo store⟩ ∨
      g = ⟨addTodo, handleAddTodo store⟩ ∨ g = ⟨deleteTodo, handleDeleteTodo store⟩ := by
  simp only [wiring, List.mem_cons, List.not_mem_nil, or_false]

/-- Each of them is the last of its name. -/
theorem last?_of_mem_wiring {store : Part σ Store} (w : Wiring contract ε σ)
    {g : Registration contract ε σ} (hg : g ∈ wiring store) :
    Wiring.last? (w ++ wiring store) g.op.name = some g := by
  rw [Wiring.last?_append]
  rcases mem_wiring.1 hg with rfl | rfl | rfl | rfl <;> rfl

/-- Every operation of the contract is one of the four. -/
theorem mem_wiring_of_last? {store : Part σ Store} {w : Wiring contract ε σ} {name : String}
    {g : Registration contract ε σ} (h : Wiring.last? (w ++ wiring store) name = some g) :
    g ∈ wiring store := by
  have hname : name ∈ (wiring (ε := ε) store).map (·.op.name) := Wiring.mem_operations_of_last? h
  obtain ⟨g', hg', rfl⟩ := List.mem_map.1 hname
  rw [last?_of_mem_wiring w hg'] at h
  cases h
  exact hg'

/-! ## Operations of the store -/

/-- The store operation that a call asks for. -/
def storeOp? (operation : String) (payload : Bytes) : Option Store.Op :=
  if operation = "getTodos" then some .list
  else if operation = "getTodo" then
    (GetTodoRequest.record.codec.decode payload).toOption.map fun request => .get request.id
  else if operation = "addTodo" then
    (AddTodoRequest.record.codec.decode payload).toOption.map fun request =>
      .add request.deadline request.description
  else if operation = "deleteTodo" then
    (DeleteTodoRequest.record.codec.decode payload).toOption.map fun request => .delete request.id
  else none

section Handlers

variable {store : Part σ Store}

theorem handleGetTodo_eq (store : Part σ Store) (surroundings : ε) (context : CallContext)
    (request : GetTodoRequest) (world : σ) :
    handleGetTodo store surroundings context request world =
      .of (match (store.get world).get? request.id with
        | some todo => .done todo
        | none => .failed ⟨"todo not found"⟩) world := by
  unfold handleGetTodo
  cases (store.get world).get? request.id <;> rfl

/-- A handler answers and has performed the store operation of its request, or it fails and the
    store is as it was. -/
theorem handler_effect (lawful : ∀ s world, store.get (store.set s world) = s)
    {g : Registration contract ε σ} (hg : g ∈ wiring store) {payload : Bytes}
    {request : g.op.Request}
    (hrequest : g.op.request.decode payload = .ok request) (surroundings : ε)
    (context : CallContext) (world : σ) :
    let handled := g.handler surroundings context request world
    let status := (Service.respond (g.op.answer handled.result)).status
    ∃ op, storeOp? g.op.name payload = some op ∧
      (status = 200 ∧ store.get handled.state = ((store.get world).step op).2 ∨
        status ≠ 200 ∧ store.get handled.state = store.get world) := by
  intro handled status
  rcases mem_wiring.1 hg with rfl | rfl | rfl | rfl
  -- The two that only look answer from the store, or find nothing.
  · exact ⟨.list, rfl, .inl ⟨Service.respond_status Offered.getTodos.faithful.response _, rfl⟩⟩
  · replace hrequest : GetTodoRequest.record.codec.decode payload = .ok request := hrequest
    refine ⟨.get request.id, ?_, ?_⟩
    · show Option.map _ (Except.toOption _) = _
      rw [hrequest]
      rfl
    · have hstatus : status = _ := Service.respond_status Offered.getTodo.faithful.response _
      have hhandled : handled = _ := handleGetTodo_eq store surroundings context request world
      rw [hstatus, hhandled]
      cases (store.get world).get? request.id with
      | none => exact .inr ⟨show 500 ≠ 200 by decide, rfl⟩
      | some todo => exact .inl ⟨rfl, rfl⟩
  -- The two that change the store always answer.
  · replace hrequest : AddTodoRequest.record.codec.decode payload = .ok request := hrequest
    refine ⟨.add request.deadline request.description, ?_, .inl ⟨?_, lawful _ _⟩⟩
    · show Option.map _ (Except.toOption _) = _
      rw [hrequest]
      rfl
    · exact Service.respond_status Offered.addTodo.faithful.response _
  · replace hrequest : DeleteTodoRequest.record.codec.decode payload = .ok request := hrequest
    refine ⟨.delete request.id, ?_, .inl ⟨?_, lawful _ _⟩⟩
    · show Option.map _ (Except.toOption _) = _
      rw [hrequest]
      rfl
    · exact Service.respond_status Offered.deleteTodo.faithful.response _

/-- A call of one of the four, with a payload that is a request of it, runs its handler. -/
theorem serve_todos_of_call {w : Wiring contract ε σ} {config : DispatchConfig} {lastCallId : Nat}
    {r : Http.Request} {context : CallContext} {payload : Bytes} {g : Registration contract ε σ}
    (hg : g ∈ wiring store) {request : g.op.Request}
    (hprepare : (register store (w.service config lastCallId)).prepare (lastCallId + 1) r =
      .ok (some (context, g.op.name, payload)))
    (hrequest : g.op.request.decode payload = .ok request) (surroundings : ε) (world : σ) :
    ((register store (w.service config lastCallId)).serve surroundings r world).1.result =
      Service.respond (g.op.answer (g.handler surroundings context request world).result) := by
  rw [register_eq] at hprepare ⊢
  exact (Service.serve_of_registered hprepare (last?_of_mem_wiring w hg) hrequest).2

/-- A request to a `Todos` service is answered with 200 and performs the store operation of the call
    that it makes, or it leaves the store as it is. -/
theorem serve_todos (lawful : ∀ s world, store.get (store.set s world) = s)
    (w : Wiring contract ε σ)
    (config : DispatchConfig) (lastCallId : Nat) (surroundings : ε) (r : Http.Request) (world : σ) :
    let service := register store (w.service config lastCallId)
    let ran := (service.serve surroundings r world).1
    (ran.result.status ≠ 200 ∧ store.get ran.state = store.get world) ∨
    (ran.result.status = 200 ∧ ∃ context operation payload op,
      service.prepare (lastCallId + 1) r = .ok (some (context, operation, payload)) ∧
      storeOp? operation payload = some op ∧
      store.get ran.state = ((store.get world).step op).2) := by
  intro service ran
  have hservice : service = Wiring.service (w ++ wiring store) config lastCallId :=
    register_eq _ _ _ _
  have hran : ran =
      ((Wiring.service (w ++ wiring store) config lastCallId).serve surroundings r world).1 := by
    rw [← hservice]
  rw [hran, hservice]
  rcases Service.serve_runs (w ++ wiring store) config lastCallId surroundings r world with
    ⟨hstate, hstatus⟩ |
    ⟨context, operation, payload, g, request, hprepare, hlast, hrequest, hstate, hresult⟩
  · exact .inl ⟨hstatus, by rw [hstate]⟩
  · have hg : g ∈ wiring store := mem_wiring_of_last? hlast
    have hname : g.op.name = operation := Wiring.name_of_last? hlast
    obtain ⟨op, hop, heffect⟩ := handler_effect lawful hg hrequest surroundings context world
    rw [hname] at hop
    rw [hstate, hresult]
    rcases heffect with ⟨hok, hchanged⟩ | ⟨hfails, hkept⟩
    · exact .inr ⟨hok, context, operation, payload, op, hprepare, hop, hchanged⟩
    · exact .inl ⟨hfails, hkept⟩

end Handlers

end Todos

end Switchboard
