/-
  Calls are transparent: between a caller and a handler the wire format does not show.

  1. **Faithful operations** — every operation of the `Todos` and the `Echo` contract writes its
     requests and responses so that they read back (`Offered.faithful`).

  2. **Calls** — for such an operation, calling it is running its handler: once, on the very
     request, with the handler's own answer (`result_call_of_faithful`, `state_call_of_faithful`).
-/
import Switchboard.Proofs.Json.Codec
import Switchboard.Proofs.Service.Dispatch
import Switchboard.Echo.Service
import Switchboard.Todos.Contract

namespace Switchboard

open Json

variable {c : Contract} {ε σ τ : Type}

/-! ## Faithful operations -/

/-- Requests and responses read back from what is written of them. -/
structure Operation.Faithful (op : Operation c) : Prop where
  request : op.request.Faithful
  response : op.response.Faithful

/-- The operations of the two contracts. -/
inductive Offered : {c : Contract} → Operation c → Prop where
  | getTodos : Offered Todos.getTodos
  | getTodo : Offered Todos.getTodo
  | addTodo : Offered Todos.addTodo
  | deleteTodo : Offered Todos.deleteTodo
  | echo : Offered Echo.echo

/-- Every name that the `Todos` contract declares is the name of one of them. -/
theorem Offered.exists_todos {name : String} (h : name ∈ Todos.contract.operations) :
    ∃ op : Operation Todos.contract, Offered op ∧ op.name = name := by
  rcases List.mem_cons.1 h with rfl | h
  · exact ⟨_, .getTodos, rfl⟩
  rcases List.mem_cons.1 h with rfl | h
  · exact ⟨_, .getTodo, rfl⟩
  rcases List.mem_cons.1 h with rfl | h
  · exact ⟨_, .addTodo, rfl⟩
  obtain rfl := List.mem_singleton.1 h
  exact ⟨_, .deleteTodo, rfl⟩

/-- The same for the `Echo` contract. -/
theorem Offered.exists_echo {name : String} (h : name ∈ Echo.contract.operations) :
    ∃ op : Operation Echo.contract, Offered op ∧ op.name = name := by
  obtain rfl := List.mem_singleton.1 h
  exact ⟨_, .echo, rfl⟩

theorem Todos.faithful_status : Todos.Status.codec.Faithful :=
  Codec.faithful_choice fun s => by cases s <;> rfl

theorem Todos.faithful_todo : Todos.Todo.record.codec.Faithful :=
  Record.faithful _ ⟨Codec.faithful_int64, Codec.faithful_text, Codec.faithful_text,
    faithful_status, trivial⟩
    (by decide)

theorem Offered.faithful {op : Operation c} (h : Offered op) : op.Faithful := by
  cases h with
  | getTodos => exact ⟨Record.faithful _ trivial .nil, Codec.faithful_list Todos.faithful_todo⟩
  | getTodo =>
    exact ⟨Record.faithful _ ⟨Codec.faithful_int64, trivial⟩ (by decide), Todos.faithful_todo⟩
  | addTodo =>
    exact ⟨Record.faithful _ ⟨Codec.faithful_text, Codec.faithful_text, trivial⟩ (by decide),
      Todos.faithful_todo⟩
  | deleteTodo =>
    exact ⟨Record.faithful _ ⟨Codec.faithful_int64, trivial⟩ (by decide),
      Record.faithful _ trivial .nil⟩
  | echo =>
    exact ⟨Record.faithful _ ⟨Codec.faithful_text, trivial⟩ (by decide), Codec.faithful_text⟩

/-! ## Calls -/

/-- The outcome of a handler, as its caller is told. -/
def Outcome.atCaller {α : Type} : Outcome HandlerError α → Outcome CallError α
  | .done response => .done response
  | .failed error => .failed (.handler error)
  | .panicked panic => .panicked panic

/-- The written answer of a handler is read as that answer. -/
theorem readResponse_answer {op : Operation c} (h : op.response.Faithful)
    (outcome : Outcome HandlerError op.Response) :
    Service.readResponse op (op.answer outcome) = outcome.atCaller := by
  cases outcome with
  | failed error => rfl
  | panicked panic => rfl
  | done response =>
    obtain ⟨bytes, hencode, hdecode⟩ := h.decode_encode response
    rw [Operation.answer, hencode]
    show Service.readResponse op (.done bytes) = _
    rw [Service.readResponse, hdecode]
    rfl

section Calls

variable {w : Wiring c ε σ} {op : Operation c} {f : Handler ε σ op.Request op.Response}
  (hop : op.Faithful) (registered : w.last? op.name = some ⟨op, f⟩) (config : DispatchConfig)
  (lastCallId : Nat) (surroundings : ε) (context : CallContext) (request : op.Request) (world : σ)

include hop registered

/-- The document of a request reaches the handler as the request. -/
theorem perform_of_faithful :
    ∃ payload, op.request.encode request = .ok payload ∧
      op.request.decode payload = .ok request ∧
      (w.service config lastCallId).perform surroundings context op.name payload world =
        (f surroundings context request world).map op.answer := by
  obtain ⟨payload, hencode, hdecode⟩ := hop.request.decode_encode request
  refine ⟨payload, hencode, hdecode, ?_⟩
  rw [Service.perform_registered _ _ _ _ _ _ _ registered]
  show op.slot f surroundings context payload world = _
  simp only [Operation.slot, hdecode]

theorem result_call_of_faithful :
    ((w.service config lastCallId).call surroundings context op request world).result =
      (f surroundings context request world).result.atCaller := by
  obtain ⟨payload, hencode, -, hperform⟩ :=
    perform_of_faithful hop registered config lastCallId surroundings context request world
  rw [Service.call, hencode]
  show Service.readResponse op (Service.dispatch _ _ _ _ _ _).result = _
  rw [Service.result_dispatch, hperform, Ran.result_map, readResponse_answer hop.response]

theorem state_call_of_faithful :
    ((w.service config lastCallId).call surroundings context op request world).state =
      (f surroundings context request world).state := by
  obtain ⟨payload, hencode, -, hperform⟩ :=
    perform_of_faithful hop registered config lastCallId surroundings context request world
  rw [Service.call, hencode]
  show (Service.dispatch _ _ _ _ _ _).state = _
  rw [Service.state_dispatch, hperform, Ran.state_map]

/-- A recorded call notes one run of the handler, on the request itself. -/
theorem call_recorded_of_faithful
    (note : (g : Registration c ε σ) → CallContext → g.op.Request → τ) (notes : List τ) :
    ((w.recorded note).service config lastCallId).call surroundings context
      op request (world, notes) =
      ((w.service config lastCallId).call surroundings context op request world).noting
        (notes ++ [note ⟨op, f⟩ context request]) := by
  obtain ⟨payload, hencode, hdecode, -⟩ :=
    perform_of_faithful hop registered config lastCallId surroundings context request world
  rw [Service.call_recorded, hencode]
  dsimp only
  rw [Wiring.notes, registered]
  dsimp only
  rw [Registration.notes, hdecode]

end Calls

/-- **Transparency.**  A call of an operation of the two contracts gives what the handler registered
    last for it gives, and does to the world what the handler does; no other failure comes up on the
    way.  The handler runs once, with the context of the call, on the request itself. -/
theorem call_transparent {op : Operation c} (offered : Offered op) {w : Wiring c ε σ}
    {f : Handler ε σ op.Request op.Response} (registered : w.last? op.name = some ⟨op, f⟩)
    (config : DispatchConfig) (lastCallId : Nat) (surroundings : ε) (context : CallContext)
    (request : op.Request) (world : σ)
    (note : (g : Registration c ε σ) → CallContext → g.op.Request → τ) (notes : List τ) :
    let handled := f surroundings context request world
    let ran := (w.service config lastCallId).call surroundings context op request world
    let noted := ((w.recorded note).service config lastCallId).call surroundings context op request
      (world, notes)
    (∀ response, ran.result = .done response ↔ handled.result = .done response) ∧
    (∀ error, ran.result = .failed (.handler error) ↔ handled.result = .failed error) ∧
    (∀ panic, ran.result = .panicked panic ↔ handled.result = .panicked panic) ∧
    (∀ error, ran.result = .failed error → ∃ reported, error = .handler reported) ∧
    ran.state = handled.state ∧ noted.result = ran.result ∧
    noted.state = (handled.state, notes ++ [note ⟨op, f⟩ context request]) := by
  intro handled ran noted
  have hresult : ran.result = handled.result.atCaller :=
    result_call_of_faithful offered.faithful registered config lastCallId
      surroundings context request world
  have hstate : ran.state = handled.state :=
    state_call_of_faithful offered.faithful registered config lastCallId
      surroundings context request world
  have hnoted : noted = ran.noting (notes ++ [note ⟨op, f⟩ context request]) :=
    call_recorded_of_faithful offered.faithful registered config lastCallId
      surroundings context request
      world note notes
  rw [hnoted, hresult]
  refine ⟨?_, ?_, ?_, ?_, hstate, hresult, by rw [Ran.noting, hstate]⟩
  all_goals cases handled.result with
  | done response => simp [Outcome.atCaller]
  | failed error => simp [Outcome.atCaller]
  | panicked panic => simp [Outcome.atCaller]

/-- A message of quotes, control characters and a character of four bytes comes back from `echo`. -/
theorem call_echo_escapes :
    let w : Wiring Echo.contract Unit Unit := [⟨Echo.echo, Echo.handleEcho⟩]
    w.last? Echo.echo.name = some ⟨Echo.echo, Echo.handleEcho⟩ ∧
      ((w.service {} 0).call () (.inProcess "Echo") Echo.echo ⟨"\"\\\n\x01😀"⟩ ()).result =
        .done "\"\\\n\x01😀" := by
  intro w
  have registered : w.last? Echo.echo.name = some ⟨Echo.echo, Echo.handleEcho⟩ := rfl
  refine ⟨registered, ?_⟩
  obtain ⟨hdone, -⟩ :=
    call_transparent .echo registered {} 0 () (.inProcess "Echo") ⟨"\"\\\n\x01😀"⟩ ()
    (fun _ _ _ => ()) []
  exact (hdone _).2 rfl

end Switchboard
