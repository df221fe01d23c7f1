/-
  Payloads that are no objects.

  1. **Lists** — `Positional`: a list of JSON values that holds the fields of a request in their
     order.  A payload that is no object is read as a request just when it is such a list
     (`Positional.decode_iff`).

  2. **Dispatch** — so no other value is ever handed to a handler, and the call is refused as a bad
     request (`refused_unless_positional`).  Such a list is handed to it: `listed_addition_stores`.
-/
import Switchboard.Proofs.Json.Positional
import Switchboard.Proofs.Todos.Service

namespace Switchboard

open Json

variable {c : Contract} {ε σ τ : Type}

/-! ## Lists -/

/-- The fields of a request in their order, as JSON values. -/
inductive Positional : {c : Contract} → (op : Operation c) → op.Request → List Value → Prop where
  | getTodos : Positional Todos.getTodos Todos.GetTodosRequest.mk []
  | getTodo (id : Int64) :
      Positional Todos.getTodo (Todos.GetTodoRequest.mk id) [.number (.integer id.toInt)]
  | addTodo (deadline description : String) :
      Positional Todos.addTodo (Todos.AddTodoRequest.mk deadline description)
        [.text deadline, .text description]
  | deleteTodo (id : Int64) :
      Positional Todos.deleteTodo (Todos.DeleteTodoRequest.mk id) [.number (.integer id.toInt)]
  | echo (message : String) : Positional Echo.echo (Echo.EchoRequest.mk message) [.text message]

/-- Every request has its list. -/
theorem Offered.exists_positional {op : Operation c} (offered : Offered op) (request : op.Request) :
    ∃ items, Positional op request items := by
  cases offered with
  | getTodos => exact ⟨_, .getTodos⟩
  | getTodo => exact ⟨_, .getTodo request.id⟩
  | addTodo => exact ⟨_, .addTodo request.deadline request.description⟩
  | deleteTodo => exact ⟨_, .deleteTodo request.id⟩
  | echo => exact ⟨_, .echo request.message⟩

/-- A payload that is no object is read as a request just when it is its list. -/
theorem Positional.decode_iff {op : Operation c} {request : op.Request} {items : List Value}
    (positional : Positional op request items) {payload : Bytes}
    (plain : (skipBlanks payload).head? ≠ some openObject) :
    op.request.decode payload = .ok request ↔
      document (value depthLimit) payload = .ok (.list items) := by
  cases positional with
  | getTodos => exact Record.decode_listed _ .nil _ plain
  | getTodo id | deleteTodo id =>
    exact Record.decode_listed _ (.cons (Codec.mirrors_int64 id) .nil) _ plain
  | addTodo deadline description =>
    exact Record.decode_listed _
      (.cons (Codec.mirrors_text deadline) (.cons (Codec.mirrors_text description) .nil)) _
      plain
  | echo message => exact Record.decode_listed _ (.cons (Codec.mirrors_text message) .nil) _ plain

/-! ## Dispatch -/

/-- What a handler answers is no bad request, whether it can be written or not. -/
theorem Operation.answer_ne_badRequest (op : Operation c)
    (outcome : Outcome HandlerError op.Response)
    (reason : String) : op.answer outcome ≠ .failed (.badRequest reason) := by
  cases outcome with
  | failed error =>
    intro h
    cases h
  | panicked panic =>
    intro h
    cases h
  | done response =>
    rw [answer]
    split
    · intro h
      cases h
    · intro h
      cases h

section Dispatch

variable {w : Wiring c ε σ} {g : Registration c ε σ} (registered : w.last? g.op.name = some g)
  (config : DispatchConfig) (lastCallId : Nat) (surroundings : ε)
  (context : CallContext) {payload : Bytes} (world : σ)

include registered

/-- A payload that is read as a request is handed to the handler. -/
theorem Service.dispatch_of_request {request : g.op.Request}
    (hrequest : g.op.request.decode payload = .ok request) :
    let ran := (w.service config lastCallId).dispatch surroundings context g.op.name payload world
    let handled := g.handler surroundings context request world
    ran.result = g.op.answer handled.result ∧ ran.state = handled.state := by
  intro ran handled
  have hperform :
    (w.service config lastCallId).perform surroundings context g.op.name payload world =
      handled.map g.op.answer := by
    rw [perform_registered _ _ _ _ _ _ _ registered, Registration.slot, Operation.slot, hrequest]
  exact ⟨by rw [result_dispatch, hperform]; rfl, by rw [state_dispatch, hperform]; rfl⟩

/-- A payload that is not is refused. -/
theorem Service.dispatch_of_fault {fault : Fault}
    (hfault : g.op.request.decode payload = .error fault) :
    let ran := (w.service config lastCallId).dispatch surroundings context g.op.name payload world
    ran.result = .failed (.badRequest (fault.message payload)) ∧ ran.state = world := by
  intro ran
  have hperform :
    (w.service config lastCallId).perform surroundings context g.op.name payload world =
      .of (.failed (.badRequest (fault.message payload))) world := by
    rw [perform_registered _ _ _ _ _ _ _ registered, Registration.slot, Operation.slot, hfault]
  exact ⟨by rw [result_dispatch, hperform]; rfl, by rw [state_dispatch, hperform]; rfl⟩

end Dispatch

/-- **Payloads.**  Take an operation of the two services with a handler, whatever the handler does,
    and a payload that does not begin with a brace.  If it is the list of the fields of a request,
    the handler runs once, on this request.  If it is anything else, the call is refused as a bad
    request, no handler runs, and the world is left as it is. -/
theorem refused_unless_positional {g : Registration c ε σ}
    (offered : Offered g.op) {w : Wiring c ε σ}
    (registered : w.last? g.op.name = some g) (config : DispatchConfig)
    (lastCallId : Nat) (surroundings : ε) (context : CallContext) {payload : Bytes}
    (plain : (skipBlanks payload).head? ≠ some openObject) (world : σ)
    (note : (g : Registration c ε σ) → CallContext → g.op.Request → τ) (notes : List τ) :
    let ran := (w.service config lastCallId).dispatch surroundings context g.op.name payload world
    let noted :=
      ((w.recorded note).service config lastCallId).dispatch surroundings context g.op.name payload
      (world, notes)
    noted.result = ran.result ∧ noted.state.1 = ran.state ∧
    (∀ request items, Positional g.op request items →
      document (value depthLimit) payload = .ok (.list items) →
        ran.result = g.op.answer (g.handler surroundings context request world).result ∧
        ran.state = (g.handler surroundings context request world).state ∧
        noted.state.2 = notes ++ [note g context request]) ∧
    ((∀ request items, Positional g.op request items →
      document (value depthLimit) payload ≠ .ok (.list items)) →
        (∃ reason, ran.result = .failed (.badRequest reason)) ∧ ran.state = world ∧
          noted.state.2 = notes) := by
  intro ran noted
  have hnoted : noted = ran.noting (notes ++ w.notes note context g.op.name payload) :=
    Service.dispatch_recorded _ _ _ _ _ _ _ _ _ _
  have hnotes : w.notes note context g.op.name payload = g.notes note context payload := by
    rw [Wiring.notes, registered]
  rw [hnoted, hnotes]
  refine ⟨rfl, rfl, ?_, ?_⟩
  · intro request items positional hlist
    have hdecode : g.op.request.decode payload = .ok request :=
      (positional.decode_iff plain).2 hlist
    obtain ⟨hresult, hstate⟩ :=
      Service.dispatch_of_request registered config lastCallId surroundings context world hdecode
    exact ⟨hresult, hstate, by rw [Ran.noting, Registration.notes, hdecode]⟩
  · intro hother
    cases hdecode : g.op.request.decode payload with
    | ok request =>
      obtain ⟨items, positional⟩ := offered.exists_positional request
      exact absurd ((positional.decode_iff plain).1 hdecode) (hother request items positional)
    | error fault =>
      obtain ⟨hresult, hstate⟩ :=
        Service.dispatch_of_fault registered config lastCallId surroundings context world hdecode
      exact ⟨⟨_, hresult⟩, hstate, by rw [Ran.noting, Registration.notes, hdecode, List.append_nil]⟩

/-- A text in a list is echoed, and the text by itself is refused. -/
theorem echo_refused_unless_listed :
    let g : Registration Echo.contract Unit Unit := ⟨Echo.echo, Echo.handleEcho⟩
    let service := Wiring.service [g] {} 0
    let listed : Bytes := Utf8.encode " [\"hi\"]"
    let alone : Bytes := Utf8.encode "\"hi\""
    Offered g.op ∧ Wiring.last? [g] g.op.name = some g ∧
      (skipBlanks listed).head? ≠ some openObject ∧ (skipBlanks alone).head? ≠ some openObject ∧
      (service.dispatch () (.inProcess "Echo") g.op.name listed ()).result = .done alone ∧
      ∃ reason, (service.dispatch () (.inProcess "Echo") g.op.name alone ()).result =
        .failed (.badRequest reason) := by
  intro g service listed alone
  have offered : Offered g.op := .echo
  have registered : Wiring.last? [g] g.op.name = some g := rfl
  have hlisted : (skipBlanks listed).head? ≠ some openObject := by decide
  have halone : (skipBlanks alone).head? ≠ some openObject := by decide
  have hlist : document (value depthLimit) (Utf8.encode " [\"hi\"]") =
      .ok (.list [.text "hi"]) := by cbv
  have hvalue : document (value depthLimit) (Utf8.encode "\"hi\"") = .ok (.text "hi") := by cbv
  have hwrite : Echo.echo.response.encode "hi" = .ok alone := by decide
  change document (value depthLimit) listed = _ at hlist
  change document (value depthLimit) alone = _ at hvalue
  refine ⟨offered, registered, hlisted, halone, ?_, ?_⟩
  -- From here on it does not matter which bytes these are.
  all_goals clear_value listed alone
  · have hruns :=
      (refused_unless_positional offered registered {} 0 () (.inProcess "Echo") hlisted ()
      (fun _ _ _ => ()) []).2.2.1 _ _ (.echo "hi") hlist
    refine hruns.1.trans ?_
    show Echo.echo.answer (.done "hi") = _
    simp only [Operation.answer, hwrite]
  · have hrefused :=
      (refused_unless_positional offered registered {} 0 () (.inProcess "Echo") halone ()
      (fun _ _ _ => ()) []).2.2.2
    refine (hrefused fun request items _ hlist => ?_).1
    rw [hvalue] at hlist
    cases hlist

/-- A payload that is no object, and that adds a todo. -/
theorem listed_addition_stores :
    let service : Service Todos.contract Unit Todos.Store :=
      Wiring.service (Todos.wiring .whole) {} 0
    let payload : Bytes := Utf8.encode "[\"soon\",\"tea\"]"
    let ran := service.dispatch () (.inProcess "Todos") Todos.addTodo.name payload .empty
    document (value depthLimit) payload = .ok (.list [.text "soon", .text "tea"]) ∧
      (∀ reason, ran.result ≠ .failed (.badRequest reason)) ∧
      ran.state.rows = [⟨1, "soon", "tea", .todo⟩] := by
  intro service payload ran
  have hlist : document (value depthLimit) (Utf8.encode "[\"soon\",\"tea\"]") =
      .ok (.list [.text "soon", .text "tea"]) := by cbv
  change document (value depthLimit) payload = _ at hlist
  have plain : (skipBlanks payload).head? ≠ some openObject := by decide
  refine ⟨hlist, ?_⟩
  clear_value payload
  have hdecode := ((Positional.addTodo "soon" "tea").decode_iff plain).2 hlist
  let g : Registration Todos.contract Unit Todos.Store :=
    ⟨Todos.addTodo, Todos.handleAddTodo .whole⟩
  have registered : (Todos.wiring .whole).last? g.op.name = some g := rfl
  obtain ⟨hresult, hstate⟩ :=
    Service.dispatch_of_request registered {} 0 () (.inProcess "Todos") .empty hdecode
  exact ⟨fun reason hrefused => g.op.answer_ne_badRequest _ reason (hresult.symm.trans hrefused),
    congrArg Todos.Store.rows hstate⟩

end Switchboard
