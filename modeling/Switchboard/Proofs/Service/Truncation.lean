/-
  Payloads that are cut short, or that go on.

  A call is `Refused` when its answer is a bad request, no handler runs, and the world is left as it
  is.  An object that is read as a request is the text of one up to its last brace, no more and no
  less: cut anywhere in front of it, or with anything but blanks behind it, it is refused
  (`refused_unless_closed`).
-/
import Switchboard.Proofs.Json.Closing
import Switchboard.Proofs.Json.Envelope
import Switchboard.Proofs.Service.Payloads

namespace Switchboard

open Json

variable {c : Contract} {ε σ τ : Type}

/-! ## Requests -/

/-- The request of an operation of the two services is a record. -/
theorem Offered.exists_record {op : Operation c} (offered : Offered op) :
    ∃ x : Record op.Request, op.request = x.codec ∧ x.fields.Readable := by
  cases offered with
  | getTodos => exact ⟨Todos.GetTodosRequest.record, rfl, trivial⟩
  | getTodo => exact ⟨Todos.GetTodoRequest.record, rfl, Codec.readable_int64, trivial⟩
  | addTodo =>
    exact ⟨Todos.AddTodoRequest.record, rfl, Codec.readable_text, Codec.readable_text, trivial⟩
  | deleteTodo => exact ⟨Todos.DeleteTodoRequest.record, rfl, Codec.readable_int64, trivial⟩
  | echo => exact ⟨Echo.EchoRequest.record, rfl, Codec.readable_text, trivial⟩

section Requests

variable {op : Operation c} (offered : Offered op)

include offered

/-- A request that is an object ends with a brace, and blanks. -/
theorem Offered.closes {payload : Bytes} {request : op.Request}
    (brace : (skipBlanks payload).head? = some openObject)
    (accepted : op.request.decode payload = .ok request) :
    ∃ front behind, payload = front ++ closeObject :: behind ∧ skipBlanks behind = [] := by
  obtain ⟨x, hx, hreadable⟩ := offered.exists_record
  obtain ⟨r, hr⟩ := List.head?_eq_some_iff.1 brace
  exact Record.closes hreadable hr (hx ▸ accepted)

/-- Of two requests, where one begins with the other and is an object, the one goes on with
    blanks. -/
theorem Offered.blank_of_decode_append {front more : Bytes} {request request' : op.Request}
    (brace : (skipBlanks (front ++ more)).head? = some openObject)
    (h : op.request.decode front = .ok request)
    (h' : op.request.decode (front ++ more) = .ok request') : skipBlanks more = [] := by
  obtain ⟨x, hx, hreadable⟩ := offered.exists_record
  obtain ⟨r, hr⟩ := List.head?_eq_some_iff.1 brace
  exact Record.blank_of_decode_append hreadable hr (hx ▸ h) (hx ▸ h')

end Requests

/-! ## Refusals -/

section Refusals

variable (w : Wiring c ε σ) (config : DispatchConfig) (lastCallId : Nat) (surroundings : ε)
  (context : CallContext) (operation : String) (payload : Bytes) (world : σ)

/-- The call is answered with a bad request, no handler runs, whatever is noted of its request, and
    the world is left as it is. -/
structure Service.Refused : Prop where
  result : ∃ reason,
    ((w.service config lastCallId).dispatch surroundings context operation payload world).result =
      .failed (.badRequest reason)
  state :
    ((w.service config lastCallId).dispatch surroundings context operation payload world).state =
      world
  unheard : ∀ {τ : Type} (note : (g : Registration c ε σ) → CallContext → g.op.Request → τ)
    (notes : List τ),
    (((w.recorded note).service config lastCallId).dispatch surroundings context operation payload
      (world, notes)).state = (world, notes)

variable {w payload} {g : Registration c ε σ} (registered : w.last? g.op.name = some g)

include registered

/-- What is no request is refused. -/
theorem Service.refused_of_not_decode (h : ∀ request, g.op.request.decode payload ≠ .ok request) :
    Refused w config lastCallId surroundings context g.op.name payload world := by
  cases hdecode : g.op.request.decode payload with
  | ok request => exact absurd hdecode (h request)
  | error fault =>
    obtain ⟨hresult, hstate⟩ :=
      dispatch_of_fault registered config lastCallId surroundings context world hdecode
    refine ⟨⟨_, hresult⟩, hstate, fun note notes => ?_⟩
    have hnotes : w.notes note context g.op.name payload = [] := by
      rw [Wiring.notes, registered]
      show g.notes note context payload = []
      rw [Registration.notes, hdecode]
    rw [dispatch_recorded, hnotes, List.append_nil]
    exact congrArg (·, notes) hstate

end Refusals

/-- **Cuts.**  Take an operation of the two services with a handler, whatever the handler does, and
    an object that is read as its request.  It ends with a brace, and blanks.  Whatever it begins
    with in front of this brace is refused, and so is the object with anything behind it that is not
    all blanks. -/
theorem refused_unless_closed {g : Registration c ε σ} (offered : Offered g.op) {w : Wiring c ε σ}
    (registered : w.last? g.op.name = some g) (config : DispatchConfig)
    (lastCallId : Nat) (surroundings : ε)
    (context : CallContext) {payload : Bytes} {request : g.op.Request}
    (brace : (skipBlanks payload).head? = some openObject)
    (accepted : g.op.request.decode payload = .ok request) (world : σ) :
    (∃ front behind, payload = front ++ closeObject :: behind ∧ skipBlanks behind = []) ∧
    (∀ front behind, payload = front ++ closeObject :: behind →
      ∀ cut, cut <+: front →
        Service.Refused w config lastCallId surroundings context g.op.name cut world) ∧
    ∀ more, skipBlanks more ≠ [] →
      Service.Refused w config lastCallId surroundings context g.op.name
        (payload ++ more) world := by
  refine ⟨offered.closes brace accepted, ?_, ?_⟩
  · rintro _ behind rfl cut ⟨others, rfl⟩
    rw [List.append_assoc] at brace accepted
    refine Service.refused_of_not_decode _ _ _ _ _ registered fun request' h => ?_
    -- The brace is behind the cut, so it is not all blanks.
    have hblank := offered.blank_of_decode_append brace h accepted
    rw [skipBlanks, List.dropWhile_eq_nil_iff] at hblank
    exact absurd (hblank closeObject (List.mem_append_right others List.mem_cons_self)) (by decide)
  · intro more hmore
    obtain ⟨r, hr⟩ := List.head?_eq_some_iff.1 brace
    have brace' : (skipBlanks (payload ++ more)).head? = some openObject := by
      rw [skipBlanks_append hr]
      rfl
    exact Service.refused_of_not_decode _ _ _ _ _ registered fun request' h =>
      hmore (offered.blank_of_decode_append brace' accepted h)

/-- An addition that is cut in the middle of a character stores nothing, nor does one with a digit
    behind it. -/
theorem addition_refused_when_cut :
    let g : Registration Todos.contract Unit Todos.Store :=
      ⟨Todos.addTodo, Todos.handleAddTodo .whole⟩
    let w : Wiring Todos.contract Unit Todos.Store := Todos.wiring .whole
    let context : CallContext := .inProcess "Todos"
    let payload : Bytes := Utf8.encode "\x7b\"deadline\":\"é\",\"description\":\"tea\"\x7d\n"
    Offered g.op ∧ w.last? g.op.name = some g ∧ (skipBlanks payload).head? = some openObject ∧
      g.op.request.decode payload = .ok (Todos.AddTodoRequest.mk "é" "tea") ∧
      ((w.service {} 0).dispatch () context g.op.name payload .empty).state.rows =
        [⟨1, "é", "tea", .todo⟩] ∧
      Service.Refused w {} 0 () context g.op.name (payload.take 14) .empty ∧
      Service.Refused w {} 0 () context g.op.name (payload ++ [0x30]) .empty := by
  intro g w context payload
  have offered : Offered g.op := .addTodo
  have registered : w.last? g.op.name = some g := rfl
  have brace : (skipBlanks payload).head? = some openObject := by decide
  have accepted : Todos.addTodo.request.decode
      (Utf8.encode "\x7b\"deadline\":\"é\",\"description\":\"tea\"\x7d\n") =
        .ok (Todos.AddTodoRequest.mk "é" "tea") := by cbv
  change g.op.request.decode payload = _ at accepted
  have hsplit : payload = payload.take 36 ++ closeObject :: [0x0A] := by decide
  have hcut : payload.take 14 <+: payload.take 36 := List.take_prefix_take_left (by decide)
  have hclosed := refused_unless_closed offered registered {} 0 () context brace accepted .empty
  exact ⟨offered, registered, brace, accepted,
    congrArg Todos.Store.rows
      (Service.dispatch_of_request registered {} 0 () context .empty accepted).2,
    hclosed.2.1 _ _ hsplit _ hcut, hclosed.2.2 _ (by decide)⟩

end Switchboard
