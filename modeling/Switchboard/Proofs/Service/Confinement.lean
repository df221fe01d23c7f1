/-
  What of a request can be told from its answer.

  1. **Requests** — two requests are `Alike` to a selector when it cannot tell them apart.  Where
     their bodies are cut does not matter (`readBody_eq`).  If both have a method that is served,
     they make the same call, or are refused alike (`Alike.prepare_cases`).

  2. **Handlers** — a handler is `Confined` to a view of the world when its answer, and the view
     behind it, depend on its request and the view alone: not on its surroundings, not on its
     context, and not on the rest of the world.

  3. **Services** — so a service of confined handlers answers requests that are alike with the same
     response and the same view (`Alike.serve`).  The handlers of `Todos` are confined to the store,
     and that of `Echo` to nothing at all (`metadata_not_told`).
-/
import Switchboard.Proofs.Service.Bodies
import Switchboard.Proofs.Service.Registrations
import Switchboard.Proofs.Todos.Conventions

namespace Switchboard

open Http

variable {c : Contract} {ε σ α : Type}

/-! ## Requests -/

/-- The selector cannot tell the requests apart: their bodies bring the same bytes and end alike,
    and the parameter it looks for, if it looks for one, has the same last value in both queries or
    is in neither. -/
structure Alike (selector : Selector) (r r' : Request) : Prop where
  bytes : bodyBytes r.body = bodyBytes r'.body
  ending : bodyEnd r.body = bodyEnd r'.body
  named : ∀ param, selector = .named param →
    (Form.decode (r.uri.query.getD "")).last? param =
      (Form.decode (r'.uri.query.getD "")).last? param

namespace Alike

variable {r r' : Request}

theorem readBody {selector : Selector} (alike : Alike selector r r') (limit : Nat) :
    Switchboard.readBody limit r.body = Switchboard.readBody limit r'.body := by
  rw [readBody_eq, readBody_eq, alike.bytes, alike.ending]

theorem selectOperation (alike : Alike c.selector r r') (callId callId' : Nat) (payload : Bytes) :
    Switchboard.selectOperation c.selector (.ofRequest callId c.name r) payload =
      Switchboard.selectOperation c.selector (.ofRequest callId' c.name r') payload := by
  have hnamed := alike.named
  cases hselector : c.selector with
  | fixed operation => rfl
  | named param =>
    have hquery : (CallContext.ofRequest callId c.name r).queryParam param =
        (CallContext.ofRequest callId' c.name r').queryParam param := hnamed param hselector
    rw [Switchboard.selectOperation, Switchboard.selectOperation, hquery]

/-- The three ways in which requests can be prepared that are alike. -/
theorem prepare_cases (alike : Alike c.selector r r') (s s' : Service c ε σ)
    (config : s'.config = s.config) (served : ¬(s.config.requirePost ∧ r.method ≠ .post))
    (served' : ¬(s.config.requirePost ∧ r'.method ≠ .post)) (callId callId' : Nat) :
    (∃ e, s.prepare callId r = .error e ∧ s'.prepare callId' r' = .error e) ∨
    (s.prepare callId r = .ok none ∧ s'.prepare callId' r' = .ok none) ∨
    (∃ context context' operation payload,
      s.prepare callId r = .ok (some (context, operation, payload)) ∧
      s'.prepare callId' r' = .ok (some (context', operation, payload))) := by
  have hread := alike.readBody s.config.maxRequestBytes
  simp only [Service.prepare, config, if_neg served, if_neg served', ← hread]
  cases Switchboard.readBody s.config.maxRequestBytes r.body with
  | tooLarge | failed _ => exact .inl ⟨_, rfl, rfl⟩
  | unfinished => exact .inr (.inl ⟨rfl, rfl⟩)
  | complete payload =>
    dsimp only
    rw [← alike.selectOperation callId callId' payload]
    cases Switchboard.selectOperation c.selector (.ofRequest callId c.name r) payload with
    | error e => exact .inl ⟨e, rfl, rfl⟩
    | ok operation => exact .inr (.inr ⟨_, _, operation, payload, rfl, rfl⟩)

end Alike

/-! ## Handlers -/

/-- The answer of the handler, and the view of the world behind it, depend on its request and the
    view alone. -/
def Registration.Confined (view : σ → α) (g : Registration c ε σ) : Prop :=
  ∀ surroundings surroundings' context context' request world world', view world = view world' →
    (g.handler surroundings context request world).result =
        (g.handler surroundings' context' request world').result ∧
      view (g.handler surroundings context request world).state =
        view (g.handler surroundings' context' request world').state

/-- The handlers that the two services come with are confined to the store. -/
theorem Own.confined {store : Part σ Todos.Store}
    (lawful : ∀ s world, store.get (store.set s world) = s)
    {g : Registration c ε σ} (own : Own store g) : g.Confined store.get := by
  intro surroundings surroundings' context context' request world world' hview
  cases own with
  | getTodos => exact ⟨congrArg (fun s => Outcome.done (Todos.Store.toList s)) hview, hview⟩
  | getTodo =>
    have hran := Todos.handleGetTodo_eq store surroundings context request world
    have hran' := Todos.handleGetTodo_eq store surroundings' context' request world'
    rw [hview] at hran
    exact ⟨(congrArg Ran.result hran).trans (congrArg Ran.result hran').symm,
      (congrArg (store.get ∘ Ran.state) hran).trans
        (hview.trans (congrArg (store.get ∘ Ran.state) hran').symm)⟩
  | addTodo =>
    refine ⟨congrArg
      (fun s => Outcome.done (Todos.Store.add s request.deadline request.description).1) hview, ?_⟩
    exact (lawful _ _).trans
      ((congrArg (fun s => (Todos.Store.add s request.deadline request.description).2)
        hview).trans (lawful _ _).symm)
  | deleteTodo =>
    refine ⟨rfl, ?_⟩
    exact (lawful _ _).trans
      ((congrArg (fun s => (Todos.Store.delete s request.id).2) hview).trans (lawful _ _).symm)
  | echo => exact ⟨rfl, hview⟩

/-! ## Services -/

section Services

variable {w w' : Wiring c ε σ} {view : σ → α}
  (confined : ∀ name g, w.last? name = some g → g.Confined view)
  (same : ∀ name, w'.last? name = w.last? name)
  (config : DispatchConfig) (lastCallId lastCallId' : Nat)
  (surroundings surroundings' : ε) {world world' : σ} (hview : view world = view world')

include confined same hview

/-- Services whose last handlers are the same perform a call alike. -/
theorem Service.perform_confined (context context' : CallContext)
    (operation : String) (payload : Bytes) :
    let ran := (w.service config lastCallId).perform surroundings context operation payload world
    let ran' :=
      (w'.service config lastCallId').perform surroundings' context' operation payload world'
    ran.result = ran'.result ∧ view ran.state = view ran'.state := by
  simp only [Wiring.perform_eq_answer, Wiring.answer, same]
  cases hlast : w.last? operation with
  | none => exact ⟨rfl, hview⟩
  | some g =>
    dsimp only
    cases g.op.request.decode payload with
    | error fault => exact ⟨rfl, hview⟩
    | ok request =>
      obtain ⟨hresult, hstate⟩ :=
        confined operation g hlast surroundings surroundings' context context'
        request world world' hview
      exact ⟨congrArg g.op.answer hresult, hstate⟩

/-- So they answer requests alike that are alike. -/
theorem Alike.serve {r r' : Request} (alike : Alike c.selector r r')
    (served : ¬(config.requirePost ∧ r.method ≠ .post))
    (served' : ¬(config.requirePost ∧ r'.method ≠ .post)) :
    let ran := ((w.service config lastCallId).serve surroundings r world).1
    let ran' := ((w'.service config lastCallId').serve surroundings' r' world').1
    ran.result = ran'.result ∧ view ran.state = view ran'.state := by
  intro ran ran'
  let service := w.service config lastCallId
  let service' := w'.service config lastCallId'
  rcases alike.prepare_cases service service' rfl served served' service.nextCallId.1
    service'.nextCallId.1 with
    ⟨e, hp, hp'⟩ | ⟨hp, hp'⟩ | ⟨context, context', operation, payload, hp, hp'⟩
  · have hserve : ran = _ := Service.serve_of_refused hp
    have hserve' : ran' = _ := Service.serve_of_refused hp'
    rw [hserve, hserve']
    exact ⟨rfl, hview⟩
  · have hserve : ran = _ := Service.serve_of_unfinished hp
    have hserve' : ran' = _ := Service.serve_of_unfinished hp'
    rw [hserve, hserve']
    exact ⟨rfl, hview⟩
  · have hserve : ran = _ := Service.serve_of_call hp
    have hserve' : ran' = _ := Service.serve_of_call hp'
    obtain ⟨hresult, hstate⟩ :=
      Service.perform_confined confined same config lastCallId lastCallId' surroundings
      surroundings' hview context context' operation payload
    rw [hserve, hserve']
    simp only [Ran.result_map, Ran.state_map, Service.result_dispatch, Service.state_dispatch]
    exact ⟨congrArg Service.respond hresult, hstate⟩

end Services

/-- Registrations of every operation leave nothing of the ones before. -/
theorem Wiring.last?_append_of_covers {v : Wiring c ε σ}
    (covers : ∀ name ∈ c.operations, (v.last? name).isSome)
    (w : Wiring c ε σ) (name : String) : Wiring.last? (w ++ v) name = v.last? name := by
  rw [Wiring.last?_append]
  cases hlast : w.last? name with
  | none => exact Option.or_none
  | some g =>
    obtain ⟨g', hg'⟩ :=
      Option.isSome_iff_exists.1 (covers name (Wiring.mem_operations_of_last? hlast))
    rw [hg', Option.some_or]

/-- Behind the handlers of `Todos` nothing is left of other ones. -/
theorem Todos.last?_wiring (store : Part σ Store) (w : Wiring contract ε σ) (name : String) :
    Wiring.last? (w ++ wiring store) name = (wiring store).last? name := by
  refine Wiring.last?_append_of_covers (fun declared hdeclared => ?_) w name
  have hnames : declared ∈ (wiring (ε := ε) store).map (·.op.name) := hdeclared
  obtain ⟨g, hg, rfl⟩ := List.mem_map.1 hnames
  have hlast : Wiring.last? ([] ++ wiring store) g.op.name = some g := last?_of_mem_wiring [] hg
  exact Option.isSome_iff_exists.2 ⟨g, hlast⟩

/-- The handler of `Echo` stands behind what was registered before, and nothing is left of it. -/
theorem Echo.register_eq (w : Wiring contract ε σ) (config : DispatchConfig) (lastCallId : Nat) :
    register (w.service config lastCallId) =
      Wiring.service (w ++ [⟨echo, handleEcho⟩]) config lastCallId := by
  rw [Wiring.service, Wiring.service, Wiring.registry_concat]
  rfl

theorem Echo.last?_concat (w : Wiring contract ε σ) (name : String) :
    Wiring.last? (w ++ [⟨echo, handleEcho⟩]) name = Wiring.last? [⟨echo, handleEcho⟩] name := by
  refine Wiring.last?_append_of_covers (fun declared hdeclared => ?_) w name
  obtain rfl := List.mem_singleton.1 hdeclared
  rfl

/-- No request to `Echo` changes the world. -/
theorem Echo.state_serve (w : Wiring contract ε σ) (config : DispatchConfig)
    (lastCallId : Nat) (surroundings : ε) (r : Request) (world : σ) :
    ((register (w.service config lastCallId)).serve surroundings r world).1.state = world := by
  rw [register_eq]
  rcases Service.serve_runs (w ++ [⟨echo, handleEcho⟩]) config lastCallId surroundings r world with
    ⟨hstate, -⟩ | ⟨context, operation, payload, g, request, -, hlast, -, hstate, -⟩
  · exact hstate
  · rw [last?_concat] at hlast
    obtain rfl := List.mem_singleton.1 (Wiring.mem_of_last? hlast)
    exact hstate

/-- **Metadata is not told.**  Take two requests whose methods are both served, and whose bodies
    bring the same bytes and end alike, in whatever pieces.  A service with the four handlers of
    `Todos` answers them with the same response and leaves the same store, if it finds the same
    store and the last `fn` of their queries is the same or in neither; a service with the handler
    of `Echo` answers them with the same response, whatever their queries, and changes nothing.
    Nothing else of the requests shows, nor the call ids, the surroundings, the rest of the world,
    or what was registered before. -/
theorem metadata_not_told {store : Part σ Todos.Store}
    (lawful : ∀ s world, store.get (store.set s world) = s)
    (config : DispatchConfig) {r r' : Request} (served : ¬(config.requirePost ∧ r.method ≠ .post))
    (served' : ¬(config.requirePost ∧ r'.method ≠ .post))
    (bytes : bodyBytes r.body = bodyBytes r'.body)
    (ending : bodyEnd r.body = bodyEnd r'.body) (lastCallId lastCallId' : Nat)
    (surroundings surroundings' : ε) (world world' : σ) :
    ((Form.decode (r.uri.query.getD "")).last? "fn" =
      (Form.decode (r'.uri.query.getD "")).last? "fn" →
      store.get world = store.get world' → ∀ w w' : Wiring Todos.contract ε σ,
        let ran :=
          ((Todos.register store (w.service config lastCallId)).serve surroundings r world).1
        let ran' :=
          ((Todos.register store (w'.service config lastCallId')).serve surroundings' r' world').1
        ran.result = ran'.result ∧ store.get ran.state = store.get ran'.state) ∧
    (∀ w w' : Wiring Echo.contract ε σ,
      let ran := ((Echo.register (w.service config lastCallId)).serve surroundings r world).1
      let ran' := ((Echo.register (w'.service config lastCallId')).serve surroundings' r' world').1
      ran.result = ran'.result ∧ ran.state = world ∧ ran'.state = world') := by
  constructor
  · intro hfn hstore w w' ran ran'
    have alike : Alike Todos.contract.selector r r' := by
      refine ⟨bytes, ending, fun param hparam => ?_⟩
      cases hparam
      exact hfn
    have confined : ∀ name g, Wiring.last? (w ++ Todos.wiring store) name = some g →
        g.Confined store.get :=
      fun name g hlast =>
        (Todos.own_of_mem_wiring (Todos.mem_wiring_of_last? hlast)).confined lawful
    have same : ∀ name, Wiring.last? (w' ++ Todos.wiring store) name =
        Wiring.last? (w ++ Todos.wiring store) name :=
      fun name => (Todos.last?_wiring store w' name).trans (Todos.last?_wiring store w name).symm
    simp only [ran, ran', Todos.register_eq]
    exact alike.serve confined same config lastCallId lastCallId' surroundings
      surroundings' hstore served served'
  · intro w w' ran ran'
    have alike : Alike Echo.contract.selector r r' := ⟨bytes, ending, fun _ h => by cases h⟩
    let view : σ → Unit := fun _ => ()
    have confined : ∀ name g, Wiring.last? (w ++ [⟨Echo.echo, Echo.handleEcho⟩]) name = some g →
        g.Confined view := by
      intro name g hlast
      rw [Echo.last?_concat] at hlast
      obtain rfl := List.mem_singleton.1 (Wiring.mem_of_last? hlast)
      exact fun _ _ _ _ _ _ _ _ => ⟨rfl, rfl⟩
    have same : ∀ name, Wiring.last? (w' ++ [⟨Echo.echo, Echo.handleEcho⟩]) name =
        Wiring.last? (w ++ [⟨Echo.echo, Echo.handleEcho⟩]) name :=
      fun name => (Echo.last?_concat w' name).trans (Echo.last?_concat w name).symm
    refine ⟨?_, Echo.state_serve w config lastCallId surroundings r world,
      Echo.state_serve w' config lastCallId' surroundings' r' world'⟩
    simp only [ran, ran', Echo.register_eq]
    exact (alike.serve confined same config lastCallId lastCallId' surroundings
      surroundings' rfl served served').1

/-- A `GET` and a `PUT` with other paths, parameters and headers, whose bodies are cut elsewhere,
    add the same todo. -/
theorem get_and_put_add_alike :
    let config : DispatchConfig := { requirePost := false }
    let service : Service Todos.contract Unit Todos.Store :=
      Todos.register .whole (Wiring.service [] config 0)
    let r : Request :=
      ⟨.get, { Uri.root with query := some "fn=getTodos&x=1&fn=addTodo" }, .http10, [],
        [.data (Utf8.encode "\x7b\"deadline\":\"soon\",\"description\":\"tea\"\x7d")], false⟩
    let r' : Request :=
      ⟨⟨"PUT"⟩, { Uri.root with path := "/todos", query := some "fn=addTodo" }, .http11,
        [header "x-request-id" "7"], [.data (Utf8.encode "\x7b\"deadline\":"), .data [],
          .data (Utf8.encode "\"soon\",\"description\":\"tea\"\x7d")], true⟩
    (service.serve () r .empty).1.result = (service.serve () r' .empty).1.result ∧
      (service.serve () r .empty).1.state = (service.serve () r' .empty).1.state ∧
      (service.serve () r .empty).1.state.rows = [⟨1, "soon", "tea", .todo⟩] := by
  intro config service r r'
  have hfn : (Form.decode (r.uri.query.getD "")).last? "fn" =
      (Form.decode (r'.uri.query.getD "")).last? "fn" := by
    decide +kernel
  have lawful : ∀ s world : Todos.Store, Part.whole.get (Part.whole.set s world) = s :=
    fun _ _ => rfl
  have served : ¬(config.requirePost ∧ r.method ≠ .post) := fun h => Bool.false_ne_true h.1
  have served' : ¬(config.requirePost ∧ r'.method ≠ .post) := fun h => Bool.false_ne_true h.1
  obtain ⟨htodos, -⟩ :=
    metadata_not_told lawful config served served' (by decide +kernel) (by decide +kernel) 0 0
    () () .empty .empty
  obtain ⟨hresult, hstate⟩ := htodos hfn rfl [] []
  exact ⟨hresult, hstate, by decide +kernel⟩

end Switchboard
