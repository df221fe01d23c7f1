/-
  A request to a host changes the todo store as a whole or not at all.

  1. **Hosts** — `Admitted`: a service at the host either holds the four `Todos` handlers over the
     store, or has no handler that touches it.  `Reachable`: the hosts and worlds that come about by
     mounting such services, answering requests, registering more handlers, changing the state of
     the host, and using the store from inside the process.

  2. **Invariants** — along the way every service stays admitted, and the store stays the one that
     some history of operations leaves behind (`Reachable.admitted`, `Reachable.history`).

  3. **Atomicity** — `todos_answer_atomic`: unless the answer is a 200 of a `Todos` mount, the store
     is what it was; and if it is, the one store operation of the call has been performed, and
     nothing else.
-/
import Switchboard.Proofs.Host.Routing
import Switchboard.Proofs.Http.Form
import Switchboard.Proofs.Todos.Service

namespace Switchboard.Host

open Http Todos

variable {σ : Type}

/-! ## Hosts -/

/-- A service with the four `Todos` handlers over a store, in place of whatever it had before. -/
inductive HoldsTodos (store : Part σ Store) : {c : Contract} → Service c Controller σ → Prop where
  | registered (w : Wiring Todos.contract Controller σ) (config : DispatchConfig)
      (lastCallId : Nat) :
      HoldsTodos store (Todos.register store (w.service config lastCallId))

/-- A service that may stand beside others at a host: it holds the `Todos` handlers over the store,
    or all its handlers leave the store alone. -/
inductive Admitted (store : Part σ Store) : {c : Contract} → Service c Controller σ → Prop where
  | todos {c : Contract} {service : Service c Controller σ} (holds : HoldsTodos store service) :
      Admitted store service
  | apart {c : Contract} (w : Wiring c Controller σ) (config : DispatchConfig) (lastCallId : Nat)
      (keeps : ∀ g ∈ w, g.Keeps store.get) : Admitted store (w.service config lastCallId)

/-- The hosts, with their worlds, that come about from a fresh store. -/
inductive Reachable (store : Part σ Store) : Host σ → σ → Prop where
  | fresh (config : Config) {world : σ} (empty : store.get world = .empty) :
      Reachable store { config := config } world
  /-- A service is mounted. -/
  | mounted {h next : Host σ} {world : σ} {path : String} {c : Contract}
      {service : Service c Controller σ} {trace : Trace} (reachable : Reachable store h world)
      (admitted : Admitted store service) (mounts : h.mount path service = (.mounted next, trace)) :
      Reachable store next world
  /-- A mounted service is given more handlers or takes call ids. -/
  | rewired {h : Host σ} {world : σ} {i : Nat} {m : Mount σ} (reachable : Reachable store h world)
      (at_i : h.mounts[i]? = some m) {service : Service m.contract Controller σ}
      (admitted : Admitted store service) :
      Reachable store { h with mounts := h.mounts.set i { m with service := service } } world
  /-- A request is answered. -/
  | answered {h : Host σ} {world : σ} (generatedId : Bytes) (request : Request)
      (reachable : Reachable store h world) :
      Reachable store (h.answer generatedId request world).2
        (h.answer generatedId request world).1.state
  /-- The host moves between its states, or grows older. -/
  | moved {h : Host σ} {world : σ} (controller : Controller) (bound : Bool) (uptime : Nat)
      (reachable : Reachable store h world) :
      Reachable store { h with controller := controller, bound := bound, uptime := uptime } world
  /-- The store is used from inside the process, and the rest of the world changes in any way. -/
  | used {h : Host σ} {world next : σ} (op : Store.Op) (reachable : Reachable store h world)
      (step : store.get next = ((store.get world).step op).2) : Reachable store h next

/-! ## Serving -/

section Serving

variable {store : Part σ Store} {c : Contract} {service : Service c Controller σ}

/-- Serving a request takes a call id and leaves the handlers as they are. -/
theorem HoldsTodos.serve (holds : HoldsTodos store service) (controller : Controller) (r : Request)
    (world : σ) : HoldsTodos store (service.serve controller r world).2 := by
  obtain ⟨w, config, lastCallId⟩ := holds
  exact .registered w config (lastCallId + 1)

theorem Admitted.serve (admitted : Admitted store service) (controller : Controller) (r : Request)
    (world : σ) : Admitted store (service.serve controller r world).2 := by
  cases admitted with
  | todos holds => exact .todos (holds.serve controller r world)
  | apart w config lastCallId keeps => exact .apart w config (lastCallId + 1) keeps

/-- A service whose handlers leave the store alone leaves it alone. -/
theorem serve_apart {w : Wiring c Controller σ} (keeps : ∀ g ∈ w, g.Keeps store.get)
    (config : DispatchConfig) (lastCallId : Nat) (controller : Controller)
    (r : Request) (world : σ) :
    store.get ((w.service config lastCallId).serve controller r world).1.state =
      store.get world := by
  rcases Service.serve_runs w config lastCallId controller r world with
    ⟨hstate, -⟩ | ⟨context, operation, payload, g, request, -, hlast, -, hstate, -⟩
  · rw [hstate]
  · rw [hstate]
    exact keeps g (Wiring.mem_of_last? hlast) _ _ _ _

end Serving

/-! ## One request -/

section Answering

variable {store : Part σ Store} (lawful : ∀ s world, store.get (store.set s world) = s)
  {h : Host σ} (generatedId : Bytes) (request : Request) (world : σ)

include lawful

/-- Unless a `Todos` mount answers with 200, the store is what it was. -/
theorem answer_keeps_store (admitted : ∀ m ∈ h.mounts, Admitted store m.service)
    (hmiss : ¬((h.answer generatedId request world).1.result.status = 200 ∧
      ∃ i m, h.reached? request = some (i, m) ∧ HoldsTodos store m.service)) :
    store.get (h.answer generatedId request world).1.state = store.get world := by
  cases hr : h.reached? request with
  | none => rw [(h.answer_of_unreached generatedId request world hr).1]
  | some reached =>
    obtain ⟨i, m⟩ := reached
    obtain ⟨hstate, hstatus, -⟩ := h.answer_of_reached generatedId request world hr
    rw [hstate]
    have hm : m ∈ h.mounts := List.mem_of_getElem? (reached?_eq_some.1 hr).2.2.2.2
    -- A request that is served there is served by handlers that leave the store alone, or it fails.
    obtain ⟨path, pattern, c, service⟩ := m
    have hservice : Admitted store service := admitted _ hm
    cases hservice with
    | apart w config lastCallId keeps => exact serve_apart keeps config lastCallId _ _ _
    | todos holds =>
      have hfails :
          (h.served ⟨path, pattern, c, service⟩ generatedId request world).1.result.status ≠ 200 :=
        fun hok => hmiss ⟨hstatus.trans hok, i, _, hr, holds⟩
      obtain ⟨w, config, lastCallId⟩ := holds
      rcases serve_todos lawful w config lastCallId h.controller.acquire
        (forwarded generatedId request) world with ⟨-, hkept⟩ | ⟨hok, -⟩
      · exact hkept
      · exact absurd hok hfails

/-- When a `Todos` mount answers with 200, the store operation of the call has been performed. -/
theorem answer_changes_store {i : Nat} {m : Mount σ} (hr : h.reached? request = some (i, m))
    (holds : HoldsTodos store m.service)
    (hok : (h.answer generatedId request world).1.result.status = 200) :
    ∃ context operation payload op,
      m.service.prepare (m.service.lastCallId + 1) (forwarded generatedId request) =
        .ok (some (context, operation, payload)) ∧
      storeOp? operation payload = some op ∧
      store.get (h.answer generatedId request world).1.state = ((store.get world).step op).2 := by
  obtain ⟨hstate, hstatus, -⟩ := h.answer_of_reached generatedId request world hr
  rw [hstatus] at hok
  rw [hstate]
  obtain ⟨path, pattern, c, service⟩ := m
  have hservice : HoldsTodos store service := holds
  obtain ⟨w, config, lastCallId⟩ := hservice
  rcases serve_todos lawful w config lastCallId h.controller.acquire
    (forwarded generatedId request) world with ⟨hfails, -⟩ | ⟨-, hchanged⟩
  · exact absurd hok hfails
  · exact hchanged

end Answering

/-! ## Invariants -/

section Invariants

variable {store : Part σ Store} {h : Host σ} {world : σ}

theorem Reachable.admitted (reachable : Reachable store h world) :
    ∀ m ∈ h.mounts, Admitted store m.service := by
  induction reachable with
  | fresh config empty => exact nofun
  | mounted reachable admitted mounts ih =>
    obtain ⟨pattern, -, -, -, rfl⟩ := mount_eq_mounted mounts
    intro m hm
    rcases List.mem_append.1 hm with hm | hm
    · exact ih m hm
    · obtain rfl := List.mem_singleton.1 hm
      exact admitted
  | rewired reachable at_i admitted ih =>
    intro m hm
    rcases List.mem_or_eq_of_mem_set hm with hm | rfl
    · exact ih m hm
    · exact admitted
  | answered generatedId request reachable ih =>
    exact answer_keeps _ generatedId request _
      (fun controller r world h => h.serve controller r world) ih
  | moved controller bound uptime reachable ih => exact ih
  | used op reachable step ih => exact ih

/-- The store is always the one that some history leaves behind. -/
theorem Reachable.history (lawful : ∀ s world, store.get (store.set s world) = s)
    (reachable : Reachable store h world) : ∃ past, store.get world = Store.after past := by
  induction reachable with
  | fresh config empty => exact ⟨[], empty⟩
  | mounted reachable admitted mounts ih => exact ih
  | rewired reachable at_i admitted ih => exact ih
  | moved controller bound uptime reachable ih => exact ih
  | used op reachable step ih =>
    obtain ⟨past, hpast⟩ := ih
    exact ⟨past ++ [op], by rw [step, hpast, Store.after_concat]⟩
  | @answered h world generatedId request reachable ih =>
    -- The request adds one operation to the history, or none.
    obtain ⟨past, hpast⟩ := ih
    by_cases hhit : (h.answer generatedId request world).1.result.status = 200 ∧
      ∃ i m, h.reached? request = some (i, m) ∧ HoldsTodos store m.service
    · obtain ⟨hok, i, m, hr, holds⟩ := hhit
      obtain ⟨_, _, _, op, -, -, hstep⟩ :=
        answer_changes_store lawful generatedId request world hr holds hok
      exact ⟨past ++ [op], by rw [hstep, hpast, Store.after_concat]⟩
    · exact ⟨past, by
        rw [answer_keeps_store lawful generatedId request world reachable.admitted hhit, hpast]⟩

end Invariants

/-! ## Atomicity -/

/-- **Atomicity.**  At every reachable host, and for every request: unless the answer is a 200 of a
    `Todos` mount, the store is what it was.  If it is, exactly the store operation of the selected
    operation has been performed: an addition puts one new row under the next id, a deletion leaves
    out at most the row of the id it is given, and the other two change nothing
    (`Store.Changes`). -/
theorem todos_answer_atomic {store : Part σ Store}
    (lawful : ∀ s world, store.get (store.set s world) = s) {h : Host σ} {world : σ}
    (reachable : Reachable store h world) (generatedId : Bytes) (request : Request) :
    let ran := (h.answer generatedId request world).1
    (¬(ran.result.status = 200 ∧
        ∃ i m, h.reached? request = some (i, m) ∧ HoldsTodos store m.service) →
      store.get ran.state = store.get world) ∧
    (∀ i m,
      ran.result.status = 200 → h.reached? request = some (i, m) → HoldsTodos store m.service →
      ∃ context operation payload op past,
        m.service.prepare (m.service.lastCallId + 1) (forwarded generatedId request) =
          .ok (some (context, operation, payload)) ∧
        storeOp? operation payload = some op ∧ store.get world = Store.after past ∧
        store.get ran.state = ((store.get world).step op).2 ∧
        Store.Changes past (store.get ran.state) op) := by
  intro ran
  refine ⟨answer_keeps_store lawful generatedId request world reachable.admitted, ?_⟩
  intro i m hok hr holds
  obtain ⟨past, hpast⟩ := reachable.history lawful
  obtain ⟨context, operation, payload, op, hprepare, hop, hstep⟩ :=
    answer_changes_store lawful generatedId request world hr holds hok
  refine ⟨context, operation, payload, op, past, hprepare, hop, hpast, hstep, ?_⟩
  rw [hstep, hpast]
  exact Store.changes_step past op

theorem decode_addTodo : Form.decode "fn=addTodo" = [("fn", "addTodo")] := by
  have hpair : Form.encodePair "fn" "addTodo" = "fn=addTodo" := by decide
  rw [← hpair, Form.decode_encodePair]

/-- The first addition to an empty store is answered with 200, and its row is the only one. -/
theorem answered_addition_stores_row :
    let store : Part Store Store := .whole
    ∃ payload : Bytes,
      let service : Service Todos.contract Controller Store :=
        Todos.register store (Wiring.service [] { maxRequestBytes := payload.length } 0)
      let h : Host Store :=
        { mounts := [⟨"/todos", Pattern.ofText "/todos", Todos.contract, service⟩] }
      let request : Request :=
        ⟨.post, ⟨none, none, "/todos", some "fn=addTodo"⟩, .http11, [], [.data payload], false⟩
      (∀ s world, store.get (store.set s world) = s) ∧ Reachable store h .empty ∧
        (h.answer [] request .empty).1.result.status = 200 ∧
        (h.answer [] request .empty).1.state.rows = [⟨1, "soon", "tea", .todo⟩] := by
  intro store
  obtain ⟨payload, -, hdecode⟩ :=
    Offered.addTodo.faithful.request.decode_encode (⟨"soon", "tea"⟩ : AddTodoRequest)
  refine ⟨payload, ?_⟩
  intro service h request
  have lawful : ∀ s world, store.get (store.set s world) = s := fun _ _ => rfl
  have reachable : Reachable store h .empty := by
    have hparse : Pattern.parse "/todos" = some (Pattern.ofText "/todos") := by
      simp [Pattern.parse, Pattern.ofText, Pattern.hasOldStyle, Pattern.unescape, Pattern.tokens]
    have hmount (service : Service Todos.contract Controller Store) :
        ({} : Host Store).mount "/todos" service =
          (.mounted { mounts := [⟨"/todos", Pattern.ofText "/todos", Todos.contract, service⟩] },
            .event (mountedEvent Todos.contract "/todos")) := by
      rw [mount, hparse]
      rfl
    exact .mounted (.fresh {} rfl) (.todos (.registered [] _ 0)) (hmount service)
  have hreached : h.reached? request =
      some (0, ⟨"/todos", Pattern.ofText "/todos", Todos.contract, service⟩) := by
    have htarget (service : Service Todos.contract Controller Store) :
        Host.target? { mounts := [⟨"/todos", Pattern.ofText "/todos", Todos.contract, service⟩] }
          "/todos" = some (.mount 0) := by rfl
    exact reached?_eq_some.2
      ⟨show Method.post ≠ Method.options by decide, show 30000 ≠ 0 by decide, rfl,
        htarget service, rfl⟩
  have hprepare : service.prepare 1 (forwarded [] request) =
      .ok (some (.ofRequest 1 Todos.contract.name (forwarded [] request), "addTodo", payload)) := by
    have hbody : readBody payload.length [.data payload] = .complete payload := by
      rw [readBody, if_neg (Nat.lt_irrefl _)]
      show BodyResult.complete (payload ++ []) = _
      rw [List.append_nil]
    have hquery :
      (CallContext.ofRequest 1 Todos.contract.name (forwarded [] request)).queryParam "fn" =
        some "addTodo" := by
      show (Form.decode "fn=addTodo").last? "fn" = _
      rw [decode_addTodo]
      rfl
    have hselected : selectOperation Todos.contract.selector
        (.ofRequest 1 Todos.contract.name (forwarded [] request)) payload = .ok "addTodo" :=
      Service.selectOperation_of_query hquery payload
    rw [Service.prepare_complete (fun hm => hm.2 rfl) hbody, hselected]
    rfl
  have hstatus : (h.answer [] request .empty).1.result.status = 200 := by
    have hadd : ⟨addTodo, handleAddTodo store⟩ ∈ wiring (ε := Controller) store :=
      mem_wiring.2 (.inr (.inr (.inl rfl)))
    have hserved := serve_todos_of_call hadd hprepare hdecode h.controller.acquire .empty
    rw [(h.answer_of_reached [] request .empty hreached).2.1]
    show (service.serve h.controller.acquire (forwarded [] request) .empty).1.result.status = 200
    rw [hserved]
    exact Service.respond_status Offered.addTodo.faithful.response _
  obtain ⟨-, hchanges⟩ := todos_answer_atomic lawful reachable [] request
  obtain ⟨context, operation, payload', op, past, hcall, hop, -, hstep, -⟩ :=
    hchanges _ _ hstatus hreached (.registered [] _ 0)
  cases hprepare.symm.trans hcall
  have hadd : storeOp? "addTodo" payload = some (.add "soon" "tea") := by
    replace hdecode : AddTodoRequest.record.codec.decode payload = .ok ⟨"soon", "tea"⟩ := hdecode
    show Option.map _ (Except.toOption _) = _
    rw [hdecode]
    rfl
  cases hadd.symm.trans hop
  have hstate : (h.answer [] request .empty).1.state = _ := hstep
  refine ⟨lawful, reachable, hstatus, ?_⟩
  rw [hstate]
  rfl

end Switchboard.Host
