/-
  Calls to a `Todos` service in any order.

  1. **Runs of a store** — `Store.run`: operations one after the other, from any store.  As long as
     only ids are deleted that have been given before, the rows behind a run have a closed form
     (`Store.rows_run`): the rows that no operation deletes, and behind them one row for each
     addition, under the next ids (`numbered`).

  2. **Renaming** — additions in another order get the same ids, each a different one perhaps
     (`exists_renaming`): a permutation of the new ids leads from the rows of one order to those of
     the other.

  3. **Calls** — `Asks`: a call over HTTP, with a payload, or with a typed request asks for an
     operation of the store.  A service with the four handlers performs it, and tells an addition
     its todo (`use_asked`).

  4. **Orders** — so every order of the same calls hands out the same ids, keeps the same rows, and
     stores the same new ones but for their ids (`orders_agree`).
-/
import Switchboard.Proofs.Service.CallIds
import Switchboard.Proofs.Todos.Conventions

namespace Switchboard.Todos

variable {ε σ : Type}

/-! ## Runs of a store -/

/-- What a todo is besides its id. -/
def Todo.content (t : Todo) : String × String × Status := (t.deadline, t.description, t.status)

/-- The same todo under another id. -/
def Todo.renamed (rename : Int64 → Int64) (t : Todo) : Todo := { t with id := rename t.id }

/-- The todos of additions with these texts, under the ids behind the last one given. -/
def numbered (last : Int64) : List (String × String) → List Todo
  | [] => []
  | (deadline, description) :: texts =>
    ⟨last + 1, deadline, description, .todo⟩ :: numbered (last + 1) texts

namespace Store

/-- The texts of an addition. -/
def Op.added? : Op → Option (String × String)
  | .add deadline description => some (deadline, description)
  | _ => none

/-- The texts of the additions among operations. -/
def additions (ops : List Op) : List (String × String) := ops.filterMap Op.added?

/-- The store behind operations that are performed one after the other. -/
def run (s : Store) (ops : List Op) : Store := ops.foldl (fun s op => (s.step op).2) s

/-- No row has an id that has not been given. -/
def Bounded (s : Store) : Prop := ∀ t ∈ s.rows, t.id ≤ s.lastId

theorem length_additions (ops : List Op) : (additions ops).length = adds ops := by
  induction ops with
  | nil => rfl
  | cons op ops ih =>
    rw [adds, List.countP_cons, ← adds, ← ih]
    cases op <;> rfl

end Store

section Numbered

/-- The next id, while there is one. -/
theorem toInt_next {last : Int64} (few : last.toInt + 1 < 2 ^ 63) :
    (last + 1).toInt = last.toInt + 1 := by
  have hone : (1 : Int64).toInt = 1 := rfl
  have hlow : -2 ^ 63 ≤ last.toInt := last.minValue_le_toInt
  rw [Int64.toInt_add, hone, Int.bmod_eq_of_le] <;> omega

theorem content_numbered (last : Int64) (texts : List (String × String)) :
    (numbered last texts).map Todo.content = texts.map fun (deadline, description) =>
      (deadline, description, .todo) := by
  induction texts generalizing last with
  | nil => rfl
  | cons x texts ih => rw [numbered, List.map_cons, List.map_cons, ih]; rfl

variable {last : Int64} {texts : List (String × String)} (few : last.toInt + texts.length < 2 ^ 63)

include few

/-- The ids are the next ones, one after the other. -/
theorem ids_numbered : (numbered last texts).map (·.id.toInt) =
    (List.range texts.length).map fun k : Nat => last.toInt + 1 + k := by
  induction texts generalizing last with
  | nil => rfl
  | cons x texts ih =>
    rw [List.length_cons] at few
    have hnext : (last + 1).toInt = last.toInt + 1 := toInt_next (by omega)
    have hfew : (last + 1).toInt + texts.length < 2 ^ 63 := by omega
    rw [numbered, List.map_cons, ih hfew, List.length_cons, List.range_succ_eq_map,
      List.map_cons, List.map_map, hnext]
    refine congrArg₂ List.cons (by simp) (List.map_congr_left fun k _ => ?_)
    show last.toInt + 1 + 1 + (k : Int) = last.toInt + 1 + ((k + 1 : Nat) : Int)
    omega

/-- They are all new. -/
theorem lt_of_mem_numbered {t : Todo} (ht : t ∈ numbered last texts) : last < t.id := by
  have hid : t.id.toInt ∈ (numbered last texts).map (·.id.toInt) := List.mem_map_of_mem ht
  rw [ids_numbered few] at hid
  obtain ⟨k, -, hk⟩ := List.mem_map.1 hid
  rw [Int64.lt_iff_toInt_lt]
  omega

end Numbered

namespace Store

/-- An addition puts its row behind all others. -/
theorem rows_add {s : Store} (bounded : s.Bounded) (few : s.lastId.toInt + 1 < 2 ^ 63)
    (deadline description : String) :
    (s.add deadline description).2.rows = s.rows ++
      [⟨s.lastId + 1, deadline, description, .todo⟩] := by
  refine insertRow_last fun t ht => ?_
  have hid := Int64.le_iff_toInt_le.1 (bounded t ht)
  show t.id.toInt < (s.lastId + 1).toInt
  rw [toInt_next few]
  omega

theorem Bounded.after_add {s : Store} (bounded : s.Bounded) (few : s.lastId.toInt + 1 < 2 ^ 63)
    (deadline description : String) : (s.add deadline description).2.Bounded := by
  intro t ht
  show t.id ≤ s.lastId + 1
  rw [rows_add bounded few] at ht
  rcases List.mem_append.1 ht with ht | ht
  · have hid := Int64.le_iff_toInt_le.1 (bounded t ht)
    rw [Int64.le_iff_toInt_le, toInt_next few]
    omega
  · obtain rfl := List.mem_singleton.1 ht
    exact Int64.le_refl _

section After

variable {past : List Op} (few : adds past < 2 ^ 63)

include few

/-- The last id behind a history is the number of its additions. -/
theorem toInt_lastId_after : (after past).lastId.toInt = adds past :=
  (Represents.after past few).last

theorem toInt_le_of_mem_after {t : Todo} (ht : t ∈ (after past).rows) : t.id.toInt ≤ adds past :=
  (((Represents.after past few).present t).1 ht).bounds.2.2

end After

/-- Each addition of a run gives the next id. -/
theorem toInt_lastId_run {s : Store} {ops : List Op}
    (few : s.lastId.toInt + (additions ops).length < 2 ^ 63) :
    (s.run ops).lastId.toInt = s.lastId.toInt + (additions ops).length := by
  induction ops generalizing s with
  | nil => simp [run, additions]
  | cons op ops ih =>
    show ((s.step op).2.run ops).lastId.toInt = _
    cases op with
    | get | list | len | isEmpty | delete => exact ih few
    | add deadline description =>
      have hlength : (additions (.add deadline description :: ops)).length =
          (additions ops).length + 1 := rfl
      have hnext : (s.lastId + 1).toInt = s.lastId.toInt + 1 := toInt_next (by omega)
      have hfew : (s.add deadline description).2.lastId.toInt +
          (additions ops).length < 2 ^ 63 := by
        show (s.lastId + 1).toInt + _ < _
        omega
      show ((s.add deadline description).2.run ops).lastId.toInt = _
      rw [ih hfew]
      show (s.lastId + 1).toInt + _ = _
      omega

/-- The rows behind a run: those that no operation deletes, and one for each addition. -/
theorem rows_run {s : Store} (bounded : s.Bounded) {ops : List Op}
    (few : s.lastId.toInt + (additions ops).length < 2 ^ 63)
    (old : ∀ id, .delete id ∈ ops → id ≤ s.lastId) :
    (s.run ops).rows =
      s.rows.filter (fun t => .delete t.id ∉ ops) ++ numbered s.lastId (additions ops) := by
  induction ops generalizing s with
  | nil => simp [run, additions, numbered]
  | cons op ops ih =>
    have hlater : ∀ id, .delete id ∈ ops → id ≤ s.lastId :=
      fun id hid => old id (List.mem_cons_of_mem _ hid)
    show ((s.step op).2.run ops).rows = _
    cases op with
    | get | list | len | isEmpty =>
      show (s.run ops).rows = _
      rw [ih bounded few hlater]
      show _ = _ ++ numbered s.lastId (additions ops)
      congr 1
      exact List.filter_congr fun t _ => by simp
    | delete id =>
      have hbounded : (s.delete id).2.Bounded := fun t ht => bounded t (List.mem_filter.1 ht).1
      show ((s.delete id).2.run ops).rows = _
      rw [ih hbounded few hlater]
      show ((s.rows.filter (·.id ≠ id)).filter _) ++ _ = _
      rw [List.filter_filter]
      congr 1
      refine List.filter_congr fun t _ => ?_
      simp [Bool.and_comm]
    | add deadline description =>
      have hlength : (additions (.add deadline description :: ops)).length =
          (additions ops).length + 1 := rfl
      have hone : s.lastId.toInt + 1 < 2 ^ 63 := by omega
      have hnext : (s.lastId + 1).toInt = s.lastId.toInt + 1 := toInt_next hone
      have hgiven : ∀ id, .delete id ∈ ops → id ≤ s.lastId + 1 := by
        intro id hid
        have hbefore := Int64.le_iff_toInt_le.1 (hlater id hid)
        rw [Int64.le_iff_toInt_le]
        omega
      -- The new id is not among those that are deleted.
      have hnew : Op.delete (s.lastId + 1) ∉ ops := by
        intro hmem
        have hbefore := Int64.le_iff_toInt_le.1 (hlater _ hmem)
        omega
      have hrest : (s.lastId + 1).toInt + (additions ops).length < 2 ^ 63 := by omega
      have hbounded := bounded.after_add hone deadline description
      show ((s.add deadline description).2.run ops).rows = _
      rw [ih hbounded hrest hgiven]
      show ((s.add deadline description).2.rows.filter _) ++ numbered (s.lastId + 1) _ = _
      rw [rows_add bounded hone, List.filter_append, List.filter_singleton, List.append_assoc]
      have hkeep : decide (.delete (s.lastId + 1) ∉ ops) = true := decide_eq_true hnew
      simp only [hkeep]
      congr 1
      exact List.filter_congr fun t _ => by simp

end Store

/-! ## Renaming -/

/-- Todos whose ids are left alone are left alone. -/
theorem map_renamed_of_fixed {rename : Int64 → Int64} {todos : List Todo}
    (fixed : ∀ t ∈ todos, rename t.id = t.id) : todos.map (Todo.renamed rename) = todos := by
  have hsame : ∀ t ∈ todos, t.renamed rename = id t := by
    intro t ht
    show ({ t with id := rename t.id } : Todo) = t
    rw [fixed t ht]
  rw [List.map_congr_left hsame, List.map_id]

/-- The todos of additions in another order are the same but for their new ids. -/
theorem exists_renaming {texts texts' : List (String × String)}
    (perm : texts.Perm texts') (last : Int64) (few : last.toInt + texts.length < 2 ^ 63) :
    ∃ rename : Equiv.Perm Int64, (∀ id ≤ last, rename id = id) ∧
      ((numbered last texts).map (Todo.renamed rename)).Perm (numbered last texts') := by
  -- The id in front of the texts grows with the induction.
  induction perm generalizing last with
  | nil => exact ⟨.refl _, fun _ _ => rfl, .refl _⟩
  | cons x perm ih =>
    rw [List.length_cons] at few
    have hnext : (last + 1).toInt = last.toInt + 1 := toInt_next (by omega)
    obtain ⟨rename, hold, hrest⟩ := ih (last + 1) (by omega)
    refine ⟨rename, fun id hid => hold id ?_, ?_⟩
    · rw [Int64.le_iff_toInt_le] at hid ⊢
      omega
    · have hfirst : rename (last + 1) = last + 1 := hold _ (Int64.le_refl _)
      rw [numbered, List.map_cons, numbered, Todo.renamed]
      dsimp only
      rw [hfirst]
      exact hrest.cons _
  | swap x y texts =>
    rw [List.length_cons, List.length_cons] at few
    have hfirst : (last + 1).toInt = last.toInt + 1 := toInt_next (by omega)
    have hsecond : (last + 1 + 1).toInt = last.toInt + 1 + 1 := by
      rw [toInt_next (by omega), hfirst]
    have hother {id : Int64} (h : id ≤ last ∨ last + 1 + 1 < id) :
        Equiv.swap (last + 1) (last + 1 + 1) id = id := by
      rw [Int64.le_iff_toInt_le, Int64.lt_iff_toInt_lt] at h
      refine Equiv.swap_apply_of_ne_of_ne ?_ ?_
      · rintro rfl
        omega
      · rintro rfl
        omega
    refine ⟨Equiv.swap (last + 1) (last + 1 + 1), fun id hid => hother (.inl hid), ?_⟩
    have hrest : (numbered (last + 1 + 1) texts).map
        (Todo.renamed (Equiv.swap (last + 1) (last + 1 + 1))) = numbered (last + 1 + 1) texts :=
      map_renamed_of_fixed fun t ht => hother (.inr (lt_of_mem_numbered (by omega) ht))
    simp only [numbered, List.map_cons, hrest, Todo.renamed, Equiv.swap_apply_left,
      Equiv.swap_apply_right]
    exact .swap _ _ _
  | trans first second ih ih' =>
    obtain ⟨rename, hold, hfirst⟩ := ih last few
    obtain ⟨rename', hold', hsecond⟩ := ih' last (first.length_eq ▸ few)
    refine ⟨rename.trans rename', fun id hid => ?_, ?_⟩
    · rw [Equiv.trans_apply, hold id hid, hold' id hid]
    · show ((numbered _ _).map (Todo.renamed rename' ∘ Todo.renamed rename)).Perm _
      rw [← List.map_map]
      exact (hfirst.map _).trans hsecond

/-! ## Calls -/

/-- A call to a `Todos` service asks for an operation of the store: over HTTP, with a payload, or
    with a typed request. -/
inductive Asks (config : DispatchConfig) : Use contract ε σ → Store.Op → Prop where
  | request {surroundings : ε} {r : Http.Request} {callId : Nat} {context : CallContext}
      {operation : String} {payload : Bytes} {op : Store.Op}
      (prepared : ({ config } : Service contract ε σ).prepare callId r =
        .ok (some (context, operation, payload)))
      (asked : storeOp? operation payload = some op) : Asks config (.serve surroundings r) op
  | payload {surroundings : ε} {context : CallContext} {operation : String}
      {payload : Bytes} {op : Store.Op}
      (asked : storeOp? operation payload = some op) :
      Asks config (.dispatch surroundings context operation payload) op
  | getTodos {surroundings : ε} {context : CallContext} :
      Asks config (.call surroundings context getTodos {}) .list
  | getTodo {surroundings : ε} {context : CallContext} {id : Int64} :
      Asks config (.call surroundings context getTodo ⟨id⟩) (.get id)
  | addTodo {surroundings : ε} {context : CallContext} {deadline description : String} :
      Asks config (.call surroundings context addTodo ⟨deadline, description⟩)
        (.add deadline description)
  | deleteTodo {surroundings : ε} {context : CallContext} {id : Int64} :
      Asks config (.call surroundings context deleteTodo ⟨id⟩) (.delete id)

/-- A `POST` of a document whose query names its operation is such a call. -/
theorem Asks.of_posted {config : DispatchConfig} {named : Operation contract}
    {payload : Bytes} {r : Http.Request}
    (posted : Posted named payload r) (fits : payload.length ≤ config.maxRequestBytes)
    {op : Store.Op} (asked : storeOp? named.name payload = some op) (surroundings : ε) :
    Asks config (.serve surroundings r : Use contract ε σ) op := by
  obtain ⟨hmethod, ⟨pieces, hbody, rfl⟩, hnamed⟩ := posted
  let service : Service contract ε σ := { config }
  have hread : readBody service.config.maxRequestBytes r.body = .complete pieces.flatten := by
    rw [hbody]
    exact readBody_pieces fits
  have hprepare : service.prepare 0 r =
      .ok (some (.ofRequest 0 contract.name r, named.name, pieces.flatten)) := by
    have hquery : (CallContext.ofRequest 0 contract.name r).queryParam "fn" = some named.name :=
      hnamed "fn" rfl
    have hselect : selectOperation contract.selector (.ofRequest 0 contract.name r) pieces.flatten =
        .ok named.name := Service.selectOperation_of_query hquery _
    rw [Service.prepare_complete (fun h => h.2 hmethod) hread, hselect]
    rfl
  exact .request hprepare asked

/-- What is shown to the caller of an addition is the todo. -/
inductive Tells (t : Todo) : Seen contract → Prop where
  | served {bytes : Bytes} (written : Todo.record.codec.encode t = .ok bytes) :
      Tells t (.served (.answered (Service.documentResponse 200 bytes)))
  | dispatched {bytes : Bytes} (written : Todo.record.codec.encode t = .ok bytes) :
      Tells t (.dispatched (.done bytes))
  | called : Tells t (.called addTodo (.done t))

section Calls

variable {store : Part σ Store} (w : Wiring contract ε σ)
  (config : DispatchConfig) (lastCallId : Nat)

theorem state_handleGetTodo (store : Part σ Store) (surroundings : ε) (context : CallContext)
    (request : GetTodoRequest) (world : σ) :
    (handleGetTodo store surroundings context request world).state = world := by
  rw [handleGetTodo_eq, Ran.state_of]

/-- A payload that is a request of one of the four runs its handler. -/
theorem perform_wired {g : Registration contract ε σ} (hg : g ∈ wiring store) {payload : Bytes}
    {request : g.op.Request} (hrequest : g.op.request.decode payload = .ok request)
    (surroundings : ε) (context : CallContext) (world : σ) :
    (register store (w.service config lastCallId)).perform surroundings context
      g.op.name payload world =
      (g.handler surroundings context request world).map g.op.answer := by
  rw [register_eq, Service.perform_registered _ _ _ _ _ _ _ (last?_of_mem_wiring w hg),
    Registration.slot, Operation.slot, hrequest]

/-- The calls that ask for an operation, one for each handler. -/
theorem storeOp?_cases {operation : String} {payload : Bytes} {op : Store.Op}
    (asked : storeOp? operation payload = some op) :
    (operation = getTodos.name ∧ op = .list) ∨
    (operation = getTodo.name ∧ ∃ request,
      getTodo.request.decode payload = .ok request ∧ op = .get request.id) ∨
    (operation = addTodo.name ∧ ∃ request, addTodo.request.decode payload = .ok request ∧
      op = .add request.deadline request.description) ∨
    (operation = deleteTodo.name ∧ ∃ request, deleteTodo.request.decode payload = .ok request ∧
      op = .delete request.id) := by
  have hread {α : Type} {read : Except Json.Fault α} {f : α → Store.Op}
    (h : read.toOption.map f = some op) :
      ∃ request, read = .ok request ∧ op = f request := by
    cases read with
    | error fault => cases h
    | ok request => exact ⟨request, rfl, (Option.some.inj h).symm⟩
  unfold storeOp? at asked
  split at asked
  next h => exact .inl ⟨h, (Option.some.inj asked).symm⟩
  split at asked
  next h => exact .inr (.inl ⟨h, hread asked⟩)
  split at asked
  next h => exact .inr (.inr (.inl ⟨h, hread asked⟩))
  split at asked
  next h => exact .inr (.inr (.inr ⟨h, hread asked⟩))
  next => cases asked

/-- A typed call of one of the four is a run of its handler. -/
theorem call_wired {g : Registration contract ε σ} (hg : g ∈ wiring store) (surroundings : ε)
    (context : CallContext) (request : g.op.Request) (world : σ) :
    let ran :=
      (register store (w.service config lastCallId)).call surroundings context g.op request world
    let handled := g.handler surroundings context request world
    ran.state = handled.state ∧ ran.result = handled.result.atCaller := by
  intro ran handled
  have offered : Offered g.op := (own_of_mem_wiring hg).offered
  have registered := last?_of_mem_wiring w hg
  simp only [ran, register_eq]
  exact ⟨state_call_of_faithful offered.faithful registered config lastCallId surroundings
      context request world,
    result_call_of_faithful offered.faithful registered config lastCallId surroundings
      context request world⟩

variable (lawful : ∀ s world, store.get (store.set s world) = s)

include lawful

/-- A call performs the operation that it asks for, and an addition answers with its todo. -/
theorem perform_asked {operation : String} {payload : Bytes} {op : Store.Op}
    (asked : storeOp? operation payload = some op) (surroundings : ε)
    (context : CallContext) (world : σ) :
    let ran :=
      (register store (w.service config lastCallId)).perform surroundings context operation
        payload world
    store.get ran.state = ((store.get world).step op).2 ∧
      ∀ deadline description, op = .add deadline description → ∃ bytes,
        Todo.record.codec.encode ((store.get world).add deadline description).1 = .ok bytes ∧
          ran.result = .done bytes := by
  intro ran
  rcases storeOp?_cases asked
    with ⟨rfl, rfl⟩ | ⟨rfl, request, hrequest, rfl⟩ | ⟨rfl, request, hrequest, rfl⟩ |
    ⟨rfl, request, hrequest, rfl⟩
  · have hg : (⟨getTodos, handleGetTodos store⟩ : Registration contract ε σ) ∈ wiring store :=
      mem_wiring.2 (.inl rfl)
    refine ⟨?_, fun _ _ h => by cases h⟩
    -- With or without a request, the store is only looked at.
    simp only [ran, register_eq,
      Service.perform_registered _ _ _ _ _ _ _ (last?_of_mem_wiring w hg),
      Registration.slot, Operation.slot]
    cases getTodos.request.decode payload <;> rfl
  · have hg : (⟨getTodo, handleGetTodo store⟩ : Registration contract ε σ) ∈ wiring store :=
      mem_wiring.2 (.inr (.inl rfl))
    have hran : ran = _ := perform_wired w config lastCallId hg hrequest surroundings context world
    refine ⟨?_, fun _ _ h => by cases h⟩
    rw [hran]
    exact congrArg store.get (state_handleGetTodo store surroundings context request world)
  · have hg : (⟨addTodo, handleAddTodo store⟩ : Registration contract ε σ) ∈ wiring store :=
      mem_wiring.2 (.inr (.inr (.inl rfl)))
    have hran : ran = _ := perform_wired w config lastCallId hg hrequest surroundings context world
    obtain ⟨bytes, hencode, -⟩ := faithful_todo.decode_encode
      ((store.get world).add request.deadline request.description).1
    rw [hran]
    refine ⟨lawful _ _, ?_⟩
    rintro deadline description ⟨⟩
    refine ⟨bytes, hencode, ?_⟩
    have hanswer : addTodo.response.encode
        ((store.get world).add request.deadline request.description).1 = .ok bytes :=
      hencode
    show addTodo.answer (.done ((store.get world).add request.deadline request.description).1) = _
    simp only [Operation.answer, hanswer]
  · have hg : (⟨deleteTodo, handleDeleteTodo store⟩ : Registration contract ε σ) ∈ wiring store :=
      mem_wiring.2 (.inr (.inr (.inr rfl)))
    have hran : ran = _ := perform_wired w config lastCallId hg hrequest surroundings context world
    rw [hran]
    exact ⟨lawful _ _, fun _ _ h => by cases h⟩

/-- A use that asks for an operation performs it, tells an addition its todo, and leaves the service
    as it was but for its call ids. -/
theorem use_asked {u : Use contract ε σ} {op : Store.Op} (asks : Asks config u op) (world : σ) :
    let used := (register store (w.service config lastCallId)).use u world
    (∃ next, used.service = register store (w.service config next)) ∧
      store.get used.world = ((store.get world).step op).2 ∧
      ∀ deadline description, op = .add deadline description →
        Tells ((store.get world).add deadline description).1 used.seen := by
  intro used
  constructor
  · have hnone : u.registration? = none := by cases asks <;> rfl
    have hused := Service.use_service (w ++ wiring store) config lastCallId u world
    rw [hnone, Option.toList_none, List.append_nil, ← register_eq, ← register_eq] at hused
    exact ⟨_, hused⟩
  cases asks with
  | @request surroundings r callId context operation payload _ prepared asked =>
    let service := register store (w.service config lastCallId)
    have hprepare : service.prepare service.nextCallId.1 r =
        .ok (some (context.under service.nextCallId.1, operation, payload)) := by
      have hother : ({ config } : Service contract ε σ).prepare service.nextCallId.1 r = _ :=
        Service.prepare_under _ callId service.nextCallId.1 r
      rw [prepared] at hother
      exact hother
    obtain ⟨hstate, htold⟩ := perform_asked w config lastCallId lawful asked
      surroundings (context.under service.nextCallId.1) world
    have hserve : (service.serve surroundings r world).1 = _ := Service.serve_of_call hprepare
    show store.get (service.serve surroundings r world).1.state = _ ∧ ∀ deadline description, _ →
      Tells _ (.served (service.serve surroundings r world).1.result)
    rw [hserve, Ran.state_map, Ran.result_map, Service.state_dispatch, Service.result_dispatch]
    refine ⟨hstate, fun deadline description hop => ?_⟩
    obtain ⟨bytes, hencode, hresult⟩ := htold deadline description hop
    rw [hresult]
    exact .served hencode
  | @payload surroundings context operation payload _ asked =>
    obtain ⟨hstate, htold⟩ := perform_asked w config lastCallId lawful asked
      surroundings context world
    refine ⟨(congrArg store.get (Service.state_dispatch ..)).trans hstate,
      fun deadline description hop => ?_⟩
    obtain ⟨bytes, hencode, hresult⟩ := htold deadline description hop
    have hseen : used.seen = .dispatched (.done bytes) :=
      congrArg Seen.dispatched ((Service.result_dispatch ..).trans hresult)
    rw [hseen]
    exact .dispatched hencode
  | @getTodos surroundings context =>
    obtain ⟨hstate, -⟩ := call_wired w config lastCallId
      (mem_wiring.2 (.inl rfl)) surroundings context ({} : GetTodosRequest) world
    exact ⟨congrArg store.get hstate, fun _ _ h => by cases h⟩
  | @getTodo surroundings context id =>
    obtain ⟨hstate, -⟩ := call_wired w config lastCallId
      (mem_wiring.2 (.inr (.inl rfl))) surroundings context (⟨id⟩ : GetTodoRequest) world
    exact ⟨congrArg store.get
        (hstate.trans (state_handleGetTodo store surroundings context ⟨id⟩ world)),
      fun _ _ h => by cases h⟩
  | @addTodo surroundings context deadline description =>
    obtain ⟨hstate, hresult⟩ := call_wired w config lastCallId
      (mem_wiring.2 (.inr (.inr (.inl rfl)))) surroundings context
        (⟨deadline, description⟩ : AddTodoRequest) world
    refine ⟨(congrArg store.get hstate).trans (lawful _ _), ?_⟩
    rintro _ _ ⟨⟩
    have hseen : used.seen =
        .called addTodo (.done ((store.get world).add deadline description).1) :=
      congrArg (Seen.called addTodo) hresult
    rw [hseen]
    exact .called
  | @deleteTodo surroundings context id =>
    obtain ⟨hstate, -⟩ := call_wired w config lastCallId
      (mem_wiring.2 (.inr (.inr (.inr rfl)))) surroundings context (⟨id⟩ : DeleteTodoRequest) world
    exact ⟨(congrArg store.get hstate).trans (lawful _ _), fun _ _ h => by cases h⟩

end Calls

/-- A call through a handle, with the operation that it asks for. -/
structure Call (config : DispatchConfig) (ε σ : Type) : Type 1 where
  handle : Nat
  use : Use contract ε σ
  op : Store.Op
  asks : Asks config use op

variable {config : DispatchConfig}

/-- The act of making a call. -/
def Call.act (call : Call config ε σ) : Act contract ε σ := .use call.handle call.use

/-- The calls of a run, each with what is shown to its caller. -/
def told (p : Process contract ε σ) (calls : List (Call config ε σ)) :
    List (Call config ε σ × Seen contract) :=
  calls.zip ((p.history (calls.map Call.act)).map fun o => o.used.seen)

/-- The store behind a run of calls. -/
def left (store : Part σ Store) (p : Process contract ε σ)
    (calls : List (Call config ε σ)) : Store :=
  store.get (p.run (calls.map Call.act)).world

/-- A service of the process has the four handlers. -/
structure Serves (store : Part σ Store) (config : DispatchConfig)
    (p : Process contract ε σ) (number : Nat) :
    Prop where
  wired : ∃ w lastCallId,
    p.services[number]? = some (register store (Wiring.service w config lastCallId))

section Runs

variable {store : Part σ Store} {p : Process contract ε σ} {number : Nat}

/-- A call performs its operation and tells an addition its todo, and the service keeps its
    handlers. -/
theorem step_call (lawful : ∀ s world, store.get (store.set s world) = s)
    (serves : Serves store config p number)
    (call : Call config ε σ) (reaches : p.handles[call.handle]? = some number) :
    ∃ o, p.begun? call.act = some o ∧ Serves store config (p.step call.act) number ∧
      (p.step call.act).handles = p.handles ∧
      store.get (p.step call.act).world = ((store.get p.world).step call.op).2 ∧
      ∀ deadline description, call.op = .add deadline description →
        Tells ((store.get p.world).add deadline description).1 o.used.seen := by
  obtain ⟨w, lastCallId, hservice⟩ := serves.wired
  obtain ⟨⟨next, hnext⟩, hworld, htold⟩ := use_asked w config lastCallId lawful call.asks p.world
  let o : Occurrence contract ε σ :=
    ⟨number, register store (w.service config lastCallId), call.use, p.world⟩
  have hbegun : p.begun? call.act = some o := by
    simp only [Process.begun?, Call.act, reaches, Option.bind_some, hservice, Option.map_some, o]
  have hstep : p.step call.act = p.after o := (Process.begun?_eq_some hbegun).2.2.2
  have hlength : number < p.services.length := (List.getElem?_eq_some_iff.1 hservice).1
  refine ⟨o, hbegun, ⟨w, next, ?_⟩, ?_, ?_, htold⟩
  · rw [hstep, ← hnext]
    exact List.getElem?_set_self hlength
  · rw [hstep]
    rfl
  · rw [hstep]
    exact hworld

/-- A run of calls is a run of the store, and tells the additions their todos in order. -/
theorem run_calls (lawful : ∀ s world, store.get (store.set s world) = s)
    (serves : Serves store config p number) {calls : List (Call config ε σ)}
    (reaches : ∀ call ∈ calls, p.handles[call.handle]? = some number) :
    left store p calls = (store.get p.world).run (calls.map Call.op) ∧
      List.Forall₂ (fun (x : Call config ε σ × Seen contract) t =>
          x.1.op = .add t.deadline t.description ∧ t.status = .todo ∧ Tells t x.2)
        ((told p calls).filter (·.1.op.isAdd))
        (numbered (store.get p.world).lastId (Store.additions (calls.map Call.op))) := by
  induction calls generalizing p with
  | nil => exact ⟨rfl, .nil⟩
  | cons call calls ih =>
    obtain ⟨o, hbegun, hserves, hhandles, hworld, htold⟩ :=
      step_call lawful serves call (reaches call List.mem_cons_self)
    obtain ⟨hstore, hrest⟩ := ih hserves fun later hlater => by
      rw [hhandles]
      exact reaches later (List.mem_cons_of_mem _ hlater)
    have htold' : told p (call :: calls) = (call, o.used.seen) :: told (p.step call.act) calls := by
      rw [told, List.map_cons, Process.history, hbegun]
      rfl
    rw [hworld] at hstore hrest
    refine ⟨hstore, ?_⟩
    rw [htold', List.filter_cons]
    cases hop : call.op with
    | get | list | len | isEmpty | delete =>
      rw [hop] at hrest
      rw [if_neg (by simp [Store.Op.isAdd]), List.map_cons, hop]
      exact hrest
    | add deadline description =>
      rw [hop] at hrest
      have hadd : (Store.Op.add deadline description).isAdd = true := rfl
      rw [if_pos hadd, List.map_cons, hop]
      exact .cons ⟨hop, rfl, htold deadline description hop⟩ hrest

end Runs

/-! ## Orders -/

/-- What calls come to at a store that has given the ids up to `q`.  The additions are given the ids
    behind `q`, one after the other; each is told a todo with its own texts, and these todos are the
    rows above `q`.  Of the rows up to `q` those are kept that no call deletes. -/
structure Handled (store : Part σ Store) (q : Int) (p : Process contract ε σ)
    (calls : List (Call config ε σ)) :
    Prop where
  given : ∃ given : List Todo,
    given.map (·.id.toInt) =
      (List.range (calls.countP (·.op.isAdd))).map (fun k : Nat => q + 1 + k) ∧
      List.Forall₂ (fun (x : Call config ε σ × Seen contract) t =>
          x.1.op = .add t.deadline t.description ∧ t.status = .todo ∧ Tells t x.2)
        ((told p calls).filter (·.1.op.isAdd)) given ∧
      (left store p calls).rows.filter (fun t => q < t.id.toInt) = given
  kept : (left store p calls).rows.filter (fun t => t.id.toInt ≤ q) =
    (store.get p.world).rows.filter (fun t => .delete t.id ∉ calls.map Call.op)
  lastId : (left store p calls).lastId.toInt = q + calls.countP (·.op.isAdd)

theorem length_additions_map (calls : List (Call config ε σ)) :
    (Store.additions (calls.map Call.op)).length = calls.countP (·.op.isAdd) := by
  rw [Store.length_additions, Store.adds, List.countP_map]
  rfl

section Orders

variable {store : Part σ Store} (lawful : ∀ s world, store.get (store.set s world) = s)
  {p : Process contract ε σ} {number : Nat} (serves : Serves store config p number)
  {past : List Store.Op} (stored : store.get p.world = .after past) {calls : List (Call config ε σ)}
  (reaches : ∀ call ∈ calls, p.handles[call.handle]? = some number)
  (few : Store.adds past + calls.countP (·.op.isAdd) < 2 ^ 63)
  (old : ∀ id, .delete id ∈ calls.map Call.op → id.toInt ≤ (Store.adds past : Int))

include few

/-- New ids are behind those that have been given. -/
theorem lt_of_mem_numbered_after {t : Todo}
    (ht : t ∈ numbered (Store.after past).lastId (Store.additions (calls.map Call.op))) :
    (Store.adds past : Int) < t.id.toInt := by
  have hlast : (Store.after past).lastId.toInt = Store.adds past :=
    Store.toInt_lastId_after (by omega)
  rw [← hlast]
  refine Int64.lt_iff_toInt_lt.1 (lt_of_mem_numbered ?_ ht)
  rw [length_additions_map, hlast]
  omega

include lawful serves stored reaches old

/-- The rows behind calls: those that none deletes, and the new ones. -/
theorem rows_left : (left store p calls).rows =
    (Store.after past).rows.filter (fun t => .delete t.id ∉ calls.map Call.op) ++
      numbered (Store.after past).lastId (Store.additions (calls.map Call.op)) := by
  have hfew : Store.adds past < 2 ^ 63 := by omega
  have hlast := Store.toInt_lastId_after hfew
  have bounded : (Store.after past).Bounded := by
    intro t ht
    rw [Int64.le_iff_toInt_le, hlast]
    exact Store.toInt_le_of_mem_after hfew ht
  rw [(run_calls lawful serves reaches).1, stored]
  refine Store.rows_run bounded ?_ fun id hid => ?_
  · rw [length_additions_map, hlast]
    omega
  · rw [Int64.le_iff_toInt_le, hlast]
    exact old id hid

/-- The rows up to the last id given before. -/
theorem rows_left_upTo :
    (left store p calls).rows.filter (fun t => t.id.toInt ≤ (Store.adds past : Int)) =
    (Store.after past).rows.filter (fun t => .delete t.id ∉ calls.map Call.op) := by
  have hold : ∀ t ∈ (Store.after past).rows.filter (fun t => .delete t.id ∉ calls.map Call.op),
      t.id.toInt ≤ Store.adds past :=
        fun t ht => Store.toInt_le_of_mem_after (by omega) (List.mem_filter.1 ht).1
  have hnone : (numbered (Store.after past).lastId (Store.additions (calls.map Call.op))).filter
      (fun t => t.id.toInt ≤ (Store.adds past : Int)) = [] :=
    List.filter_eq_nil_iff.2 fun t ht => by simpa using lt_of_mem_numbered_after few ht
  rw [rows_left lawful serves stored reaches few old, List.filter_append, hnone, List.append_nil,
    List.filter_eq_self.2 fun t ht => decide_eq_true (hold t ht)]

/-- The rows above it. -/
theorem rows_left_above :
    (left store p calls).rows.filter (fun t => (Store.adds past : Int) < t.id.toInt) =
    numbered (Store.after past).lastId (Store.additions (calls.map Call.op)) := by
  have hnone : ((Store.after past).rows.filter (fun t => .delete t.id ∉ calls.map Call.op)).filter
      (fun t => (Store.adds past : Int) < t.id.toInt) = [] := by
    refine List.filter_eq_nil_iff.2 fun t ht => ?_
    have hold := Store.toInt_le_of_mem_after (by omega) (List.mem_filter.1 ht).1
    simpa using hold
  rw [rows_left lawful serves stored reaches few old, List.filter_append, hnone, List.nil_append,
    List.filter_eq_self.2 fun t ht => decide_eq_true (lt_of_mem_numbered_after few ht)]

theorem handled : Handled store (Store.adds past) p calls := by
  have hlength := length_additions_map calls
  have hlast : (Store.after past).lastId.toInt = Store.adds past :=
    Store.toInt_lastId_after (by omega)
  have hfew :
      (Store.after past).lastId.toInt + (Store.additions (calls.map Call.op)).length < 2 ^ 63 := by
    rw [hlength, hlast]
    omega
  obtain ⟨hleft, htold⟩ := run_calls lawful serves reaches
  rw [stored] at hleft htold
  refine ⟨⟨_, ?_, htold, rows_left_above lawful serves stored reaches few old⟩, ?_, ?_⟩
  · rw [ids_numbered hfew, hlength, hlast]
  · rw [stored]
    exact rows_left_upTo lawful serves stored reaches few old
  · rw [hleft, Store.toInt_lastId_run hfew, hlength, hlast]

end Orders

/-- **Calls may come in any order.**  Take a service with the four handlers, and a store that has
    given the ids up to `q`: calls through any handles, over HTTP or not, that delete no other ids,
    and two orders of them, as long as there are ids left.  In both orders the `n` additions are
    given the ids from `q + 1` to `q + n`, each is told and stored with its own texts, and the rows
    up to `q` are those that no call deletes (`Handled`).  So these rows are the same, the rows
    above `q` have the same contents, and a permutation of the ids that moves none up to `q` leads
    from one store to the other. -/
theorem orders_agree {store : Part σ Store} (lawful : ∀ s world, store.get (store.set s world) = s)
    {p : Process contract ε σ} {number : Nat} (serves : Serves store config p number)
    {past : List Store.Op}
    (stored : store.get p.world = .after past) {calls calls' : List (Call config ε σ)}
    (reaches : ∀ call ∈ calls, p.handles[call.handle]? = some number)
    (few : Store.adds past + calls.countP (·.op.isAdd) < 2 ^ 63)
    (old : ∀ id, .delete id ∈ calls.map Call.op → id.toInt ≤ (Store.adds past : Int))
    (perm : calls.Perm calls') :
    let q : Int := Store.adds past
    let s := left store p calls
    let s' := left store p calls'
    Handled store q p calls ∧ Handled store q p calls' ∧
      s.rows.filter (fun t => t.id.toInt ≤ q) = s'.rows.filter (fun t => t.id.toInt ≤ q) ∧
      ((s.rows.filter fun t => q < t.id.toInt).map Todo.content).Perm
        ((s'.rows.filter fun t => q < t.id.toInt).map Todo.content) ∧
      s.lastId = s'.lastId ∧
      ∃ rename : Equiv.Perm Int64, (∀ id, id.toInt ≤ q → rename id = id) ∧
        (s.rows.map (Todo.renamed rename)).Perm s'.rows := by
  intro q s s'
  have hops : (calls.map Call.op).Perm (calls'.map Call.op) := perm.map _
  have htexts : (Store.additions (calls.map Call.op)).Perm (Store.additions (calls'.map Call.op)) :=
    hops.filterMap _
  have hcount := perm.countP_eq fun call => call.op.isAdd
  have reaches' : ∀ call ∈ calls', p.handles[call.handle]? = some number := fun call hcall =>
    reaches call (perm.mem_iff.2 hcall)
  have few' : Store.adds past + calls'.countP (·.op.isAdd) < 2 ^ 63 := hcount ▸ few
  have old' : ∀ id, .delete id ∈ calls'.map Call.op → id.toInt ≤ (Store.adds past : Int) :=
    fun id hid =>
    old id (hops.mem_iff.2 hid)
  have h := handled lawful serves stored reaches few old
  have h' := handled lawful serves stored reaches' few' old'
  have hkept : (Store.after past).rows.filter (fun t => .delete t.id ∉ calls.map Call.op) =
      (Store.after past).rows.filter (fun t => .delete t.id ∉ calls'.map Call.op) :=
    List.filter_congr fun t _ => by simp only [hops.mem_iff]
  have hlast : (Store.after past).lastId.toInt = Store.adds past :=
    Store.toInt_lastId_after (by omega)
  refine ⟨h, h', ?_, ?_, ?_, ?_⟩
  · rw [h.kept, h'.kept, stored, hkept]
  · rw [rows_left_above lawful serves stored reaches few old,
      rows_left_above lawful serves stored reaches' few' old', content_numbered, content_numbered]
    exact htexts.map _
  · rw [← Int64.toInt_inj, h.lastId, h'.lastId, hcount]
  · obtain ⟨rename, hold, hnew⟩ := exists_renaming htexts (Store.after past).lastId (by
      rw [length_additions_map, hlast]
      omega)
    have hfixed : ∀ id : Int64, id.toInt ≤ q → rename id = id := by
      intro id hid
      refine hold id ?_
      rw [Int64.le_iff_toInt_le, hlast]
      exact hid
    refine ⟨rename, hfixed, ?_⟩
    have hsame :
        ((Store.after past).rows.filter fun t => .delete t.id ∉ calls.map Call.op).map
          (Todo.renamed rename) =
          (Store.after past).rows.filter fun t => .delete t.id ∉ calls.map Call.op :=
      map_renamed_of_fixed fun t ht => hfixed t.id
        (Store.toInt_le_of_mem_after (by omega) (List.mem_filter.1 ht).1)
    simp only [s, s']
    rw [rows_left lawful serves stored reaches few old,
      rows_left lawful serves stored reaches' few' old', List.map_append, hsame, hkept]
    exact hnew.append_left _

/-- An addition over HTTP and one from inside the process get each other's ids in the other order;
    the deletion takes the same row. -/
theorem two_additions_and_a_deletion :
    let p : Process contract Unit Store :=
      ⟨[register .whole (Wiring.service [] {} 0)], [0, 0], .after [.add "today" "rice"], {}⟩
    let text := Utf8.encode "\x7b\"deadline\":\"soon\",\"description\":\"tea\"\x7d"
    ∃ tea cake gone : Call {} Unit Store,
      tea.use = .serve () (postTo (some "fn=addTodo") text) ∧
      cake.use = .call () (.inProcess "Todos") addTodo ⟨"later", "cake"⟩ ∧
      gone.use = .dispatch () (.inProcess "Todos") "deleteTodo" (Utf8.encode "\x7b\"id\":1\x7d") ∧
      Handled .whole 1 p [tea, gone, cake] ∧ Handled .whole 1 p [cake, tea, gone] ∧
      (left .whole p [tea, gone, cake]).rows =
        [⟨2, "soon", "tea", .todo⟩, ⟨3, "later", "cake", .todo⟩] ∧
      (left .whole p [cake, tea, gone]).rows =
        [⟨2, "later", "cake", .todo⟩, ⟨3, "soon", "tea", .todo⟩] := by
  intro p text
  have posted : Posted addTodo text (postTo (some "fn=addTodo") text) := posted_postTo text (by cbv)
  have fits : text.length ≤ ({} : DispatchConfig).maxRequestBytes := by decide +kernel
  have asked : storeOp? addTodo.name text = some (.add "soon" "tea") := by decide +kernel
  let tea : Call {} Unit Store :=
    ⟨0, .serve () (postTo (some "fn=addTodo") text), .add "soon" "tea",
      .of_posted posted fits asked ()⟩
  let cake : Call {} Unit Store :=
    ⟨1, .call () (.inProcess "Todos") addTodo ⟨"later", "cake"⟩, .add "later" "cake", .addTodo⟩
  let gone : Call {} Unit Store :=
    ⟨1, .dispatch () (.inProcess "Todos") "deleteTodo" (Utf8.encode "\x7b\"id\":1\x7d"), .delete 1,
      .payload (by decide +kernel)⟩
  have serves : Serves .whole {} p 0 := ⟨[], 0, rfl⟩
  have reaches : ∀ call ∈ [tea, gone, cake], p.handles[call.handle]? = some 0 := by
    simp [tea, gone, cake, p]
  have old : ∀ id, .delete id ∈ [tea, gone, cake].map Call.op →
      id.toInt ≤ (Store.adds [.add "today" "rice"] : Int) := by
    intro id hid
    simp only [tea, gone, cake, List.map_cons, List.map_nil, List.mem_cons,
      List.not_mem_nil, or_false, reduceCtorEq, false_or, Store.Op.delete.injEq] at hid
    subst hid
    decide
  have perm : [tea, gone, cake].Perm [cake, tea, gone] :=
    ((List.Perm.swap cake gone []).cons tea).trans (.swap cake tea [gone])
  have few : 1 + [tea, gone, cake].countP (·.op.isAdd) < 2 ^ 63 := by
    show 1 + 2 < 2 ^ 63
    decide
  have reaches' : ∀ call ∈ [cake, tea, gone], p.handles[call.handle]? = some 0 := fun call hcall =>
    reaches call (perm.mem_iff.2 hcall)
  obtain ⟨hfirst, hsecond, -⟩ := orders_agree (fun _ _ => rfl) serves rfl reaches few old perm
  refine ⟨tea, cake, gone, rfl, rfl, rfl, hfirst, hsecond, ?_, ?_⟩
  · rw [(run_calls (fun _ _ => rfl) serves reaches).1]
    rfl
  · rw [(run_calls (fun _ _ => rfl) serves reaches').1]
    rfl

end Switchboard.Todos
