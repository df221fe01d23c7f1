/-
  What a sequence of registrations leaves behind.

  1. **Names in order** — `Named.put` keeps a list strictly ordered, and a strictly ordered list is
     fixed by what it holds under each name (`Named.eq_of_first?_eq`).

  2. **Registries** — a registry depends on nothing but the last registration of each name
     (`Wiring.registry_eq_of_last?_eq`): that is why registrations of different operations commute.

  3. **Processes** — registrations through any handles of a service change this service and nothing
     else but the log (`Process.run_registering`).

  4. **Runs** — `last_registration_decides`.
-/
import Mathlib.Data.String.Basic
import Switchboard.Proofs.Service.Process
import Switchboard.Proofs.Text.Order
import Switchboard.Echo.Service
import Switchboard.Todos.Service

namespace Switchboard

/-! ## Names in order -/

namespace Named

variable {α : Type}

/-- Every name is smaller than those behind it. -/
def Ordered (xs : Named α) : Prop := xs.Pairwise fun x y => x.1 < y.1

theorem mem_put {name : String} {value : α} {xs : Named α} {y : String × α}
    (h : y ∈ xs.put name value) : y = (name, value) ∨ y ∈ xs := by
  induction xs with
  | nil => exact .inl (List.mem_singleton.1 h)
  | cons x xs ih =>
    rw [put] at h
    split at h
    · rcases List.mem_cons.1 h with h | h
      · exact .inl h
      · exact .inr (List.mem_cons_of_mem _ h)
    split at h
    · exact (List.mem_cons.1 h).imp id id
    · rcases List.mem_cons.1 h with rfl | h
      · exact .inr (List.mem_cons_self ..)
      · exact (ih h).imp id (List.mem_cons_of_mem _)

theorem ordered_put {xs : Named α} (h : xs.Ordered) (name : String) (value : α) :
    (xs.put name value).Ordered := by
  induction xs with
  | nil => exact List.pairwise_singleton _ _
  | cons x xs ih =>
    obtain ⟨other, held⟩ := x
    obtain ⟨hfirst, hrest⟩ := List.pairwise_cons.1 h
    rw [put]
    by_cases heq : name = other
    · subst heq
      rw [if_pos rfl]
      exact List.pairwise_cons.2 ⟨hfirst, hrest⟩
    rw [if_neg heq]
    by_cases hlt : name < other
    · rw [if_pos hlt]
      refine List.pairwise_cons.2 ⟨?_, h⟩
      intro y hy
      rcases List.mem_cons.1 hy with rfl | hy
      · exact hlt
      · exact lt_trans hlt (hfirst y hy)
    · rw [if_neg hlt]
      refine List.pairwise_cons.2 ⟨?_, ih hrest⟩
      intro y hy
      rcases mem_put hy with rfl | hy
      · exact lt_of_le_of_ne (not_lt.1 hlt) (Ne.symm heq)
      · exact hfirst y hy

theorem mem_names_iff {xs : Named α} {name : String} :
    name ∈ xs.names ↔ (xs.first? name).isSome = true := by
  induction xs with
  | nil => simp [names, first?]
  | cons x xs ih =>
    rw [names, List.map_cons, List.mem_cons, first?_cons]
    by_cases h : name = x.1
    · simp [h]
    · rw [if_neg h, or_iff_right h]
      exact ih

/-- Nothing is held under a name in front of all others. -/
theorem first?_eq_none {xs : Named α} {name : String} (h : ∀ y ∈ xs, name < y.1) :
    xs.first? name = none := by
  cases hfirst : xs.first? name with
  | none => rfl
  | some value =>
    have hmem : name ∈ xs.names := mem_names_iff.2 (by rw [hfirst]; rfl)
    obtain ⟨y, hy, rfl⟩ := List.mem_map.1 hmem
    exact absurd (h y hy) (lt_irrefl _)

theorem first?_self (name : String) (value : α) (xs : Named α) :
    first? name ((name, value) :: xs) = some value := by
  rw [first?_cons, if_pos rfl]

/-- The first names of two ordered lists that hold the same are the same. -/
theorem head_le_of_first?_eq {name other : String} {value held : α} {xs ys : Named α}
    (hys : Ordered ((other, held) :: ys))
    (h : first? name ((name, value) :: xs) = first? name ((other, held) :: ys)) : other ≤ name := by
  have hmem : name ∈ names ((other, held) :: ys) := by
    rw [mem_names_iff, ← h, first?_self]
    rfl
  rcases List.mem_cons.1 hmem with rfl | hmem
  · exact le_refl _
  · obtain ⟨y, hy, rfl⟩ := List.mem_map.1 hmem
    exact le_of_lt ((List.pairwise_cons.1 hys).1 y hy)

/-- **Extensionality.**  Ordered lists that hold the same under every name are equal. -/
theorem eq_of_first?_eq {xs ys : Named α} (hxs : xs.Ordered) (hys : ys.Ordered)
    (h : ∀ name, xs.first? name = ys.first? name) : xs = ys := by
  induction xs generalizing ys with
  | nil =>
    cases ys with
    | nil => rfl
    | cons y ys =>
      have hnone := h y.1
      rw [first?_self] at hnone
      cases hnone
  | cons x xs ih =>
    cases ys with
    | nil =>
      have hnone := h x.1
      rw [first?_self] at hnone
      cases hnone
    | cons y ys =>
      obtain ⟨name, value⟩ := x
      obtain ⟨other, held⟩ := y
      have hname : name = other :=
        le_antisymm (head_le_of_first?_eq hxs (h other).symm) (head_le_of_first?_eq hys (h name))
      subst hname
      have hvalue := h name
      rw [first?_self, first?_self] at hvalue
      obtain rfl := Option.some.inj hvalue
      obtain ⟨hx, hxs⟩ := List.pairwise_cons.1 hxs
      obtain ⟨hy, hys⟩ := List.pairwise_cons.1 hys
      congr 1
      apply ih hxs hys
      intro wanted
      by_cases hw : wanted = name
      · subst hw
        rw [first?_eq_none hx, first?_eq_none hy]
      · have hwanted := h wanted
        rw [first?_cons, first?_cons, if_neg hw, if_neg hw] at hwanted
        exact hwanted

end Named

/-! ## Registries -/

variable {c : Contract} {ε σ : Type}

namespace Wiring

theorem ordered_registry (w : Wiring c ε σ) : w.registry.Ordered := by
  induction w using List.reverseRecOn with
  | nil => exact List.Pairwise.nil
  | append_singleton w g ih =>
    rw [registry_concat]
    exact Named.ordered_put ih _ _

/-- Nothing but the last registration of each name is left in a registry. -/
theorem registry_eq_of_last?_eq {w w' : Wiring c ε σ} (h : ∀ name, w.last? name = w'.last? name) :
    w.registry = w'.registry := by
  apply Named.eq_of_first?_eq w.ordered_registry w'.ordered_registry
  intro name
  have hslot : w.registry.slot? name = w'.registry.slot? name := by
    rw [slot?_registry, slot?_registry, h]
  exact hslot

theorem isSome_last?_iff {w : Wiring c ε σ} {name : String} :
    (w.last? name).isSome = true ↔ ∃ g ∈ w, g.op.name = name := by
  rw [last?, List.find?_isSome]
  simp only [List.mem_reverse, beq_iff_eq]

theorem isRegistered_registry (w : Wiring c ε σ) (name : String) :
    w.registry.isRegistered name = (w.last? name).isSome := by
  rw [Registry.isRegistered, slot?_registry, Option.isSome_map]

theorem mem_registered_iff {w : Wiring c ε σ} {name : String} :
    name ∈ w.registry.registered ↔ (w.last? name).isSome = true := by
  rw [← isRegistered_registry]
  exact Named.mem_names_iff

/-- The names come in the order of their bytes. -/
theorem registered_pairwise (w : Wiring c ε σ) :
    w.registry.registered.Pairwise fun a b => Utf8.encode a < Utf8.encode b := by
  rw [Registry.registered, Named.names, List.pairwise_map]
  exact w.ordered_registry.imp fun h => Utf8.encode_lt h

theorem registered_nodup (w : Wiring c ε σ) : w.registry.registered.Nodup := by
  rw [Registry.registered, Named.names, List.nodup_iff_pairwise_ne, List.pairwise_map]
  exact w.ordered_registry.imp fun h => ne_of_lt h

/-- The later of two registrations with one name hides the other. -/
theorem last?_append_congr {w v v' : Wiring c ε σ} (h : ∀ name, v.last? name = v'.last? name)
    (name : String) : Wiring.last? (w ++ v) name = Wiring.last? (w ++ v') name := by
  rw [last?_append, last?_append, h]

/-- Registrations of different operations commute. -/
theorem last?_swap {g g' : Registration c ε σ} (h : g.op.name ≠ g'.op.name) (name : String) :
    Wiring.last? [g, g'] name = Wiring.last? [g', g] name := by
  show Wiring.last? ([g] ++ [g']) name = Wiring.last? ([g'] ++ [g]) name
  have hone : ∀ r : Registration c ε σ,
      Wiring.last? [r] name = if name = r.op.name then some r else none :=
    fun r => last?_concat [] r name
  rw [last?_concat, last?_concat, hone, hone]
  by_cases hg : name = g.op.name
  · have hg' : name ≠ g'.op.name := hg ▸ h
    rw [if_neg hg', if_pos hg, if_pos hg]
  · rw [if_neg hg, if_neg hg]

/-- Repeating a registration leaves the last of each name as it is. -/
theorem last?_repeat (g : Registration c ε σ) (name : String) :
    Wiring.last? [g, g] name = Wiring.last? [g] name := by
  have htwo : Wiring.last? [g, g] name =
      if name = g.op.name then some g else Wiring.last? [g] name :=
    last?_concat [g] g name
  have hone : Wiring.last? [g] name = if name = g.op.name then some g else Wiring.last? [] name :=
    last?_concat [] g name
  rw [htwo, hone]
  by_cases h : name = g.op.name
  · rw [if_pos h, if_pos h]
  · rw [if_neg h]

/-- What a call of a name does: the last registration of the name decides. -/
def answer (w : Wiring c ε σ) (surroundings : ε) (context : CallContext)
    (name : String) (payload : Bytes)
    (world : σ) : Ran σ (Outcome CallError Bytes) :=
  match w.last? name with
  | some g =>
    match g.op.request.decode payload with
    | .ok request => (g.handler surroundings context request world).map g.op.answer
    | .error fault => .of (.failed (.badRequest (fault.message payload))) world
  | none =>
    .of
      (.failed (if name ∈ c.operations then .notRegistered c.name name else .unknownOperation name))
      world

theorem perform_eq_answer (w : Wiring c ε σ) (config : DispatchConfig)
    (lastCallId : Nat) (surroundings : ε)
    (context : CallContext) (name : String) (payload : Bytes) (world : σ) :
    (w.service config lastCallId).perform surroundings context name payload world =
      w.answer surroundings context name payload world := by
  cases hl : w.last? name with
  | some g =>
    rw [Service.perform_registered _ _ _ _ _ _ _ hl]
    simp only [answer, hl, Registration.slot, Operation.slot]
    cases g.op.request.decode payload with
    | error fault => rfl
    | ok request => rfl
  | none =>
    simp only [answer, hl]
    by_cases hd : name ∈ c.operations
    · rw [Service.perform_unregistered _ _ _ _ _ _ _ hd hl]
      simp only [hd, if_true]
    · rw [Service.perform_undeclared _ _ _ _ _ _ _ hd]
      simp only [hd, if_false]

end Wiring

/-! ## Processes -/

namespace Process

/-- The acts that make registrations, each through a handle. -/
def registering (made : List (Nat × Registration c ε σ)) : List (Act c ε σ) :=
  made.map fun (handle, g) => .use handle (.register g)

/-- What a run shows and logs. -/
def shown (p : Process c ε σ) (acts : List (Act c ε σ)) : List (Seen c × Trace) :=
  (p.history acts).map fun o => (o.used.seen, o.used.trace)

/-- Registrations through handles of one service change this service and nothing else but the
    log. -/
theorem run_registering {p : Process c ε σ} {made : List (Nat × Registration c ε σ)}
    {i lastCallId : Nat}
    {w : Wiring c ε σ} {config : DispatchConfig} (hmade : ∀ x ∈ made, p.handles[x.1]? = some i)
    (hs : p.services[i]? = some (w.service config lastCallId)) :
    ∃ trace, p.run (registering made) =
      { p with
        services := p.services.set i (Wiring.service (w ++ made.map (·.2)) config lastCallId)
        trace := trace } := by
  induction made generalizing p w with
  | nil =>
    refine ⟨p.trace, ?_⟩
    have hset : p.services.set i (w.service config lastCallId) = p.services := by
      obtain ⟨hlen, heq⟩ := List.getElem?_eq_some_iff.1 hs
      rw [← heq, List.set_getElem_self]
    rw [List.map_nil, List.append_nil, hset]
    rfl
  | cons x made ih =>
    obtain ⟨handle, g⟩ := x
    have hlen : i < p.services.length := (List.getElem?_eq_some_iff.1 hs).1
    have hhandle : p.handles[handle]? = some i := hmade (handle, g) (List.mem_cons_self ..)
    let o : Occurrence c ε σ := ⟨i, w.service config lastCallId, .register g, p.world⟩
    have hbegun : p.begun? (.use handle (.register g)) = some o := by
      simp only [begun?, hhandle, hs, Option.bind_some, Option.map_some, o]
    obtain ⟨-, -, -, hstep⟩ := begun?_eq_some hbegun
    have hservice : o.used.service = Wiring.service (w ++ [g]) config lastCallId :=
      Service.use_service w config lastCallId (.register g) p.world
    have hafter : (p.after o).services[i]? =
        some (Wiring.service (w ++ [g]) config lastCallId) := by
      rw [after, List.getElem?_set_self hlen, hservice]
    have hrest : ∀ x ∈ made, (p.after o).handles[x.1]? = some i := fun x hx =>
      hmade x (List.mem_cons_of_mem _ hx)
    obtain ⟨trace, hrun⟩ := ih hrest hafter
    refine ⟨trace, ?_⟩
    rw [registering, List.map_cons, run_cons, hstep]
    refine hrun.trans ?_
    have hnumber : o.number = i := rfl
    have hworld : o.used.world = p.world := rfl
    simp only [after, List.map_cons, List.append_assoc, List.singleton_append]
    rw [hnumber, hworld, List.set_set]

/-- What has been logged does not matter for what a run shows and does. -/
theorem shown_congr (p : Process c ε σ) (trace : Trace) (later : List (Act c ε σ)) :
    ({ p with trace := trace } : Process c ε σ).shown later = p.shown later ∧
      (({ p with trace := trace } : Process c ε σ).run later).world = (p.run later).world := by
  induction later generalizing p trace with
  | nil => exact ⟨rfl, rfl⟩
  | cons act later ih =>
    have hbegun : ({ p with trace := trace } : Process c ε σ).begun? act = p.begun? act := by
      cases act <;> rfl
    have hstep : ∃ trace', ({ p with trace := trace } : Process c ε σ).step act =
        { p.step act with trace := trace' } := by
      cases act with
      | create config => exact ⟨_, rfl⟩
      | clone handle => exact ⟨_, rfl⟩
      | use handle u =>
        simp only [step, hbegun]
        cases p.begun? (.use handle u) <;> exact ⟨_, rfl⟩
    obtain ⟨trace', hstep⟩ := hstep
    obtain ⟨hshown, hworld⟩ := ih (p.step act) trace'
    rw [shown] at hshown ⊢
    rw [shown, history, history, hbegun, List.map_append, List.map_append,
      run_cons, run_cons, hstep, hshown]
    exact ⟨rfl, hworld⟩

/-- Two sequences of registrations at one service that leave the same last registrations cannot be
    told apart afterwards. -/
theorem shown_registering {p : Process c ε σ} {made made' : List (Nat × Registration c ε σ)}
    {i lastCallId : Nat} {w : Wiring c ε σ} {config : DispatchConfig}
    (hs : p.services[i]? = some (w.service config lastCallId))
    (hmade : ∀ x ∈ made, p.handles[x.1]? = some i) (hmade' : ∀ x ∈ made', p.handles[x.1]? = some i)
    (hlast : ∀ name,
      Wiring.last? (w ++ made.map (·.2)) name = Wiring.last? (w ++ made'.map (·.2)) name)
    (later : List (Act c ε σ)) :
    let q := p.run (registering made)
    let q' := p.run (registering made')
    q.shown later = q'.shown later ∧ (q.run later).world = (q'.run later).world := by
  intro q q'
  obtain ⟨trace, hq⟩ := run_registering hmade hs
  obtain ⟨trace', hq'⟩ := run_registering hmade' hs
  have hservice : Wiring.service (w ++ made.map (·.2)) config lastCallId =
      Wiring.service (w ++ made'.map (·.2)) config lastCallId := by
    rw [Wiring.service, Wiring.service, Wiring.registry_eq_of_last?_eq hlast]
  have hsame : q = { q' with trace := trace } := by
    show p.run _ = { p.run _ with trace := trace }
    rw [hq, hq', hservice]
  rw [hsame]
  exact q'.shown_congr trace later

end Process

/-! ## Runs -/

/-- **The last registration decides.**  Take any service of a process, after any run; its
    registrations came through its handles in some order, with other acts between them.

    A call of a name runs the handler registered last under it; without one, the name is not
    registered or not declared, whatever the payload is.  The names that are listed are those with a
    registration, in the strict order of their bytes.  From there on, registrations through any
    handles of the service that leave the same last registrations cannot be told apart by anything
    that is done later: those of different operations commute, and repeating one does nothing. -/
theorem last_registration_decides (world : σ) (acts : List (Act c ε σ))
    {i : Nat} {s : Service c ε σ} (hs : ((Process.start world).run acts).services[i]? = some s) :
    let p := (Process.start world).run acts
    let w := (Process.start world).registrations i acts
    let registered := s.registry.registered
    let Same (made made' : List (Nat × Registration c ε σ)) : Prop := ∀ later,
      (p.run (Process.registering made)).shown later =
        (p.run (Process.registering made')).shown later ∧
      ((p.run (Process.registering made)).run later).world =
        ((p.run (Process.registering made')).run later).world
    (∀ surroundings context name payload world',
      s.dispatch surroundings context name payload world' =
        Service.measured c context name (w.answer surroundings context name payload world')) ∧
    registered.Pairwise (fun a b => Utf8.encode a < Utf8.encode b) ∧ registered.Nodup ∧
    (∀ name ∈ registered, name ∈ c.operations) ∧
    (∀ name, name ∈ registered ↔ s.registry.isRegistered name = true) ∧
    (∀ name, name ∈ registered ↔ ∃ g ∈ w, g.op.name = name) ∧
    (∀ made made', (∀ x ∈ made, p.handles[x.1]? = some i) →
      (∀ x ∈ made', p.handles[x.1]? = some i) →
      (∀ name, Wiring.last? (w ++ made.map (·.2)) name = Wiring.last? (w ++ made'.map (·.2)) name) →
      Same made made') ∧
    (∀ h h' g g', p.handles[h]? = some i → p.handles[h']? = some i → g.op.name ≠ g'.op.name →
      Same [(h, g), (h', g')] [(h', g'), (h, g)]) ∧
    (∀ h h' g, p.handles[h]? = some i → p.handles[h']? = some i →
      Same [(h, g), (h', g)] [(h, g)]) := by
  intro p w registered Same
  obtain ⟨config, lastCallId, hservice⟩ := (Process.built_run world acts).service hs
  have hnames : ∀ name, name ∈ registered ↔ (w.last? name).isSome = true := by
    intro name
    simp only [registered, hservice, Wiring.service]
    exact Wiring.mem_registered_iff
  have hwired : p.services[i]? = some (w.service config lastCallId) := by rw [← hservice]; exact hs
  have hsame : ∀ made made', (∀ x ∈ made, p.handles[x.1]? = some i) →
      (∀ x ∈ made', p.handles[x.1]? = some i) →
      (∀ name, Wiring.last? (w ++ made.map (·.2)) name = Wiring.last? (w ++ made'.map (·.2)) name) →
      Same made made' := fun made made' hmade hmade' hlast later =>
    Process.shown_registering hwired hmade hmade' hlast later
  refine ⟨?_, ?_, ?_, ?_, ?_, ?_, hsame, ?_, ?_⟩
  · intro surroundings context name payload world'
    rw [Service.dispatch, hservice, Wiring.perform_eq_answer]
  · simp only [registered, hservice, Wiring.service]
    exact w.registered_pairwise
  · simp only [registered, hservice, Wiring.service]
    exact w.registered_nodup
  · intro name hname
    obtain ⟨g, hg⟩ := Option.isSome_iff_exists.1 ((hnames name).1 hname)
    exact Wiring.mem_operations_of_last? hg
  · intro name
    rw [hnames, hservice, Wiring.service, Wiring.isRegistered_registry]
  · intro name
    rw [hnames]
    exact Wiring.isSome_last?_iff
  · intro h h' g g' hh hh' hne
    refine hsame _ _ ?_ ?_ (Wiring.last?_append_congr (Wiring.last?_swap hne))
    · simp [hh, hh']
    · simp [hh, hh']
  · intro h h' g hh hh'
    refine hsame _ _ ?_ ?_ (Wiring.last?_append_congr (Wiring.last?_repeat g))
    · simp [hh, hh']
    · simp [hh]

/-- Three registrations through two handles leave what one of them leaves, behind an older one; the
    names are listed in order. -/
theorem todos_registrations_leave_last :
    let get : Registration Todos.contract Unit Todos.Store :=
      ⟨Todos.getTodos, Todos.handleGetTodos .whole⟩
    let add : Registration Todos.contract Unit Todos.Store :=
      ⟨Todos.addTodo, Todos.handleAddTodo .whole⟩
    let p := (Process.start Todos.Store.empty).run [.create {}, .clone 0, .use 1 (.register get)]
    let made := [(0, add), (1, get), (1, add)]
    let later : List (Act Todos.contract Unit Todos.Store) := [.use 0 .registered]
    p.services[0]? = some (Wiring.service [get] {} 0) ∧ (∀ x ∈ made, p.handles[x.1]? = some 0) ∧
      (p.run (Process.registering made)).shown later =
        (p.run (Process.registering [(0, add)])).shown later ∧
      (p.run (Process.registering made)).services[0]?.map (·.registry.registered) =
        some ["addTodo", "getTodos"] := by
  intro get add p made later
  have hs : p.services[0]? = some (Wiring.service [get] {} 0) := rfl
  have hmade : ∀ x ∈ made, p.handles[x.1]? = some 0 := by
    simp only [made, List.forall_mem_cons]
    exact ⟨rfl, rfl, rfl, nofun⟩
  refine ⟨hs, hmade, ?_, by decide +kernel⟩
  obtain ⟨-, -, -, -, -, -, hsame, -, -⟩ := last_registration_decides Todos.Store.empty _ hs
  refine (hsame made [(0, add)] hmade ?_ ?_ later).1
  · simp only [List.forall_mem_cons]
    exact ⟨rfl, nofun⟩
  · intro name
    have hw : (Process.start Todos.Store.empty).registrations 0 [.create {}, .clone 0,
      .use 1 (.register get)] =
        [get] := rfl
    rw [hw]
    by_cases hadd : name = "addTodo"
    · subst hadd
      rfl
    · have hadd' : ("addTodo" == name) = false := by simpa using Ne.symm hadd
      by_cases hget : name = "getTodos"
      · subst hget
        rfl
      · have hget' : ("getTodos" == name) = false := by simpa using Ne.symm hget
        simp [Wiring.last?, made, add, get, Todos.addTodo, Todos.getTodos, hadd', hget']

end Switchboard
