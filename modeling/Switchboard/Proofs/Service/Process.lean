/-
  A process: services of one contract, and the handles through which they are used.

  1. **Uses** — a `Use` is anything that can be done with a service, and `Service.use` does it: it
     shows something, leaves a service and a world behind, and adds to the log and the metrics.

  2. **Process** — a service is made with a handle, and a handle can be cloned.  All handles of a
     service reach the same service, so a clone is one more entry in the list of handles.
     `Process.step` is one act and `Process.run` a sequence of acts.

  3. **History** — `Process.history` lists the uses of a run, each with the service and the world it
     found.

  4. **Invariant** — `Process.Built`: every service is what the registrations through its handles
     have made of it (`built_run`), whatever else went on between them.
-/
import Switchboard.Proofs.Service.Dispatch

namespace Switchboard

open Http

variable {c : Contract} {ε σ : Type}

/-! ## Uses -/

/-- One use of a service. -/
inductive Use (c : Contract) (ε σ : Type) : Type 1 where
  | register (g : Registration c ε σ)
  | localContext
  | serve (surroundings : ε) (request : Request)
  | dispatch (surroundings : ε) (context : CallContext) (operation : String) (payload : Bytes)
  | call (surroundings : ε) (context : CallContext) (op : Operation c) (request : op.Request)
  | registered
  | isRegistered (name : String)

/-- What a use shows to the one who makes it. -/
inductive Seen (c : Contract) : Type 1 where
  | accepted
  | context (context : CallContext)
  | served (ending : Service.Served)
  | dispatched (outcome : Outcome CallError Bytes)
  | called (op : Operation c) (outcome : Outcome CallError op.Response)
  | names (names : List String)
  | truth (b : Bool)

/-- How a use has ended. -/
structure Used (c : Contract) (ε σ : Type) : Type 1 where
  seen : Seen c
  service : Service c ε σ
  world : σ
  trace : Trace

/-- The registration that a use makes. -/
def Use.registration? : Use c ε σ → Option (Registration c ε σ)
  | .register g => some g
  | _ => none

/-- How many call ids a use takes. -/
def Use.callIds : Use c ε σ → Nat
  | .localContext | .serve .. => 1
  | _ => 0

namespace Service

/-- Uses a service. -/
def use (s : Service c ε σ) (u : Use c ε σ) (world : σ) : Used c ε σ :=
  match u with
  | .register g =>
    ⟨.accepted, s.register g.op g.handler, world, .event (registeredEvent c g.op.name)⟩
  | .localContext => ⟨.context s.localContext.1, s.localContext.2, world, {}⟩
  | .serve surroundings r =>
    let (ran, after) := s.serve surroundings r world
    ⟨.served ran.result, after, ran.state, ran.trace⟩
  | .dispatch surroundings context operation payload =>
    let ran := s.dispatch surroundings context operation payload world
    ⟨.dispatched ran.result, s, ran.state, ran.trace⟩
  | .call surroundings context op request =>
    let ran := s.call surroundings context op request world
    ⟨.called op ran.result, s, ran.state, ran.trace⟩
  | .registered => ⟨.names s.registry.registered, s, world, {}⟩
  | .isRegistered name => ⟨.truth (s.registry.isRegistered name), s, world, {}⟩

/-- A use adds its registration, if it makes one, and takes its call ids.  Nothing else of the
    service changes. -/
theorem use_service (w : Wiring c ε σ) (config : DispatchConfig) (lastCallId : Nat) (u : Use c ε σ)
    (world : σ) :
    ((w.service config lastCallId).use u world).service =
      Wiring.service (w ++ u.registration?.toList) config (lastCallId + u.callIds) := by
  cases u with
  | register g =>
    simp only [use, register, Use.registration?, Use.callIds, Option.toList_some, Nat.add_zero,
      Wiring.service, Wiring.registry_concat]
  | localContext =>
    simp [use, Use.registration?, Use.callIds, localContext, nextCallId, Wiring.service]
  | serve surroundings r =>
    simp [use, Use.registration?, Use.callIds, serve, nextCallId, Wiring.service]
  | dispatch surroundings context operation payload => simp [use, Use.registration?, Use.callIds]
  | call surroundings context op request => simp [use, Use.registration?, Use.callIds]
  | registered => simp [use, Use.registration?, Use.callIds]
  | isRegistered name => simp [use, Use.registration?, Use.callIds]

end Service

/-! ## The process -/

/-- The services of a process, each behind any number of handles, and what their uses leave. -/
structure Process (c : Contract) (ε σ : Type) where
  services : List (Service c ε σ)
  /-- The number of the service that each handle belongs to. -/
  handles : List Nat
  world : σ
  /-- What has been logged and measured. -/
  trace : Trace := {}

/-- One act in a process. -/
inductive Act (c : Contract) (ε σ : Type) : Type 1 where
  | create (config : DispatchConfig)
  | clone (handle : Nat)
  | use (handle : Nat) (u : Use c ε σ)

/-- A use of a service, with what it finds. -/
structure Occurrence (c : Contract) (ε σ : Type) : Type 1 where
  number : Nat
  service : Service c ε σ
  use : Use c ε σ
  world : σ

/-- What the use gives and leaves behind. -/
def Occurrence.used (o : Occurrence c ε σ) : Used c ε σ := o.service.use o.use o.world

namespace Process

/-- A process without a service. -/
def start (world : σ) : Process c ε σ := ⟨[], [], world, {}⟩

/-- The use through a handle, if there is such a handle. -/
def begun? (p : Process c ε σ) : Act c ε σ → Option (Occurrence c ε σ)
  | .use handle u =>
    p.handles[handle]?.bind fun i => p.services[i]?.map fun s => ⟨i, s, u, p.world⟩
  | _ => none

/-- The process after a use. -/
def after (p : Process c ε σ) (o : Occurrence c ε σ) : Process c ε σ :=
  { p with
    services := p.services.set o.number o.used.service
    world := o.used.world
    trace := p.trace ++ o.used.trace }

/-- The process after an act.  A handle that does not exist does nothing. -/
def step (p : Process c ε σ) (act : Act c ε σ) : Process c ε σ :=
  match act with
  | .create config =>
    { p with services := p.services ++ [{ config }], handles := p.handles ++ [p.services.length] }
  | .clone handle => { p with handles := p.handles ++ p.handles[handle]?.toList }
  | .use .. => ((p.begun? act).map p.after).getD p

/-- The process after all acts, in order. -/
def run (p : Process c ε σ) (acts : List (Act c ε σ)) : Process c ε σ := acts.foldl step p

/-- The uses of a run, in order. -/
def history (p : Process c ε σ) : List (Act c ε σ) → List (Occurrence c ε σ)
  | [] => []
  | act :: acts => (p.begun? act).toList ++ (p.step act).history acts

/-- The registrations that a run makes at a service, through whatever handle. -/
def registrations (p : Process c ε σ) (number : Nat) (acts : List (Act c ε σ)) : Wiring c ε σ :=
  (p.history acts).filterMap fun o => if o.number = number then o.use.registration? else none

/-! ## Steps and runs -/

@[simp] theorem run_nil (p : Process c ε σ) : p.run [] = p := rfl

@[simp] theorem run_cons (p : Process c ε σ) (act : Act c ε σ) (acts : List (Act c ε σ)) :
    p.run (act :: acts) = (p.step act).run acts := rfl

/-- What an act does, when it is a use of a service that is there. -/
theorem begun?_eq_some {p : Process c ε σ} {act : Act c ε σ} {o : Occurrence c ε σ}
    (h : p.begun? act = some o) :
    (∃ handle, act = .use handle o.use ∧ p.handles[handle]? = some o.number) ∧
      p.services[o.number]? = some o.service ∧ o.world = p.world ∧ p.step act = p.after o := by
  cases act with
  | create config => cases h
  | clone handle => cases h
  | use handle u =>
    have hstep : p.step (.use handle u) = p.after o := by rw [step, h]; rfl
    obtain ⟨i, hi, h⟩ := Option.bind_eq_some_iff.1 h
    obtain ⟨s, hs, rfl⟩ := Option.map_eq_some_iff.1 h
    exact ⟨⟨handle, rfl, hi⟩, hs, rfl, hstep⟩

/-- A use adds what it logs and measures to the trace, and no other act adds anything. -/
theorem trace_step (p : Process c ε σ) (act : Act c ε σ) :
    (p.step act).trace = ((p.begun? act).map fun o => p.trace ++ o.used.trace).getD p.trace := by
  cases act with
  | create config => rfl
  | clone handle => rfl
  | use handle u =>
    rw [step]
    cases p.begun? (.use handle u) <;> rfl

/-! ## What the services are made of -/

/-- Every service is what a wiring makes of it, and there is no wiring without a service. -/
structure Built (p : Process c ε σ) (wirings : Nat → Wiring c ε σ) : Prop where
  service : ∀ {i s}, p.services[i]? = some s →
    ∃ config lastCallId, s = (wirings i).service config lastCallId
  absent : ∀ {i}, p.services.length ≤ i → wirings i = []

theorem Built.start (world : σ) : (start (c := c) (ε := ε) world).Built fun _ => [] :=
  ⟨fun h => by simp [Process.start] at h, fun _ => rfl⟩

/-- An act adds the registration that it makes to the wiring of the service it is made at. -/
theorem Built.step {p : Process c ε σ} {wirings : Nat → Wiring c ε σ} (h : p.Built wirings)
    (act : Act c ε σ) : (p.step act).Built fun i => wirings i ++ p.registrations i [act] := by
  cases hbegun : p.begun? act with
  | none =>
    have hnone : ∀ i, p.registrations i [act] = [] := by
      intro i
      simp [registrations, history, hbegun]
    simp only [hnone, List.append_nil]
    cases act with
    | create config =>
      refine ⟨?_, ?_⟩
      · intro i s hs
        rw [Process.step, List.getElem?_append] at hs
        split at hs
        · exact h.service hs
        · next hlen =>
          -- The new service has no registrations yet.
          obtain ⟨-, rfl⟩ := List.getElem?_eq_some_iff.1 hs
          rw [h.absent (Nat.le_of_not_lt hlen)]
          exact ⟨config, 0, by simp [Wiring.service, Wiring.registry]⟩
      · intro i hi
        refine h.absent (Nat.le_trans ?_ hi)
        rw [Process.step, List.length_append]
        exact Nat.le_add_right _ _
    | clone handle => exact ⟨h.service, h.absent⟩
    | use handle u =>
      have hstep : p.step (.use handle u) = p := by rw [Process.step, hbegun]; rfl
      rw [hstep]
      exact h
  | some o =>
    obtain ⟨-, hservice, -, hstep⟩ := begun?_eq_some hbegun
    have hmade : ∀ i, p.registrations i [act] =
        if o.number = i then o.use.registration?.toList else [] := by
      intro i
      simp only [registrations, history, hbegun, Option.toList_some,
        List.append_nil, List.filterMap_cons, List.filterMap_nil]
      by_cases hi : o.number = i
      · rw [if_pos hi, if_pos hi]
        cases o.use.registration? <;> rfl
      · rw [if_neg hi, if_neg hi]
    rw [hstep]
    refine ⟨?_, ?_⟩
    · intro i s hs
      rw [hmade]
      by_cases hi : o.number = i
      · subst hi
        rw [if_pos rfl]
        obtain ⟨config, lastCallId, hbefore⟩ := h.service hservice
        have hlen : o.number < p.services.length := (List.getElem?_eq_some_iff.1 hservice).1
        rw [after, List.getElem?_set_self hlen] at hs
        obtain rfl := Option.some.inj hs
        exact ⟨config, lastCallId + o.use.callIds,
          by rw [Occurrence.used, hbefore, Service.use_service]⟩
      · rw [if_neg hi, List.append_nil]
        rw [after, List.getElem?_set_ne hi] at hs
        exact h.service hs
    · intro i hi
      have hlen : o.number < p.services.length := (List.getElem?_eq_some_iff.1 hservice).1
      rw [after, List.length_set] at hi
      rw [hmade, if_neg (by omega), List.append_nil]
      exact h.absent hi

theorem registrations_cons (p : Process c ε σ) (number : Nat) (act : Act c ε σ)
    (acts : List (Act c ε σ)) :
    p.registrations number (act :: acts) =
      p.registrations number [act] ++ (p.step act).registrations number acts := by
  simp only [registrations, history, List.append_nil, List.filterMap_append]

theorem Built.run {p : Process c ε σ} {wirings : Nat → Wiring c ε σ} (h : p.Built wirings)
    (acts : List (Act c ε σ)) :
    (p.run acts).Built fun i => wirings i ++ p.registrations i acts := by
  induction acts generalizing p wirings with
  | nil =>
    have hnil : ∀ i, p.registrations i [] = [] := fun i => rfl
    simp only [hnil, List.append_nil, run_nil]
    exact h
  | cons act acts ih =>
    have hrest := ih (h.step act)
    simp only [List.append_assoc, ← registrations_cons] at hrest
    exact hrest

/-- **What a service is.**  In every run a service is what the registrations through its handles
    make of it, in their order. -/
theorem built_run (world : σ) (acts : List (Act c ε σ)) :
    ((start world).run acts).Built fun i => (start world).registrations i acts := by
  have h := (Built.start (c := c) (ε := ε) world).run acts
  simp only [List.nil_append] at h
  exact h

/-- Every use of a run finds such a service. -/
theorem service_of_mem_history {p : Process c ε σ} {wirings : Nat → Wiring c ε σ}
    (h : p.Built wirings)
    {acts : List (Act c ε σ)} {o : Occurrence c ε σ} (ho : o ∈ p.history acts) :
    ∃ w : Wiring c ε σ, ∃ config lastCallId, o.service = w.service config lastCallId := by
  induction acts generalizing p wirings with
  | nil => cases ho
  | cons act acts ih =>
    rw [history, List.mem_append] at ho
    rcases ho with ho | ho
    · rw [Option.mem_toList] at ho
      obtain ⟨-, hservice, -, -⟩ := begun?_eq_some ho
      obtain ⟨config, lastCallId, hs⟩ := h.service hservice
      exact ⟨_, config, lastCallId, hs⟩
    · exact ih (h.step act) ho

end Process

end Switchboard
