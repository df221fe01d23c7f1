/-
  How a service numbers its calls.

  1. **Events** — `Event.Names`: an event names a call by its span, or by its fields where it stands
     in none.  A call that is measured is named by all its events (`names_measured`).

  2. **Handlers** — a slot `NotesIds` when it notes the id of the call whenever its handler runs.

  3. **Uses** — `Service.Numbered`: all that is seen of a use names one call id.  Serving a request
     and making a context for a call from inside the process each take the next id
     (`lastCallId_use`), and the id they take is the one that is seen of them (`numbered_use`).
-/
import Switchboard.Proofs.Service.CallIds

namespace Switchboard

open Http

variable {c : Contract} {ε σ : Type}

/-! ## Events -/

/-- The event belongs to a call of a service. -/
def Event.Names (service : String) (callId : Nat) (e : Event) : Prop :=
  match e.span with
  | some span => span.service = service ∧ span.callId = callId
  | none =>
    e.fields.under "service" = [.text service] ∧ e.fields.under "call_id" = [Event.count callId]

namespace Service

theorem names_rejectedEvent (callId : Nat) (e : CallError) :
    (rejectedEvent c callId e).Names c.name callId :=
  ⟨rfl, rfl⟩

/-- Every event of a call that is measured names the call, and there is one unless the handler
    panics. -/
theorem names_measured (context : CallContext) (operation : String)
    (r : Ran σ (Outcome CallError Bytes)) :
    let events := (measured c context operation r).trace.events
    (∀ e ∈ events, e.Names context.service context.callId) ∧
      ((∀ panic, r.result ≠ .panicked panic) → events ≠ []) := by
  intro events
  have hinside : ∀ span : Span, ∀ e ∈ (r.trace.within span).events,
      e.Names span.service span.callId := by
    intro span e he
    obtain ⟨inner, -, rfl⟩ := List.mem_map.1 he
    exact ⟨rfl, rfl⟩
  cases hending : ending? r.result with
  | none =>
    have hevents : events =
        (r.trace.within ⟨context.service, label c operation, context.callId, none⟩).events := by
      simp only [events, measured, hending]
    rw [hevents]
    refine ⟨hinside _, fun hcalm => ?_⟩
    cases hresult : r.result with
    | done bytes => rw [hresult] at hending; cases hending
    | failed e => rw [hresult] at hending; cases hending
    | panicked panic => exact absurd hresult (hcalm panic)
  | some ending =>
    obtain ⟨outcome, error⟩ := ending
    let span : Span := ⟨context.service, label c operation, context.callId, none⟩
    have hevents : events = (r.trace.within span).events ++
        [completion outcome error { span with outcome }] := by
      simp only [events, measured, hending]
      rfl
    rw [hevents]
    refine ⟨fun e he => ?_, fun _ => List.append_ne_nil_of_right_ne_nil _ (List.cons_ne_nil _ _)⟩
    rcases List.mem_append.1 he with he | he
    · exact hinside span e he
    · obtain rfl := List.mem_singleton.1 he
      unfold completion
      split <;> exact ⟨rfl, rfl⟩

end Service

/-! ## Handlers -/

/-- The id of the call is noted when the handler runs; without a request in the payload it does
    not. -/
def Slot.NotesIds (noted : σ → List Nat) (slot : Slot ε σ) : Prop :=
  ∀ surroundings context payload world,
    let after := noted (slot surroundings context payload world).state
    after = noted world ∨ after = noted world ++ [context.callId]

/-- The same handler, with such notes next to the world. -/
def Registration.numbered (g : Registration c ε σ) : Registration c ε (σ × List Nat) where
  op := g.op
  handler surroundings context request world :=
    let ran := g.handler surroundings context request world.1
    ⟨ran.result, (ran.state, world.2 ++ [context.callId]), ran.trace⟩

theorem Registration.notesIds_numbered (g : Registration c ε σ) :
    g.numbered.slot.NotesIds Prod.snd := by
  intro surroundings context payload world
  simp only [slot, Operation.slot, numbered]
  cases g.op.request.decode payload with
  | error fault => exact .inl rfl
  | ok request => exact .inr rfl

/-! ## Uses -/

theorem Use.callIds_cases (u : Use c ε σ) : u.callIds = 0 ∨ u.callIds = 1 := by
  cases u <;> simp [callIds]

/-- What a use shows goes with a call id: a context has the id, and an answer to a request comes
    with events. -/
def Seen.Shows (callId : Nat) (events : List Event) : Seen c → Prop
  | .context made => made.callId = callId ∧ made.service = c.name
  | .served (.answered _) => events ≠ []
  | .served _ => True
  | _ => False

namespace Service

/-- What a use of the service leaves behind under one call id: all its events name that call, and
    one handler at most has run, and has been told that id. -/
structure Numbered (s : Service c ε σ) (callId : Nat) (world : σ) (events : List Event)
    (after : σ) : Prop where
  names : ∀ e ∈ events, e.Names c.name callId
  told : ∀ noted : σ → List Nat, s.Each (Slot.NotesIds noted) →
    noted after = noted world ∨ noted after = noted world ++ [callId]

variable (s : Service c ε σ) (surroundings : ε) (world : σ)

/-- A call is told the id of its context. -/
theorem numbered_dispatch (context : CallContext) (hservice : context.service = c.name)
    (operation : String) (payload : Bytes) :
    let ran := s.dispatch surroundings context operation payload world
    s.Numbered context.callId world ran.trace.events ran.state := by
  intro ran
  constructor
  · rw [← hservice]
    exact (names_measured context operation _).1
  · intro noted each
    have hstate : ran.state = (s.perform surroundings context operation payload world).state :=
      s.state_dispatch surroundings context operation payload world
    rw [hstate, perform]
    cases c.declares operation with
    | none => exact .inl rfl
    | some declared =>
      dsimp only
      cases hslot : s.registry.slot? declared with
      | none => exact .inl rfl
      | some slot => exact each declared slot hslot surroundings context payload world

/-- A request is served under the next call id, however far it gets, and if it is answered this can
    be seen. -/
theorem numbered_serve (r : Request) :
    let ran := (s.serve surroundings r world).1
    s.Numbered (s.lastCallId + 1) world ran.trace.events ran.state ∧
      ∀ response, ran.result = .answered response → ran.trace.events ≠ [] := by
  intro ran
  rcases hp : s.prepare s.nextCallId.1 r with e | _ | ⟨context, operation, payload⟩
  · have hran : ran = _ := serve_of_refused hp
    rw [hran]
    refine ⟨⟨fun event hevent => ?_, fun _ _ => .inl rfl⟩, fun _ _ => List.cons_ne_nil _ _⟩
    obtain rfl := List.mem_singleton.1 hevent
    exact names_rejectedEvent _ e
  · have hran : ran = _ := serve_of_unfinished hp
    rw [hran]
    exact ⟨⟨nofun, fun _ _ => .inl rfl⟩, nofun⟩
  · have hran : ran = _ := serve_of_call hp
    have hcontext : context = .ofRequest (s.lastCallId + 1) c.name r := context_of_prepare hp
    rw [hran]
    refine ⟨?_, fun response hresponse => ?_⟩
    · have hnumbered :=
        s.numbered_dispatch surroundings world context (by rw [hcontext]; rfl) operation payload
      rw [hcontext] at hnumbered
      rw [hcontext]
      exact hnumbered
    · refine (names_measured context operation _).2 fun panic hpanic => ?_
      rw [Ran.result_map, result_dispatch, hpanic] at hresponse
      cases hresponse

/-- A use takes its call ids, and nothing else of a service is counted. -/
theorem lastCallId_use (u : Use c ε σ) :
    (s.use u world).service.lastCallId = s.lastCallId + u.callIds := by
  cases u <;> rfl

/-- A use that takes a call id shows the next one. -/
theorem numbered_use {u : Use c ε σ} (h : u.callIds ≠ 0) :
    let used := s.use u world
    s.Numbered (s.lastCallId + 1) world used.trace.events used.world ∧
      used.seen.Shows (s.lastCallId + 1) used.trace.events := by
  cases u with
  | localContext => exact ⟨⟨nofun, fun _ _ => .inl rfl⟩, rfl, rfl⟩
  | serve surroundings r =>
    obtain ⟨hnumbered, hanswered⟩ := s.numbered_serve surroundings world r
    refine ⟨hnumbered, ?_⟩
    show Seen.Shows _ _ (.served (s.serve surroundings r world).1.result)
    cases hresult : (s.serve surroundings r world).1.result with
    | answered response => exact hanswered response hresult
    | panicked panic => trivial
    | unfinished => trivial
  | register g => exact absurd rfl h
  | dispatch surroundings context operation payload => exact absurd rfl h
  | call surroundings context op request => exact absurd rfl h
  | registered => exact absurd rfl h
  | isRegistered name => exact absurd rfl h

end Service

end Switchboard
