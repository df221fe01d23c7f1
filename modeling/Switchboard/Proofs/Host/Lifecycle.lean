/-
  The states of a controller in use, whatever is done with it and in whatever order.

  1. **Usages** — a `Usage` is a controller with the guards that are held of it; a `Control` is one
     thing that is done with it.  `Usage.states` lists the states that are seen along a run, and
     `Usage.reopened` counts how often a host that drains or has stopped is made ready again.

  2. **Steps** — nothing but such a reopening moves the state back (`rank_le_step`), and nothing but
     it lets calls in again (`acceptsCalls_of_step`).

  3. **Runs** — the state never goes back exactly when the host is never reopened, and there is at
     most one successful trigger more than there are reopenings.  A host that serves is made ready
     whatever its state is, so serving after a trigger is such a reopening (`serve_schedule`).
-/
import Mathlib
import Switchboard.Host.Basic

namespace Switchboard.Host

/-! ## Usages -/

/-- The place of a state in the life of a host. -/
def HealthState.rank : HealthState → Nat
  | starting => 0
  | ready => 1
  | draining => 2
  | stopped => 3

/-- One thing that is done with a controller.  Guards are kept under names. -/
inductive Control where
  | setReady
  | trigger
  /-- A guard is taken.  One that is held under the name already is dropped behind it. -/
  | acquire (guard : String)
  | drop (guard : String)
  /-- A guard is given away, to be dropped after a delay. -/
  | dropLater (guard : String) (delay : Nat)
  | drain (timeout : Nat)
  deriving Repr, DecidableEq

/-- A controller in use: what is planned with it, and the names of the guards that are held. -/
structure Usage where
  schedule : Schedule := {}
  held : List String := []
  deriving Repr, DecidableEq

namespace Usage

/-- The controller that is used. -/
def controller (u : Usage) : Controller := u.schedule.controller

/-- The state of the controller. -/
def state (u : Usage) : HealthState := u.controller.state

/-- Changes the controller alone. -/
def on (u : Usage) (f : Controller → Controller) : Usage :=
  { u with schedule := { u.schedule with controller := f u.controller } }

/-- The usage after a control.  Dropping a guard that is not held does nothing. -/
def step (u : Usage) : Control → Usage
  | .setReady => u.on Controller.setReady
  | .trigger => u.on fun c => c.trigger.2
  | .acquire guard =>
    if guard ∈ u.held then u.on fun c => c.acquire.release
    else { u.on Controller.acquire with held := guard :: u.held }
  | .drop guard =>
    if guard ∈ u.held then { u.on Controller.release with held := u.held.erase guard } else u
  | .dropLater guard delay =>
    if guard ∈ u.held then { schedule := u.schedule.plan delay, held := u.held.erase guard } else u
  | .drain timeout => { u with schedule := (u.schedule.drain timeout).2 }

/-- The usage after all controls, in order. -/
def run (u : Usage) (controls : List Control) : Usage := controls.foldl step u

/-- The states that are seen before, between and after the steps of a run. -/
def states (u : Usage) : List Control → List HealthState
  | [] => [u.state]
  | c :: controls => u.state :: (u.step c).states controls

/-- Whether a step makes a host ready that drains or has stopped. -/
def Reopens (u : Usage) (c : Control) : Prop := c = .setReady ∧ u.state.acceptsCalls = false

instance (u : Usage) (c : Control) : Decidable (u.Reopens c) := inferInstanceAs (Decidable (_ ∧ _))

/-- How often a run reopens the host. -/
def reopened (u : Usage) : List Control → Nat
  | [] => 0
  | c :: controls => (if u.Reopens c then 1 else 0) + (u.step c).reopened controls

/-- How many triggers of a run are told that they have begun the shutdown. -/
def triggered (u : Usage) : List Control → Nat
  | [] => 0
  | c :: controls =>
    (if c = .trigger ∧ u.controller.trigger.1 then 1 else 0) + (u.step c).triggered controls

end Usage

/-! ## States -/

theorem HealthState.acceptsCalls_iff {s : HealthState} : s.acceptsCalls = true ↔ s.rank < 2 := by
  cases s <;> decide

/-- An announcement does not touch the state. -/
theorem Controller.announce_state (c : Controller) : c.announce.state = c.state := by
  unfold announce
  split <;> rfl

/-- A trigger is told that it has begun the shutdown exactly when calls were let in. -/
theorem Controller.trigger_fst (c : Controller) : c.trigger.1 = c.state.acceptsCalls := by
  unfold trigger
  split
  next h => exact h.symm
  next h => exact (Bool.not_eq_true _ ▸ h).symm

/-- After a trigger the host drains, or it drained or had stopped already. -/
theorem Controller.trigger_state (c : Controller) :
    c.trigger.2.state = if c.state.acceptsCalls then .draining else c.state := by
  unfold trigger
  split
  · exact announce_state _
  · rfl

/-- A drain stops the host or leaves its state alone. -/
theorem Schedule.drain_state (s : Schedule) (timeout : Nat) :
    (s.drain timeout).2.controller.state = s.controller.state ∨
      (s.drain timeout).2.controller.state = .stopped := by
  unfold drain
  split
  · exact .inr rfl
  · dsimp only
    split
    · exact .inr rfl
    · exact .inl rfl

namespace Usage

/-! ## Steps -/

/-- What one step makes of the state. -/
theorem step_state (u : Usage) (c : Control) :
    (c = .setReady ∧ (u.step c).state = .ready) ∨
    (c = .trigger ∧ (u.step c).state = if u.state.acceptsCalls then .draining else u.state) ∨
    (c ≠ .setReady ∧ c ≠ .trigger ∧
      ((u.step c).state = u.state ∨ (u.step c).state = .stopped)) := by
  cases c with
  | setReady => exact .inl ⟨rfl, rfl⟩
  | trigger => exact .inr (.inl ⟨rfl, u.controller.trigger_state⟩)
  | acquire guard =>
    refine .inr (.inr ⟨nofun, nofun, .inl ?_⟩)
    rw [step]
    split <;> rfl
  | drop guard =>
    refine .inr (.inr ⟨nofun, nofun, .inl ?_⟩)
    rw [step]
    split <;> rfl
  | dropLater guard delay =>
    refine .inr (.inr ⟨nofun, nofun, .inl ?_⟩)
    rw [step]
    split <;> rfl
  | drain timeout => exact .inr (.inr ⟨nofun, nofun, u.schedule.drain_state timeout⟩)

/-- No step but a reopening moves the state back. -/
theorem rank_le_step {u : Usage} {c : Control} (h : ¬u.Reopens c) :
    u.state.rank ≤ (u.step c).state.rank := by
  rcases u.step_state c with ⟨rfl, hready⟩ | ⟨rfl, htrigger⟩ | ⟨-, -, hsame | hstopped⟩
  · have haccepts : u.state.acceptsCalls = true := by
      cases hs : u.state.acceptsCalls with
      | true => rfl
      | false => exact absurd ⟨rfl, hs⟩ h
    have hrank : u.state.rank < 2 := HealthState.acceptsCalls_iff.1 haccepts
    rw [hready]
    exact Nat.le_of_lt_succ hrank
  · rw [htrigger]
    split
    next haccepts => exact Nat.le_of_lt (HealthState.acceptsCalls_iff.1 haccepts)
    next => exact Nat.le_refl _
  · exact Nat.le_of_eq (congrArg _ hsame.symm)
  · rw [hstopped]
    cases u.state <;> decide

/-- A reopening moves it back. -/
theorem step_rank_lt {u : Usage} {c : Control} (h : u.Reopens c) :
    (u.step c).state.rank < u.state.rank := by
  obtain ⟨rfl, hrefuses⟩ := h
  have hrank : ¬u.state.rank < 2 := by
    rw [← HealthState.acceptsCalls_iff, hrefuses]
    exact Bool.false_ne_true
  show 1 < u.state.rank
  omega

/-- Calls are let in behind a step only if they were before it, or the host has just been made
    ready. -/
theorem acceptsCalls_of_step {u : Usage} {c : Control} (hc : c ≠ .setReady)
    (h : (u.step c).state.acceptsCalls = true) : u.state.acceptsCalls = true := by
  have hrank : u.state.rank ≤ (u.step c).state.rank := rank_le_step fun hr => hc hr.1
  rw [HealthState.acceptsCalls_iff] at h ⊢
  exact Nat.lt_of_le_of_lt hrank h

/-! ## Runs -/

/-- The first state of a run that never goes back is the least. -/
theorem rank_le_of_forward {u : Usage} {controls : List Control}
    (h : (u.states controls).Pairwise fun s t => s.rank ≤ t.rank) :
    ∀ s ∈ u.states controls, u.state.rank ≤ s.rank := by
  intro s hs
  cases controls with
  | nil =>
    obtain rfl := List.mem_singleton.1 hs
    exact Nat.le_refl _
  | cons c controls =>
    rcases List.mem_cons.1 hs with rfl | hs
    · exact Nat.le_refl _
    · exact (List.pairwise_cons.1 h).1 s hs

theorem state_mem_states (u : Usage) (controls : List Control) : u.state ∈ u.states controls := by
  cases controls with
  | nil => exact List.mem_singleton.2 rfl
  | cons c controls => exact List.mem_cons_self

/-- The states of a run never go back exactly when none of its steps is a reopening. -/
theorem forward_iff_reopened_eq_zero (u : Usage) (controls : List Control) :
    ((u.states controls).Pairwise fun s t => s.rank ≤ t.rank) ↔ u.reopened controls = 0 := by
  induction controls generalizing u with
  | nil => exact ⟨fun _ => rfl, fun _ => List.pairwise_singleton _ _⟩
  | cons c controls ih =>
    rw [states, reopened, List.pairwise_cons, ih, Nat.add_eq_zero_iff]
    refine and_congr_left fun hrest => ?_
    have hforward := (ih (u.step c)).2 hrest
    by_cases hr : u.Reopens c
    · rw [if_pos hr]
      refine ⟨fun hleast => ?_, nofun⟩
      have hle := hleast _ ((u.step c).state_mem_states controls)
      exact absurd hle (Nat.not_le_of_lt (step_rank_lt hr))
    · rw [if_neg hr]
      exact ⟨fun _ => rfl,
        fun _ s hs => Nat.le_trans (rank_le_step hr) (rank_le_of_forward hforward s hs)⟩

/-- Every successful trigger but the first stands behind a reopening.  A host that lets no calls in
    at the start needs one for the first as well. -/
theorem triggered_le_reopened_add (u : Usage) (controls : List Control) :
    u.triggered controls ≤ u.reopened controls + if u.state.acceptsCalls then 1 else 0 := by
  induction controls generalizing u with
  | nil => exact Nat.zero_le _
  | cons c controls ih =>
    have hrest := ih (u.step c)
    rw [triggered, reopened, u.controller.trigger_fst]
    change (if c = .trigger ∧ u.state.acceptsCalls = true then 1 else 0) + _ ≤ _
    rcases u.step_state c with ⟨rfl, hready⟩ | ⟨rfl, htrigger⟩ | ⟨hready, htrigger, -⟩
    · -- A host that is made ready lets calls in: either it did before, or this is a reopening.
      rw [hready] at hrest
      replace hrest : _ ≤ _ + 1 := hrest
      rw [if_neg (fun h => nomatch h.1)]
      cases haccepts : u.state.acceptsCalls with
      | true =>
        rw [if_neg (fun h : u.Reopens .setReady => nomatch haccepts.symm.trans h.2), if_pos rfl]
        omega
      | false =>
        rw [if_pos (show u.Reopens .setReady from ⟨rfl, haccepts⟩), if_neg Bool.false_ne_true]
        omega
    · -- Behind a trigger no calls are let in.
      rw [if_neg (fun h : u.Reopens .trigger => nomatch h.1)]
      cases haccepts : u.state.acceptsCalls with
      | true =>
        rw [htrigger, haccepts] at hrest
        replace hrest : _ ≤ _ + 0 := hrest
        rw [if_pos ⟨rfl, rfl⟩, if_pos rfl]
        omega
      | false =>
        rw [htrigger, haccepts, if_neg Bool.false_ne_true, haccepts] at hrest
        rw [if_neg (fun h => nomatch h.2)]
        omega
    · -- No other step lets calls in.
      rw [if_neg (fun h => htrigger h.1), if_neg (fun h => hready h.1)]
      by_cases haccepts : (u.step c).state.acceptsCalls = true
      · rw [if_pos haccepts] at hrest
        rw [if_pos (acceptsCalls_of_step hready haccepts)]
        omega
      · rw [if_neg haccepts] at hrest
        omega

/-- **Forward.**  The states that are seen along a run never go back exactly when the host is never
    made ready while it drains or after it has stopped, and at most one trigger more than there are
    such reopenings is told that it has begun the shutdown. -/
theorem states_forward_iff (u : Usage) (controls : List Control) :
    (((u.states controls).Pairwise fun s t => s.rank ≤ t.rank) ↔ u.reopened controls = 0) ∧
      u.triggered controls ≤ u.reopened controls + 1 := by
  refine ⟨u.forward_iff_reopened_eq_zero controls,
    Nat.le_trans (u.triggered_le_reopened_add controls) ?_⟩
  split <;> omega

/-- A host that is made ready after a trigger goes back, and a second trigger succeeds. -/
theorem trigger_setReady_trigger :
    let controls : List Control := [.trigger, .setReady, .trigger]
    ({} : Usage).states controls = [.starting, .draining, .ready, .draining] ∧
      ({} : Usage).triggered controls = 2 ∧
      ¬∀ controls : List Control,
        ((({} : Usage).states controls).Pairwise fun s t => s.rank ≤ t.rank) ∧
          ({} : Usage).triggered controls ≤ 1 := by
  intro controls
  have htwo : ({} : Usage).triggered controls = 2 := by decide
  refine ⟨by decide, htwo, fun hall => ?_⟩
  have hone := (hall controls).2
  rw [htwo] at hone
  exact absurd hone (by decide)

end Usage

/-! ## Serving -/

/-- What a host that serves does with its controller when the shutdown is signalled already. -/
def servingControls : List Control := [.setReady, .trigger, .drain drainTimeout]

/-- Serving is a run of these steps, and what is planned with the controller goes on meanwhile. -/
theorem serve_schedule {σ : Type} {h : Host σ} (hbound : h.bound = true) {u : Usage}
    (hu : h.controller = u.controller) :
    (h.serve u.schedule.now u.schedule.endings).2.2.1 = (u.run servingControls).schedule := by
  rw [serve, if_pos hbound]
  show (Schedule.drain ⟨h.controller.setReady.trigger.2, u.schedule.now, u.schedule.endings⟩
    drainTimeout).2 = _
  rw [hu]
  rfl

/-- The schedule that comes out of serving is about the controller that does. -/
theorem serve_controller {σ : Type} (h : Host σ) (now : Nat) (endings : List Nat) :
    (h.serve now endings).2.2.2.controller = (h.serve now endings).2.2.1.controller := by
  rw [serve]
  split <;> rfl

end Switchboard.Host
