/-
  Drains that wait while others use their controller.

  1. **Moments** — a drain waits in a loop: it looks at the count, and if calls are in flight it
     sleeps until the last guard is dropped or its time is up.  A `Moment` is the smallest thing
     that happens to a controller on which any number of drains wait, so others may take and drop
     guards between two looks of a drain, also behind the one that has woken it.

  2. **Steps** — only a look of a drain stops the host, or completes a drain (`step_cases`).

  3. **Runs** — a drain is completed just when it sees no call in flight at one of its looks
     (`completed_run`).  If it never does, the controller is as if the drain had not been there
     (`Agree.run`).  `drain_outcome` puts these together.
-/
import Mathlib.Logic.Function.Basic
import Switchboard.Proofs.Host.Lifecycle

namespace Switchboard.Host

/-! ## Moments -/

/-- How far a drain has come. -/
inductive Progress where
  | asleep
  | woken
  | ended (complete : Bool)
  deriving Repr, DecidableEq

/-- The smallest thing that happens to a controller on which drains wait.  Drains have numbers. -/
inductive Moment where
  | setReady
  | trigger
  | acquire
  /-- A guard is dropped. -/
  | release
  /-- A drain begins, and looks. -/
  | begin (drain : Nat)
  /-- A drain that has been woken looks again. -/
  | look (drain : Nat)
  /-- The time of a drain that sleeps is up. -/
  | expire (drain : Nat)
  deriving Repr, DecidableEq

/-- The drain that a moment belongs to. -/
def Moment.drain? : Moment → Option Nat
  | .begin drain | .look drain | .expire drain => some drain
  | _ => none

/-- A controller, and the drains that have begun to wait on it. -/
structure Waiting where
  controller : Controller
  drains : Nat → Option Progress := fun _ => none

namespace Waiting

/-- Notes how far a drain has come. -/
def mark (w : Waiting) (drain : Nat) (progress : Progress) : Waiting :=
  { w with drains := Function.update w.drains drain (some progress) }

/-- The host has stopped. -/
def halt (w : Waiting) : Waiting := { w with controller := { w.controller with state := .stopped } }

/-- A drain looks: without calls in flight the host has stopped, and otherwise it goes to sleep. -/
def check (w : Waiting) (drain : Nat) : Waiting :=
  if w.controller.inFlight = 0 then w.halt.mark drain (.ended true) else w.mark drain .asleep

/-- Wakes every drain that sleeps. -/
def wake (drains : Nat → Option Progress) (drain : Nat) : Option Progress :=
  if drains drain = some .asleep then some .woken else drains drain

/-- The controller and its drains after a moment.  A moment that a drain is not ready for does
    nothing. -/
def step (w : Waiting) : Moment → Waiting
  | .setReady => { w with controller := w.controller.setReady }
  | .trigger => { w with controller := w.controller.trigger.2 }
  | .acquire => { w with controller := w.controller.acquire }
  | .release =>
    ⟨w.controller.release, if w.controller.inFlight = 1 then wake w.drains else w.drains⟩
  | .begin drain => if w.drains drain = none then w.check drain else w
  | .look drain => if w.drains drain = some .woken then w.check drain else w
  | .expire drain => if w.drains drain = some .asleep then w.mark drain (.ended false) else w

/-- The controller and its drains after all moments, in order. -/
def run (w : Waiting) (moments : List Moment) : Waiting := moments.foldl step w

/-- A drain looks at the count in this moment. -/
def Looks (w : Waiting) (drain : Nat) (m : Moment) : Prop :=
  m = .begin drain ∧ w.drains drain = none ∨ m = .look drain ∧ w.drains drain = some .woken

instance (w : Waiting) (drain : Nat) (m : Moment) : Decidable (w.Looks drain m) :=
  inferInstanceAs (Decidable (_ ∨ _))

/-- The counts that a drain sees at its looks. -/
def counts (w : Waiting) (drain : Nat) : List Moment → List Nat
  | [] => []
  | m :: moments =>
    (if w.Looks drain m then [w.controller.inFlight] else []) ++ (w.step m).counts drain moments

/-- The drain has found no call in flight. -/
def Completed (w : Waiting) (drain : Nat) : Prop := w.drains drain = some (.ended true)

/-! ## Steps -/

section Steps

variable {w : Waiting} {drain : Nat}

theorem completed_mark (w : Waiting) (drain other : Nat) (progress : Progress) :
    (w.mark other progress).Completed drain ↔
      if drain = other then progress = .ended true else w.Completed drain := by
  show Function.update w.drains other (some progress) drain = some (.ended true) ↔ _
  rw [Function.update_apply]
  split
  · exact ⟨Option.some.inj, congrArg some⟩
  · exact Iff.rfl

theorem check_of_idle (h : w.controller.inFlight = 0) :
    w.check drain = w.halt.mark drain (.ended true) := if_pos h

theorem check_of_busy (h : w.controller.inFlight ≠ 0) : w.check drain = w.mark drain .asleep :=
  if_neg h

/-- Waking completes no drain. -/
theorem wake_eq_ended (drains : Nat → Option Progress) (drain : Nat) :
    wake drains drain = some (.ended true) ↔ drains drain = some (.ended true) := by
  unfold wake
  split
  next hasleep =>
    rw [hasleep]
    exact ⟨nofun, nofun⟩
  next => exact Iff.rfl

theorem Looks.unique {other : Nat} {m : Moment} (h : w.Looks drain m) (hother : w.Looks other m) :
    drain = other := by
  rcases h with ⟨rfl, -⟩ | ⟨rfl, -⟩
  · rcases hother with ⟨he, -⟩ | ⟨he, -⟩
    · cases he
      rfl
    · cases he
  · rcases hother with ⟨he, -⟩ | ⟨he, -⟩
    · cases he
    · cases he
      rfl

/-- A drain that looks has not ended. -/
theorem Looks.not_completed {m : Moment} (h : w.Looks drain m) : ¬w.Completed drain := by
  intro hcompleted
  rw [Completed] at hcompleted
  rcases h with ⟨-, h⟩ | ⟨-, h⟩
  · rw [h] at hcompleted
    cases hcompleted
  · rw [h] at hcompleted
    cases hcompleted

end Steps

/-- In every moment either a drain looks, or no drain is completed and the host does not come to a
    stop. -/
theorem step_cases (w : Waiting) (m : Moment) :
    (∃ drain, w.Looks drain m ∧ w.step m = w.check drain) ∨
      (∀ drain, ¬w.Looks drain m) ∧
        ((w.step m).controller.state = .stopped → w.controller.state = .stopped) ∧
        ∀ drain, (w.step m).Completed drain ↔ w.Completed drain := by
  cases m with
  | setReady => exact .inr ⟨by simp [Looks], nofun, fun _ => Iff.rfl⟩
  | trigger =>
    refine .inr ⟨by simp [Looks], fun hstopped => ?_, fun _ => Iff.rfl⟩
    rw [step, Controller.trigger_state] at hstopped
    split at hstopped
    · cases hstopped
    · exact hstopped
  | acquire => exact .inr ⟨by simp [Looks], id, fun _ => Iff.rfl⟩
  | release =>
    refine .inr ⟨by simp [Looks], id, fun drain => ?_⟩
    rw [Completed, step]
    dsimp only
    split
    · exact wake_eq_ended w.drains drain
    · exact Iff.rfl
  | begin drain =>
    by_cases hnew : w.drains drain = none
    · exact .inl ⟨drain, .inl ⟨rfl, hnew⟩, if_pos hnew⟩
    · have hstep : w.step (.begin drain) = w := if_neg hnew
      rw [hstep]
      refine .inr ⟨fun other hlooks => ?_, id, fun _ => Iff.rfl⟩
      rcases hlooks with ⟨he, hnone⟩ | ⟨he, -⟩
      · cases he
        exact hnew hnone
      · cases he
  | look drain =>
    by_cases hwoken : w.drains drain = some .woken
    · exact .inl ⟨drain, .inr ⟨rfl, hwoken⟩, if_pos hwoken⟩
    · have hstep : w.step (.look drain) = w := if_neg hwoken
      rw [hstep]
      refine .inr ⟨fun other hlooks => ?_, id, fun _ => Iff.rfl⟩
      rcases hlooks with ⟨he, -⟩ | ⟨he, hwoken'⟩
      · cases he
      · cases he
        exact hwoken hwoken'
  | expire drain =>
    refine .inr ⟨by simp [Looks], ?_, fun other => ?_⟩
    · rw [step]
      split <;> exact id
    · rw [step]
      split
      next hasleep =>
        -- The drain ends, but it is not completed.
        rw [completed_mark]
        split
        next hsame =>
          rw [hsame, Completed, hasleep]
          exact ⟨nofun, nofun⟩
        next => exact Iff.rfl
      next => exact Iff.rfl

/-- The host comes to a stop only when a drain looks and no call is in flight. -/
theorem looks_of_stopped {w : Waiting} {m : Moment} (hbefore : w.controller.state ≠ .stopped)
    (hafter : (w.step m).controller.state = .stopped) :
    (∃ drain, w.Looks drain m) ∧ w.controller.inFlight = 0 ∧
      (w.step m).controller.inFlight = 0 := by
  rcases w.step_cases m with ⟨drain, hlooks, hstep⟩ | ⟨-, hstopped, -⟩
  · refine ⟨⟨drain, hlooks⟩, ?_⟩
    by_cases hidle : w.controller.inFlight = 0
    · rw [hstep, check_of_idle hidle]
      exact ⟨hidle, hidle⟩
    · rw [hstep, check_of_busy hidle] at hafter
      exact absurd hafter hbefore
  · exact absurd (hstopped hafter) hbefore

/-- A drain is completed in a moment just when it looks and no call is in flight. -/
theorem completed_step (w : Waiting) (drain : Nat) (m : Moment) :
    (w.step m).Completed drain ↔ w.Completed drain ∨ w.Looks drain m ∧
      w.controller.inFlight = 0 := by
  rcases w.step_cases m with ⟨looking, hlooks, hstep⟩ | ⟨hquiet, -, hcompleted⟩
  · rw [hstep]
    by_cases hidle : w.controller.inFlight = 0
    · rw [check_of_idle hidle, completed_mark]
      by_cases hsame : drain = looking
      · subst hsame
        rw [if_pos rfl]
        exact ⟨fun _ => .inr ⟨hlooks, hidle⟩, fun _ => rfl⟩
      · rw [if_neg hsame, or_iff_left fun h => hsame (h.1.unique hlooks)]
        exact Iff.rfl
    · rw [check_of_busy hidle, completed_mark, or_iff_left fun h => hidle h.2]
      by_cases hsame : drain = looking
      · subst hsame
        rw [if_pos rfl]
        exact ⟨nofun, fun h => absurd h hlooks.not_completed⟩
      · rw [if_neg hsame]
  · rw [hcompleted, or_iff_left fun h => hquiet drain h.1]

/-- A drain that is completed leaves a host that has stopped. -/
theorem stopped_of_completed {w : Waiting} {drain : Nat} {m : Moment} (hbefore : ¬w.Completed drain)
    (hafter : (w.step m).Completed drain) :
    w.controller.inFlight = 0 ∧
      (w.step m).controller = { w.controller with state := .stopped } := by
  obtain ⟨hlooks, hidle⟩ := ((w.completed_step drain m).1 hafter).resolve_left hbefore
  rcases w.step_cases m with ⟨looking, -, hstep⟩ | ⟨hquiet, -⟩
  · rw [hstep, check_of_idle hidle]
    exact ⟨hidle, rfl⟩
  · exact absurd hlooks (hquiet drain)

/-! ## Runs -/

theorem run_append (w : Waiting) (first second : List Moment) :
    w.run (first ++ second) = (w.run first).run second := List.foldl_append

/-- A drain is completed along a run just when it sees a count of zero. -/
theorem completed_run (w : Waiting) (drain : Nat) (moments : List Moment) :
    (w.run moments).Completed drain ↔ w.Completed drain ∨ 0 ∈ w.counts drain moments := by
  induction moments generalizing w with
  | nil => exact ⟨.inl, fun h => h.resolve_right nofun⟩
  | cons m moments ih =>
    show ((w.step m).run moments).Completed drain ↔ _
    rw [ih, completed_step, counts, List.mem_append, or_assoc]
    refine or_congr_right (or_congr_left ?_)
    by_cases hlooks : w.Looks drain m
    · rw [if_pos hlooks, List.mem_singleton, and_iff_right hlooks, eq_comm]
    · rw [if_neg hlooks]
      exact ⟨fun h => absurd h.1 hlooks, nofun⟩

/-- Two controllers with drains are the same but for one drain. -/
structure Agree (drain : Nat) (w v : Waiting) : Prop where
  controller : w.controller = v.controller
  drains : ∀ other, other ≠ drain → w.drains other = v.drains other

theorem Agree.mark {drain : Nat} {w v : Waiting} (h : Agree drain w v) (other : Nat)
    (progress : Progress) :
    Agree drain (w.mark other progress) (v.mark other progress) := by
  refine ⟨h.controller, fun k hk => ?_⟩
  show Function.update w.drains other (some progress) k =
    Function.update v.drains other (some progress) k
  rw [Function.update_apply, Function.update_apply, h.drains k hk]

theorem Agree.mark_own {drain : Nat} {w v : Waiting} (h : Agree drain w v) (progress : Progress) :
    Agree drain (w.mark drain progress) v :=
  ⟨h.controller, fun k hk => (Function.update_of_ne hk _ _).trans (h.drains k hk)⟩

/-- Looking, they see the same. -/
theorem Agree.check {drain : Nat} {w v : Waiting} (h : Agree drain w v) (other : Nat) :
    Agree drain (w.check other) (v.check other) := by
  have halted : Agree drain w.halt v.halt :=
    ⟨congrArg (fun c : Controller => { c with state := .stopped }) h.controller, h.drains⟩
  rw [Waiting.check, Waiting.check, h.controller]
  split
  · exact halted.mark other _
  · exact h.mark other _

/-- What does not belong to the drain is the same for both. -/
theorem Agree.step {drain : Nat} {w v : Waiting} (h : Agree drain w v) {m : Moment}
    (hm : m.drain? ≠ some drain) :
    Agree drain (w.step m) (v.step m) := by
  cases m with
  | setReady => exact ⟨congrArg Controller.setReady h.controller, h.drains⟩
  | trigger => exact ⟨congrArg (fun c => c.trigger.2) h.controller, h.drains⟩
  | acquire => exact ⟨congrArg Controller.acquire h.controller, h.drains⟩
  | release =>
    refine ⟨congrArg Controller.release h.controller, fun other hother => ?_⟩
    have hsame := h.drains other hother
    rw [Waiting.step, Waiting.step, h.controller]
    dsimp only
    split
    · rw [wake, wake, hsame]
    · exact hsame
  | begin other =>
    have hother : other ≠ drain := fun he => hm (congrArg some he)
    rw [Waiting.step, Waiting.step, h.drains other hother]
    split
    · exact h.check other
    · exact h
  | look other =>
    have hother : other ≠ drain := fun he => hm (congrArg some he)
    rw [Waiting.step, Waiting.step, h.drains other hother]
    split
    · exact h.check other
    · exact h
  | expire other =>
    have hother : other ≠ drain := fun he => hm (congrArg some he)
    rw [Waiting.step, Waiting.step, h.drains other hother]
    split
    · exact h.mark other _
    · exact h

/-- What belongs to the drain changes nothing else, unless it is completed. -/
theorem Agree.step_own {drain : Nat} {w v : Waiting} (h : Agree drain w v) {m : Moment}
    (hm : m.drain? = some drain)
    (hnot : ¬(w.step m).Completed drain) : Agree drain (w.step m) v := by
  rcases w.step_cases m with ⟨looking, hlooks, hstep⟩ | ⟨hquiet, -⟩
  · obtain rfl : looking = drain := by
      rcases hlooks with ⟨rfl, -⟩ | ⟨rfl, -⟩
      · exact Option.some.inj hm
      · exact Option.some.inj hm
    have hbusy : w.controller.inFlight ≠ 0 :=
      fun hidle => hnot ((w.completed_step looking m).2 (.inr ⟨hlooks, hidle⟩))
    rw [hstep, check_of_busy hbusy]
    exact h.mark_own _
  · cases m with
    | begin other =>
      obtain rfl := Option.some.inj hm
      have hstep : w.step (.begin other) = w := if_neg fun hnew => hquiet other (.inl ⟨rfl, hnew⟩)
      rw [hstep]
      exact h
    | look other =>
      obtain rfl := Option.some.inj hm
      have hstep : w.step (.look other) = w :=
        if_neg fun hwoken => hquiet other (.inr ⟨rfl, hwoken⟩)
      rw [hstep]
      exact h
    | expire other =>
      obtain rfl := Option.some.inj hm
      rw [Waiting.step]
      split
      · exact h.mark_own _
      · exact h
    | setReady => cases hm
    | trigger => cases hm
    | acquire => cases hm
    | release => cases hm

/-- A drain that is not completed leaves the controller as it would be without the drain. -/
theorem Agree.run {drain : Nat} {w v : Waiting} (h : Agree drain w v) {moments : List Moment}
    (hnot : ¬(w.run moments).Completed drain) :
    Agree drain (w.run moments) (v.run (moments.filter fun m => m.drain? ≠ some drain)) := by
  induction moments generalizing w v with
  | nil => exact h
  | cons m moments ih =>
    have hnext : ¬(w.step m).Completed drain :=
      fun hdone => hnot (((w.step m).completed_run drain moments).2 (.inl hdone))
    by_cases hm : m.drain? = some drain
    · rw [List.filter_cons_of_neg (by simpa using hm)]
      exact ih (h.step_own hm hnext) hnot
    · rw [List.filter_cons_of_pos (by simpa using hm)]
      exact ih (h.step hm) hnot

/-- What becomes of a drain of a controller that others use meanwhile. -/
theorem drain_outcome (c : Controller) (drain : Nat) (moments : List Moment) :
    let start : Waiting := { controller := c }
    let w := start.run moments
    (w.drains drain = some (.ended true) ↔ 0 ∈ start.counts drain moments) ∧
      (w.drains drain = some (.ended false) →
        w.controller = (start.run (moments.filter fun m => m.drain? ≠ some drain)).controller) := by
  intro start w
  refine ⟨?_, fun hended => ?_⟩
  · show w.Completed drain ↔ _
    rw [start.completed_run drain moments]
    exact or_iff_right nofun
  · have hnot : ¬w.Completed drain := by
      rw [Completed, hended]
      exact nofun
    have hsame : Agree drain start start := ⟨rfl, fun _ _ => rfl⟩
    exact (hsame.run hnot).controller

end Waiting

end Switchboard.Host
