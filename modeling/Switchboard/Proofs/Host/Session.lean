/-
  Sessions: a host in use, with its world and with the guards that are held of its controller.

  A `Move` is a request to the host or a `Control` of its controller, and a session goes on by one
  move after another (`Session.run`).  A request only ever changes the services (`answer_next`), so
  what is known of the usage of a controller carries over to sessions (`usage_step`).
-/
import Switchboard.Proofs.Host.Answer
import Switchboard.Proofs.Host.Lifecycle

namespace Switchboard.Host

open Http

variable {σ : Type}

/-- One thing that happens to a host. -/
inductive Move where
  /-- A request comes in; the id is the one it gets if it brings none. -/
  | request (generatedId : Bytes) (r : Request)
  | control (c : Control)
  deriving Repr, DecidableEq

/-- A host over a world, in use. -/
structure Session (σ : Type) where
  host : Host σ
  world : σ
  /-- The time in milliseconds. -/
  now : Nat := 0
  /-- The times at which guards that have been given away will be dropped. -/
  endings : List Nat := []
  /-- The names of the guards that are held. -/
  held : List String := []

namespace Session

/-- The controller of the host, in use. -/
def usage (s : Session σ) : Usage := ⟨⟨s.host.controller, s.now, s.endings⟩, s.held⟩

/-- The session after something has been done with the controller. -/
def withUsage (s : Session σ) (u : Usage) : Session σ where
  host := { s.host with controller := u.controller }
  world := s.world
  now := u.schedule.now
  endings := u.schedule.endings
  held := u.held

/-- The session after a move. -/
def step (s : Session σ) : Move → Session σ
  | .request generatedId r =>
    let (ran, next) := s.host.answer generatedId r s.world
    { s with host := next, world := ran.state }
  | .control c => s.withUsage (s.usage.step c)

/-- The session after all moves, in order. -/
def run (s : Session σ) (moves : List Move) : Session σ := moves.foldl step s

theorem run_append (s : Session σ) (first second : List Move) :
    s.run (first ++ second) = (s.run first).run second := List.foldl_append

/-- A request only ever changes the services. -/
theorem answer_next (h : Host σ) (generatedId : Bytes) (r : Request) (world : σ) :
    ∃ mounts, (h.answer generatedId r world).2 = { h with mounts := mounts } := by
  cases hr : h.reached? r with
  | none => exact ⟨h.mounts, (h.answer_of_unreached generatedId r world hr).2⟩
  | some reached => exact ⟨_, (h.answer_of_reached generatedId r world hr).2.2⟩

/-- Only controls make a difference to the usage of the controller. -/
theorem usage_step (s : Session σ) (move : Move) :
    (s.step move).usage =
      match move with
      | .request .. => s.usage
      | .control c => s.usage.step c := by
  cases move with
  | control c => rfl
  | request generatedId r =>
    obtain ⟨mounts, hnext⟩ := answer_next s.host generatedId r s.world
    show Usage.mk ⟨(s.host.answer generatedId r s.world).2.controller, s.now, s.endings⟩ s.held = _
    rw [hnext]
    rfl

theorem config_step (s : Session σ) (move : Move) : (s.step move).host.config = s.host.config := by
  cases move with
  | control c => rfl
  | request generatedId r =>
    obtain ⟨mounts, hnext⟩ := answer_next s.host generatedId r s.world
    show (s.host.answer generatedId r s.world).2.config = _
    rw [hnext]

theorem config_run (s : Session σ) (moves : List Move) :
    (s.run moves).host.config = s.host.config := by
  induction moves generalizing s with
  | nil => rfl
  | cons move moves ih => exact (ih (s.step move)).trans (s.config_step move)

end Session

end Switchboard.Host
