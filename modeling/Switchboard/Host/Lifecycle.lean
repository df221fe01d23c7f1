/-
  The life of a host: health, shutdown, and the calls in flight.

  A `Controller` holds the health state, counts the calls in flight, and announces a shutdown to
  those who listen.  An announcement without listeners is lost: it changes nothing that a later
  listener sees.

  `Schedule.drain` waits until no call is in flight or a time is up.  Time passes only while it
  waits; calls that are known to end at certain times end in that order, and an end that falls on
  the deadline comes too late.
-/

namespace Switchboard.Host

/-! ## Health -/

/-- The states in the life of a host, in their order. -/
inductive HealthState where
  | starting
  | ready
  | draining
  | stopped
  deriving Repr, DecidableEq

namespace HealthState

/-- The name in the health report. -/
def name : HealthState → String
  | starting => "starting"
  | ready => "ready"
  | draining => "draining"
  | stopped => "stopped"

/-- Whether new calls are let in.  They are from the start on, before the host is ready. -/
def acceptsCalls : HealthState → Bool
  | starting | ready => true
  | draining | stopped => false

end HealthState

/-! ## The controller -/

/-- The health of a host, the calls in flight, and the announcements of a shutdown. -/
structure Controller where
  state : HealthState := .starting
  /-- The number of calls in flight. -/
  inFlight : Nat := 0
  /-- Whether a shutdown has been announced. -/
  announced : Bool := false
  /-- The number of announcements so far. -/
  announcements : Nat := 0
  /-- The number of those who listen. -/
  listeners : Nat := 0
  deriving Repr, DecidableEq

/-- What a listener has seen: the number of announcements up to then. -/
structure Listener where
  seen : Nat
  deriving Repr, DecidableEq

namespace Controller

/-- Becomes ready, whatever the state was. -/
def setReady (c : Controller) : Controller := { c with state := .ready }

/-- Announces a shutdown to those who listen. -/
def announce (c : Controller) : Controller :=
  if c.listeners = 0 then c
  else { c with announced := true, announcements := c.announcements + 1 }

/-- Begins to drain and announces it, unless the host drains already or has stopped. -/
def trigger (c : Controller) : Bool × Controller :=
  if c.state.acceptsCalls then (true, { c with state := .draining }.announce) else (false, c)

/-- Counts one more call in flight. -/
def acquire (c : Controller) : Controller := { c with inFlight := c.inFlight + 1 }

/-- Counts one call less. -/
def release (c : Controller) : Controller := { c with inFlight := c.inFlight - 1 }

/-- A call that is counted in and out again leaves no trace. -/
@[simp] theorem release_acquire (c : Controller) : c.acquire.release = c := rfl

/-- Begins to listen; what has been announced before counts as seen. -/
def listen (c : Controller) : Listener × Controller :=
  (⟨c.announcements⟩, { c with listeners := c.listeners + 1 })

/-- Ends to listen. -/
def unlisten (c : Controller) : Controller := { c with listeners := c.listeners - 1 }

/-- Whether a listener has not seen the last announcement. -/
def unseen (c : Controller) (l : Listener) : Bool := l.seen != c.announcements

/-- What a listener has seen once it has looked. -/
def look (c : Controller) : Listener := ⟨c.announcements⟩

end Controller

/-! ## Draining -/

/-- A controller, the time in milliseconds, and the times at which calls in flight will end. -/
structure Schedule where
  controller : Controller := {}
  now : Nat := 0
  endings : List Nat := []
  deriving Repr, DecidableEq

/-- Lets calls end in order until none is in flight, or the next end is not before the deadline.
    The count that remains, the time at which it became zero, and the ends still to come. -/
def await (deadline : Nat) : (inFlight : Nat) → (endings : List Nat) → Nat × Option Nat × List Nat
  | n, [] => (n, none, [])
  | n, t :: ts =>
    if deadline ≤ t then (n, none, t :: ts)
    else if n ≤ 1 then (0, some t, ts)
    else await deadline (n - 1) ts

/-- Whether a drain found no call in flight in time, and how long it took. -/
structure Drained where
  complete : Bool
  waited : Nat
  deriving Repr, DecidableEq

namespace Schedule

/-- Plans the end of a call in flight, some time from now. -/
def plan (s : Schedule) (delay : Nat) : Schedule :=
  { s with endings := s.endings ++ [s.now + delay] }

/-- Waits until no call is in flight, for at most `timeout`.  The host has stopped when there is
    none; otherwise its state stays. -/
def drain (s : Schedule) (timeout : Nat) : Drained × Schedule :=
  if s.controller.inFlight = 0 then
    (⟨true, 0⟩, { s with controller := { s.controller with state := .stopped } })
  else
    let due := (s.endings.map (max s.now)).mergeSort
    match await (s.now + timeout) s.controller.inFlight due with
    | (_, some t, left) =>
      (⟨true, t - s.now⟩,
        ⟨{ s.controller with state := .stopped, inFlight := 0 }, t, left⟩)
    | (n, none, left) =>
      (⟨false, timeout⟩, ⟨{ s.controller with inFlight := n }, s.now + timeout, left⟩)

end Schedule

end Switchboard.Host
