/-
  How many calls are in flight.

  1. **Guards** — a guard is outstanding from when it is taken until it is dropped, also when it has
     been given away to be dropped later.  A usage is `Balanced` when the count of its controller is
     the number of its outstanding guards.

  2. **Controls** — every control keeps a usage balanced (`Balanced.step`).  In a drain the guards
     that were given away are dropped one after another (`await_balanced`).

  3. **Handlers** — `Noting`: a service whose handlers note the count they see each time they run.
     Serving a request notes the count of the controller it is served with, or nothing
     (`Noting.serve_notes`).

  4. **Sessions** — a request counts while it is served and for nobody afterwards, however it ends,
     so after every move the count is the number of outstanding guards, and a handler sees one more
     than that.
-/
import Switchboard.Echo.Service
import Switchboard.Proofs.Host.Routing
import Switchboard.Proofs.Host.Session

namespace Switchboard

open Http Host

variable {σ : Type} {c : Contract}

/-! ## Handlers that look at the count -/

/-- Each time the handler runs, it notes the number of calls in flight that it sees. -/
def Registration.Notes (notes : σ → List Nat) (g : Registration c Controller σ) : Prop :=
  ∀ controller context request world,
    notes (g.handler controller context request world).state = notes world ++ [controller.inFlight]

/-- The same handler, with such notes next to the world. -/
def Registration.watched (g : Registration c Controller σ) :
    Registration c Controller (σ × List Nat) where
  op := g.op
  handler controller context request world :=
    let ran := g.handler controller context request world.1
    ⟨ran.result, (ran.state, world.2 ++ [controller.inFlight]), ran.trace⟩

namespace Host

/-! ## Guards -/

namespace Usage

/-- The number of guards that have been taken and not dropped. -/
def outstanding (u : Usage) : Nat := u.held.length + u.schedule.endings.length

/-- The count of the controller is the number of outstanding guards. -/
def Balanced (u : Usage) : Prop := u.controller.inFlight = u.outstanding

end Usage

/-! ## Controls -/

/-- While calls end, as many leave the count as leave the list of those that will end. -/
theorem await_balanced (deadline : Nat) {n : Nat} {endings : List Nat} (h : endings.length ≤ n) :
    (await deadline n endings).1 + endings.length = n + (await deadline n endings).2.2.length ∧
      ((await deadline n endings).2.1.isSome → (await deadline n endings).1 = 0) := by
  induction endings generalizing n with
  | nil => exact ⟨rfl, nofun⟩
  | cons t ts ih =>
    rw [List.length_cons] at h
    rw [await]
    split
    · exact ⟨rfl, nofun⟩
    · split
      next hlast =>
        have hempty : ts.length = 0 := by omega
        refine ⟨?_, fun _ => rfl⟩
        show 0 + (ts.length + 1) = n + ts.length
        omega
      next hmore =>
        have hrest : ts.length ≤ n - 1 := by omega
        obtain ⟨hcount, hzero⟩ := ih hrest
        refine ⟨?_, hzero⟩
        rw [List.length_cons]
        omega

namespace Usage

/-- A drain drops guards that were given away, and it counts every one of them. -/
theorem Balanced.drain {u : Usage} (h : u.Balanced) (timeout : Nat) :
    (u.step (.drain timeout)).Balanced := by
  have hcount : u.schedule.controller.inFlight = u.held.length + u.schedule.endings.length := h
  show (u.schedule.drain timeout).2.controller.inFlight =
    u.held.length + (u.schedule.drain timeout).2.endings.length
  unfold Schedule.drain
  split
  · exact hcount
  · have hlength : ((u.schedule.endings.map (max u.schedule.now)).mergeSort).length =
        u.schedule.endings.length := by
      rw [List.length_mergeSort, List.length_map]
    have hplanned : ((u.schedule.endings.map (max u.schedule.now)).mergeSort).length ≤
        u.schedule.controller.inFlight := by omega
    obtain ⟨hleft, hzero⟩ := await_balanced (u.schedule.now + timeout) hplanned
    dsimp only
    split
    next t left hawait =>
      rw [hawait] at hleft hzero
      have hnone := hzero rfl
      show 0 = u.held.length + left.length
      dsimp only at hleft hnone
      omega
    next n left hawait =>
      rw [hawait] at hleft
      show n = u.held.length + left.length
      dsimp only at hleft
      omega

/-- Every control keeps a usage balanced. -/
theorem Balanced.step {u : Usage} (h : u.Balanced) (c : Control) : (u.step c).Balanced := by
  have hcount : u.controller.inFlight = u.held.length + u.schedule.endings.length := h
  cases c with
  | setReady => exact hcount
  | trigger =>
    have htrigger : u.controller.trigger.2.inFlight = u.controller.inFlight := by
      unfold Controller.trigger Controller.announce
      split
      · split <;> rfl
      · rfl
    exact htrigger.trans hcount
  | acquire guard =>
    rw [Usage.step]
    split
    · exact hcount
    · show u.controller.inFlight + 1 = u.held.length + 1 + u.schedule.endings.length
      omega
  | drop guard =>
    rw [Usage.step]
    split
    next hheld =>
      have hpositive : 0 < u.held.length := List.length_pos_of_mem hheld
      show u.controller.inFlight - 1 = (u.held.erase guard).length + u.schedule.endings.length
      rw [List.length_erase_of_mem hheld]
      omega
    next => exact hcount
  | dropLater guard delay =>
    rw [Usage.step]
    split
    next hheld =>
      have hpositive : 0 < u.held.length := List.length_pos_of_mem hheld
      show u.controller.inFlight =
        (u.held.erase guard).length + (u.schedule.endings ++ [u.schedule.now + delay]).length
      rw [List.length_erase_of_mem hheld, List.length_append, List.length_singleton]
      omega
    next => exact hcount
  | drain timeout => exact h.drain timeout

end Usage

/-! ## Serving -/

/-- A service all whose handlers note what they see. -/
inductive Noting (notes : σ → List Nat) : {c : Contract} → Service c Controller σ → Prop where
  | wired {c : Contract} (w : Wiring c Controller σ) (config : DispatchConfig) (lastCallId : Nat)
      (each : ∀ g ∈ w, g.Notes notes) : Noting notes (w.service config lastCallId)

section Serving

variable {notes : σ → List Nat} {service : Service c Controller σ}

/-- Serving a request takes a call id and leaves the handlers as they are. -/
theorem Noting.serve (h : Noting notes service) (controller : Controller)
    (r : Request) (world : σ) :
    Noting notes (service.serve controller r world).2 := by
  obtain ⟨w, config, lastCallId, each⟩ := h
  exact .wired w config (lastCallId + 1) each

/-- While a request is served, at most one handler runs, and it sees the controller of the
    serving. -/
theorem Noting.serve_notes (h : Noting notes service) (controller : Controller)
    (r : Request) (world : σ) :
    notes (service.serve controller r world).1.state = notes world ∨
      notes (service.serve controller r world).1.state = notes world ++ [controller.inFlight] := by
  obtain ⟨w, config, lastCallId, each⟩ := h
  rcases Service.serve_runs w config lastCallId controller r world with
    ⟨hstate, -⟩ | ⟨context, operation, payload, g, request, -, hlast, -, hstate, -⟩
  · left
    rw [hstate]
  · right
    rw [hstate]
    exact each g (Wiring.mem_of_last? hlast) _ _ _ _

end Serving

/-! ## Sessions -/

/-- A host all whose handlers note what they see. -/
def Watched (notes : σ → List Nat) (h : Host σ) : Prop := ∀ m ∈ h.mounts, Noting notes m.service

theorem Watched.answer {notes : σ → List Nat} {h : Host σ} (watched : Watched notes h)
    (generatedId : Bytes) (r : Request) (world : σ) :
    Watched notes (h.answer generatedId r world).2 :=
  h.answer_keeps generatedId r world
    (fun controller r world noting => noting.serve controller r world) watched

/-- A handler that a request runs sees one call more than there are between requests. -/
theorem Watched.answer_notes {notes : σ → List Nat} {h : Host σ} (watched : Watched notes h)
    (generatedId : Bytes) (r : Request) (world : σ) :
    let after := notes (h.answer generatedId r world).1.state
    after = notes world ∨ after = notes world ++ [h.controller.inFlight + 1] := by
  intro after
  cases hr : h.reached? r with
  | none =>
    left
    exact congrArg notes (h.answer_of_unreached generatedId r world hr).1
  | some reached =>
    obtain ⟨i, m⟩ := reached
    have hmount : m ∈ h.mounts := List.mem_of_getElem? (reached?_eq_some.1 hr).2.2.2.2
    have hafter : after = notes (h.served m generatedId r world).1.state :=
      congrArg notes (h.answer_of_reached generatedId r world hr).1
    rw [hafter]
    exact (watched m hmount).serve_notes h.controller.acquire (forwarded generatedId r) world

namespace Session

theorem balanced_run {s : Session σ} (h : s.usage.Balanced) (moves : List Move) :
    (s.run moves).usage.Balanced := by
  induction moves generalizing s with
  | nil => exact h
  | cons move moves ih =>
    apply ih
    rw [usage_step]
    cases move with
    | request generatedId r => exact h
    | control c => exact h.step c

theorem watched_run {notes : σ → List Nat} {s : Session σ} (h : Watched notes s.host)
    (moves : List Move) :
    Watched notes (s.run moves).host := by
  induction moves generalizing s with
  | nil => exact h
  | cons move moves ih =>
    apply ih
    cases move with
    | request generatedId r => exact h.answer generatedId r s.world
    | control c => exact h

/-- **Accounting.**  Begin with no call in flight, and let requests come in and the controller be
    used in any order.  Then after every move the count is the number of outstanding guards, so that
    dropping one that is held never finds the count at zero; `/health` reports this number whenever
    it answers, which it does unless there is no time at all; and a handler that a further request
    runs sees one more. -/
theorem inFlight_eq_outstanding (h : Host σ) (world : σ) (idle : h.controller.inFlight = 0)
    (moves : List Move) :
    let s := Session.run { host := h, world := world } moves
    s.host.controller.inFlight = s.usage.outstanding ∧
    (∀ guard ∈ s.held,
      (s.step (.control (.drop guard))).host.controller.inFlight + 1 = s.host.controller.inFlight) ∧
    (∀ generatedId r, r.method = .get → r.uri.path = healthPath →
      let response := (s.host.answer generatedId r s.world).1.result
      (h.config.requestTimeout ≠ 0 → response.status = 200) ∧
      (response.status = 200 → ∃ members, response.body =
        Utf8.encode
          (Json.Value.object (("in_flight", Event.count s.usage.outstanding) :: members)).render)) ∧
    (∀ notes : σ → List Nat, Watched notes h → ∀ generatedId r,
      let after := notes (s.step (.request generatedId r)).world
      after = notes s.world ∨ after = notes s.world ++ [s.usage.outstanding + 1]) := by
  intro s
  have hbalanced : s.usage.Balanced := balanced_run (s := { host := h, world := world }) idle moves
  have hcount : s.host.controller.inFlight = s.usage.outstanding := hbalanced
  have hconfig : s.host.config = h.config := config_run { host := h, world := world } moves
  refine ⟨hcount, ?_, ?_, ?_⟩
  · intro guard hguard
    have hopen : s.host.controller.inFlight = s.held.length + s.endings.length := hcount
    have hpositive : 0 < s.held.length := List.length_pos_of_mem hguard
    have hdropped : s.usage.step (.drop guard) =
        { s.usage.on Controller.release with held := s.held.erase guard } := if_pos hguard
    show (s.usage.step (.drop guard)).controller.inFlight + 1 = _
    rw [hdropped]
    show s.host.controller.inFlight - 1 + 1 = _
    omega
  · intro generatedId r hget hpath response
    have htarget : s.host.target? r.uri.path = some .health := hpath ▸ (target?_probes s.host).1
    by_cases htime : h.config.requestTimeout = 0
    · refine ⟨absurd htime, fun hok => ?_⟩
      have hlate : response.status = 408 := by
        have hoptions : r.method ≠ .options := by rw [hget]; decide
        have hanswer := s.host.answer_of_no_time generatedId s.world hoptions (hconfig ▸ htime)
        show (s.host.answer generatedId r s.world).1.result.status = _
        rw [hanswer]
        exact layered_status _ _ _ _
      rw [hlate] at hok
      cases hok
    · have hresponse : response = s.host.layered generatedId r (some (s.host.probe .health)) :=
        congrArg (fun answer => answer.1.result)
          (answer_probe s.host generatedId s.world hget htarget rfl (hconfig ▸ htime))
      refine ⟨fun _ => ?_, fun _ => ?_⟩
      · rw [hresponse, layered_status]
        rfl
      · have hbody : response.body = Utf8.encode s.host.healthReport.render := by
          rw [hresponse, layered_body _ _ _ (.inr (by rw [hget]; decide)), probe,
            Service.documentResponse]
        obtain ⟨members, hreport⟩ : ∃ members, s.host.healthReport =
            .object (("in_flight", Event.count s.host.controller.inFlight) :: members) := ⟨_, rfl⟩
        rw [hbody, hreport, hcount]
        exact ⟨members, rfl⟩
  · intro notes watched generatedId r
    rw [← hcount]
    exact (watched_run watched moves).answer_notes generatedId r s.world

/-- With one guard taken, the echo handler sees two calls whenever a request runs it. -/
theorem echo_sees_guard_and_call :
    let echoing : Registration Echo.contract Controller (Unit × List Nat) :=
      Registration.watched ⟨Echo.echo, Echo.handleEcho⟩
    let h : Host (Unit × List Nat) :=
      { mounts := [⟨"/echo", .ofText "/echo", Echo.contract, Wiring.service [echoing] {} 0⟩] }
    let s := Session.run { host := h, world := ((), []) } [.control (.acquire "job")]
    h.controller.inFlight = 0 ∧ Watched Prod.snd h ∧ s.host.controller.inFlight = 1 ∧
      ∀ generatedId r, (s.step (.request generatedId r)).world.2 = [] ∨
        (s.step (.request generatedId r)).world.2 = [2] := by
  intro echoing h s
  have watched : Watched Prod.snd h := by
    intro m hm
    obtain rfl := List.mem_singleton.1 hm
    refine .wired [echoing] {} 0 fun g hg => ?_
    obtain rfl := List.mem_singleton.1 hg
    exact fun _ _ _ _ => rfl
  obtain ⟨hcount, -, -, hnotes⟩ :=
    inFlight_eq_outstanding h ((), []) rfl [.control (.acquire "job")]
  exact ⟨rfl, watched, hcount, fun generatedId r => hnotes Prod.snd watched generatedId r⟩

end Session

end Host

end Switchboard
