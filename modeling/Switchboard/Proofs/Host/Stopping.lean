/-
  A host that has stopped has no calls in flight.

  1. **Schedules** — a drain is complete just when as many calls end within its time as there are in
     flight, and otherwise all that changes is that those have ended (`Schedule.drain_cases`).

  2. **Usages** — what is done with a controller is a sequence of moments, and a drain with the
     calls that end meanwhile is one that sleeps until the last of them wakes it (`run_moments`).

  3. **Serving** — a host that serves until a shutdown has stopped when no guard is left, and drains
     otherwise (`served_usage`).

  So in whatever way a controller is used, the host comes to a stop only when no call is in flight
  (`stopped_means_drained`).
-/
import Switchboard.Proofs.Host.InFlight
import Switchboard.Proofs.Host.Waiting

namespace Switchboard.Host

variable {σ : Type}

/-! ## Schedules -/

/-- How many of the calls that are going to end do so within a time. -/
def Schedule.inTime (s : Schedule) (timeout : Nat) : Nat :=
  s.endings.countP fun t => max s.now t < s.now + timeout

/-- Of calls that end in order, those end that do so before the deadline. -/
theorem await_cases (deadline : Nat) {n : Nat} {due : List Nat} (hn : 0 < n)
    (hlength : due.length ≤ n) (hsorted : due.Pairwise (· ≤ ·)) :
    (await deadline n due).1 = n - due.countP (· < deadline) ∧
      ((await deadline n due).2.1.isSome = true ↔ n ≤ due.countP (· < deadline)) := by
  induction due generalizing n with
  | nil =>
    refine ⟨rfl, Bool.noConfusion, fun h => ?_⟩
    have hzero : n ≤ 0 := h
    omega
  | cons t due ih =>
    obtain ⟨hleast, hsorted⟩ := List.pairwise_cons.1 hsorted
    rw [List.length_cons] at hlength
    rw [await]
    split
    next hlate =>
      -- What comes later is no earlier.
      have hnone : (t :: due).countP (· < deadline) = 0 := by
        rw [List.countP_eq_zero]
        intro x hx
        rcases List.mem_cons.1 hx with rfl | hx
        · simpa using hlate
        · simpa using Nat.le_trans hlate (hleast x hx)
      rw [hnone]
      refine ⟨rfl, Bool.noConfusion, fun h => ?_⟩
      omega
    next hlate =>
      have hcount : (t :: due).countP (· < deadline) = due.countP (· < deadline) + 1 :=
        List.countP_cons_of_pos (by simpa using hlate)
      rw [hcount]
      split
      next hlast =>
        refine ⟨?_, fun _ => ?_, fun _ => rfl⟩
        · show 0 = _
          omega
        · omega
      next hmore =>
        obtain ⟨hleft, hdone⟩ := ih (show 0 < n - 1 by omega) (by omega) hsorted
        rw [hleft, hdone]
        refine ⟨?_, ?_⟩
        · omega
        · omega

/-- How a drain ends, and what it leaves. -/
theorem Schedule.drain_cases (s : Schedule) (timeout : Nat)
    (h : s.endings.length ≤ s.controller.inFlight) :
    let drained := (s.drain timeout).1
    let after := (s.drain timeout).2.controller
    (s.controller.inFlight ≤ s.inTime timeout ∧ drained.complete = true ∧
        after = { s.controller with state := .stopped, inFlight := 0 }) ∨
      (s.inTime timeout < s.controller.inFlight ∧ drained.complete = false ∧
        after = { s.controller with inFlight := s.controller.inFlight - s.inTime timeout }) := by
  unfold Schedule.drain
  split
  next hidle =>
    refine .inl ⟨by omega, rfl, ?_⟩
    rw [← hidle]
  next hbusy =>
    let due := (s.endings.map (max s.now)).mergeSort
    have hperm : due.Perm (s.endings.map (max s.now)) := List.mergeSort_perm _ _
    have hlength : due.length ≤ s.controller.inFlight := by
      rw [hperm.length_eq, List.length_map]
      exact h
    have hsorted : due.Pairwise (· ≤ ·) := List.pairwise_mergeSort' (· ≤ ·) _
    have hcount : due.countP (· < s.now + timeout) = s.inTime timeout := by
      rw [hperm.countP_eq, List.countP_map]
      rfl
    obtain ⟨hleft, hdone⟩ :=
      await_cases (s.now + timeout) (Nat.pos_of_ne_zero hbusy) hlength hsorted
    rw [hcount] at hleft hdone
    dsimp only
    split
    next t left hawait =>
      left
      rw [hawait] at hdone
      exact ⟨hdone.1 rfl, rfl, rfl⟩
    next n left hawait =>
      right
      rw [hawait] at hleft hdone
      have hmore : ¬s.controller.inFlight ≤ s.inTime timeout := fun hle => nomatch hdone.2 hle
      refine ⟨by omega, rfl, ?_⟩
      rw [← hleft]

/-! ## Usages -/

namespace Waiting

/-- Guards are dropped one after another while a drain sleeps, and the last one wakes it. -/
theorem run_releases {w : Waiting} {drain k : Nat} (hasleep : w.drains drain = some .asleep)
    (hbusy : 0 < w.controller.inFlight) (hk : k ≤ w.controller.inFlight) :
    let after := w.run (List.replicate k .release)
    after.controller = { w.controller with inFlight := w.controller.inFlight - k } ∧
      after.drains drain = some (if k = w.controller.inFlight then .woken else .asleep) := by
  induction k generalizing w with
  | zero =>
    have hmore : 0 ≠ w.controller.inFlight := by omega
    rw [if_neg hmore]
    exact ⟨rfl, hasleep⟩
  | succ k ih =>
    show ((w.step .release).run (List.replicate k .release)).controller = _ ∧ _ = _
    by_cases hlast : w.controller.inFlight = 1
    · obtain rfl : k = 0 := by omega
      have hwake : (w.step .release).drains drain = some .woken := by
        show (if w.controller.inFlight = 1 then wake w.drains else w.drains) drain = _
        rw [if_pos hlast, wake, if_pos hasleep]
      rw [if_pos (by omega)]
      exact ⟨rfl, hwake⟩
    · have hsleeps : (w.step .release).drains drain = some .asleep := by
        show (if w.controller.inFlight = 1 then wake w.drains else w.drains) drain = _
        rw [if_neg hlast, hasleep]
      have hcount : (w.step .release).controller.inFlight = w.controller.inFlight - 1 := rfl
      obtain ⟨hcontroller, hdrains⟩ := ih hsleeps (by omega) (by omega)
      rw [hcount] at hcontroller hdrains
      refine ⟨hcontroller.trans ?_, hdrains.trans ?_⟩
      · show Controller.mk _ (w.controller.inFlight - 1 - k) _ _ _ =
          Controller.mk _ (w.controller.inFlight - (k + 1)) _ _ _
        rw [Nat.sub_sub, Nat.add_comm 1 k]
        rfl
      · congr 1
        by_cases hk' : k = w.controller.inFlight - 1
        · rw [if_pos hk', if_pos (by omega)]
        · rw [if_neg hk', if_neg (by omega)]

/-- At the end of a drain that has slept until it was woken, or until its time was up. -/
theorem run_look_expire (w : Waiting) (drain : Nat) :
    (w.drains drain = some .woken → w.controller.inFlight = 0 →
      w.run [.look drain, .expire drain] = w.halt.mark drain (.ended true)) ∧
    (w.drains drain = some .asleep →
      w.run [.look drain, .expire drain] = w.mark drain (.ended false)) ∧
    ∀ complete, w.drains drain = some (.ended complete) →
      w.run [.look drain, .expire drain] = w := by
  refine ⟨fun hwoken hidle => ?_, fun hasleep => ?_, fun complete hended => ?_⟩
  · have hlook : w.step (.look drain) = w.halt.mark drain (.ended true) :=
      (if_pos hwoken).trans (check_of_idle hidle)
    show (w.step (.look drain)).step (.expire drain) = _
    rw [hlook]
    exact if_neg (by simp [mark])
  · have hlook : w.step (.look drain) = w := if_neg (by simp [hasleep])
    show (w.step (.look drain)).step (.expire drain) = _
    rw [hlook]
    exact if_pos hasleep
  · have hlook : w.step (.look drain) = w := if_neg (by simp [hended])
    show (w.step (.look drain)).step (.expire drain) = _
    rw [hlook]
    exact if_neg (by simp [hended])

end Waiting

/-- A drain that begins, sleeps while guards are dropped, and then looks or gives up: it is complete
    just when the last guard was among them. -/
theorem Controller.run_waits (c : Controller) (drain : Nat) {k : Nat} (hk : k ≤ c.inFlight) :
    let w := Waiting.run { controller := c }
      (.begin drain :: List.replicate k .release ++ [.look drain, .expire drain])
    w.controller = (if k = c.inFlight then { c with state := .stopped, inFlight := 0 }
        else { c with inFlight := c.inFlight - k }) ∧
      w.drains drain = some (.ended (decide (k = c.inFlight))) := by
  intro w
  let start : Waiting := { controller := c }
  let slept := (start.check drain).run (List.replicate k .release)
  have hw : w = slept.run [.look drain, .expire drain] := Waiting.run_append _ _ _
  by_cases hidle : c.inFlight = 0
  · obtain rfl : k = 0 := by omega
    have hslept : slept = start.halt.mark drain (.ended true) := Waiting.check_of_idle hidle
    have hended : slept.drains drain = some (.ended true) := by
      rw [hslept]
      exact Function.update_self ..
    rw [hw, (slept.run_look_expire drain).2.2 true hended, if_pos hidle.symm,
      decide_eq_true hidle.symm, hended, hslept]
    exact ⟨congrArg (fun n => { c with state := .stopped, inFlight := n }) hidle, rfl⟩
  · have hcheck : start.check drain = start.mark drain .asleep := Waiting.check_of_busy hidle
    have hasleep : (start.mark drain .asleep).drains drain = some .asleep := Function.update_self ..
    obtain ⟨hreleased, hdrains⟩ := Waiting.run_releases hasleep (Nat.pos_of_ne_zero hidle) hk
    rw [← hcheck] at hreleased hdrains
    have hcount : (start.check drain).controller = c := by
      rw [hcheck]
      rfl
    rw [hcount] at hreleased hdrains
    by_cases hlast : k = c.inFlight
    · have hzero : c.inFlight - k = 0 := by omega
      rw [if_pos hlast] at hdrains
      rw [hzero] at hreleased
      rw [hw, (slept.run_look_expire drain).1 hdrains (congrArg Controller.inFlight hreleased),
        if_pos hlast, decide_eq_true hlast]
      refine ⟨?_, Function.update_self ..⟩
      show { slept.controller with state := .stopped } = _
      rw [hreleased]
    · rw [if_neg hlast] at hdrains
      rw [hw, (slept.run_look_expire drain).2.1 hdrains, if_neg hlast, decide_eq_false hlast]
      exact ⟨hreleased, Function.update_self ..⟩

/-- What a control does, moment by moment.  The calls that are going to end do so while a drain
    sleeps. -/
def Control.moments (u : Usage) (drain : Nat) : Control → List Moment
  | .setReady => [.setReady]
  | .trigger => [.trigger]
  | .acquire guard => if guard ∈ u.held then [.acquire, .release] else [.acquire]
  | .drop guard => if guard ∈ u.held then [.release] else []
  | .dropLater .. => []
  | .drain timeout =>
    .begin drain :: List.replicate (u.schedule.inTime timeout) .release ++
      [.look drain, .expire drain]

namespace Usage

theorem balanced_run {u : Usage} (h : u.Balanced) (controls : List Control) :
    (u.run controls).Balanced := by
  induction controls generalizing u with
  | nil => exact h
  | cons c controls ih => exact ih (h.step c)

theorem Balanced.endings_le {u : Usage} (h : u.Balanced) :
    u.schedule.endings.length ≤ u.schedule.controller.inFlight := by
  have hcount : u.schedule.controller.inFlight = u.held.length + u.schedule.endings.length := h
  omega

/-- A drain is a run of moments. -/
theorem run_drain {u : Usage} (h : u.Balanced) (timeout drain : Nat) :
    let w := Waiting.run { controller := u.controller } ((Control.drain timeout).moments u drain)
    w.controller = (u.step (.drain timeout)).controller ∧
      w.drains drain = some (.ended (u.schedule.drain timeout).1.complete) := by
  intro w
  have hendings : u.schedule.endings.length ≤ u.controller.inFlight := h.endings_le
  have hinTime : u.schedule.inTime timeout ≤ u.schedule.endings.length := List.countP_le_length
  have hcontroller : (u.step (.drain timeout)).controller =
      (u.schedule.drain timeout).2.controller := rfl
  obtain ⟨hwaited, hended⟩ := u.controller.run_waits drain (hinTime.trans hendings)
  rcases u.schedule.drain_cases timeout hendings
    with ⟨hall, hcomplete, hafter⟩ | ⟨hfew, hcomplete, hafter⟩
  · have hlast : u.schedule.inTime timeout = u.controller.inFlight :=
      Nat.le_antisymm (hinTime.trans hendings) hall
    rw [hcontroller, hcomplete, hafter]
    exact ⟨hwaited.trans (if_pos hlast), hended.trans (by rw [decide_eq_true hlast])⟩
  · have hmore : u.schedule.inTime timeout ≠ u.controller.inFlight := Nat.ne_of_lt hfew
    rw [hcontroller, hcomplete, hafter]
    exact ⟨hwaited.trans (if_neg hmore), hended.trans (by rw [decide_eq_false hmore])⟩

/-- What is done with a controller is a run of moments. -/
theorem run_moments {u : Usage} (h : u.Balanced) (c : Control) (drain : Nat) :
    (Waiting.run { controller := u.controller } (c.moments u drain)).controller =
      (u.step c).controller := by
  cases c with
  | setReady => rfl
  | trigger => rfl
  | acquire guard =>
    rw [Control.moments, step]
    split <;> rfl
  | drop guard =>
    rw [Control.moments, step]
    split <;> rfl
  | dropLater guard delay =>
    rw [step]
    split <;> rfl
  | drain timeout => exact (run_drain h timeout drain).1

/-- Nothing but a drain brings the host to a stop. -/
theorem stopped_of_step {u : Usage} {c : Control} (hc : ∀ timeout, c ≠ .drain timeout)
    (h : (u.step c).state = .stopped) : u.state = .stopped := by
  cases c with
  | setReady => cases h
  | trigger =>
    have htrigger : u.controller.trigger.2.state = .stopped := h
    rw [Controller.trigger_state] at htrigger
    split at htrigger
    · cases htrigger
    · exact htrigger
  | acquire guard =>
    rw [step] at h
    split at h <;> exact h
  | drop guard =>
    rw [step] at h
    split at h <;> exact h
  | dropLater guard delay =>
    rw [step] at h
    split at h <;> exact h
  | drain timeout => exact absurd rfl (hc timeout)

/-- How a drain ends, by the guards that are left. -/
theorem drain_cases {u : Usage} (h : u.Balanced) (timeout : Nat) :
    let drained := (u.schedule.drain timeout).1
    let after := u.step (.drain timeout)
    (u.outstanding ≤ u.schedule.inTime timeout ∧ drained.complete = true ∧ after.state = .stopped ∧
        after.outstanding = 0) ∨
      (u.schedule.inTime timeout < u.outstanding ∧ drained.complete = false ∧
        after.controller =
          { u.controller with inFlight := u.controller.inFlight - u.schedule.inTime timeout }) := by
  intro drained after
  have hcount : u.schedule.controller.inFlight = u.outstanding := h
  have hafter : after.controller.inFlight = after.outstanding := h.step (.drain timeout)
  rcases u.schedule.drain_cases timeout h.endings_le
    with ⟨hall, hcomplete, hstopped⟩ | ⟨hfew, hcomplete, hkept⟩
  · refine .inl ⟨hcount ▸ hall, hcomplete, congrArg Controller.state hstopped, ?_⟩
    rw [← hafter]
    exact congrArg Controller.inFlight hstopped
  · exact .inr ⟨hcount ▸ hfew, hcomplete, hkept⟩

/-- A control that brings the host to a stop leaves no guard. -/
theorem outstanding_of_stopped {u : Usage} (h : u.Balanced) {c : Control}
    (hbefore : u.state ≠ .stopped)
    (hafter : (u.step c).state = .stopped) : (u.step c).outstanding = 0 := by
  by_cases hdrain : ∃ timeout, c = .drain timeout
  · obtain ⟨timeout, rfl⟩ := hdrain
    rcases drain_cases h timeout with ⟨-, -, -, hnone⟩ | ⟨-, -, hkept⟩
    · exact hnone
    · have hsame : (u.step (.drain timeout)).state = u.state := by rw [state, hkept, state]
      exact absurd (hsame.symm.trans hafter) hbefore
  · exact absurd (stopped_of_step (fun timeout he => hdrain ⟨timeout, he⟩) hafter) hbefore

end Usage

/-! ## Serving -/

/-- A host that has served until a shutdown has stopped if no call is left in flight, and drains
    otherwise, whatever its state was before.  Calls that end meanwhile, and no others, are no
    longer in flight. -/
theorem served_usage (u : Usage) (h : u.schedule.endings.length ≤ u.controller.inFlight) :
    let after := u.run servingControls
    after.controller.inFlight = u.controller.inFlight - u.schedule.inTime drainTimeout ∧
      after.state = if after.controller.inFlight = 0 then .stopped else .draining := by
  intro after
  let triggered := (u.step .setReady).step .trigger
  have hstate : triggered.schedule.controller.state = .draining :=
    Controller.trigger_state u.controller.setReady
  have hcount : triggered.schedule.controller.inFlight = u.controller.inFlight := by
    show u.controller.setReady.trigger.2.inFlight = _
    unfold Controller.trigger Controller.announce
    split
    · split <;> rfl
    · rfl
  have hinTime : triggered.schedule.inTime drainTimeout = u.schedule.inTime drainTimeout := rfl
  have hafter : after.controller = (triggered.schedule.drain drainTimeout).2.controller := rfl
  have hendings : triggered.schedule.endings.length ≤ triggered.schedule.controller.inFlight :=
    hcount ▸ h
  rw [Usage.state, hafter]
  rcases triggered.schedule.drain_cases drainTimeout hendings
    with ⟨hall, -, hstopped⟩ | ⟨hfew, -, hkept⟩
  · rw [hinTime, hcount] at hall
    rw [hstopped]
    refine ⟨?_, rfl⟩
    show 0 = _
    omega
  · rw [hinTime, hcount] at hfew hkept
    rw [hkept]
    refine ⟨rfl, hstate.trans (if_neg ?_).symm⟩
    show ¬u.controller.inFlight - u.schedule.inTime drainTimeout = 0
    omega

/-- A host that has been started serves until the shutdown, and does with its controller what
    serving does, while what is planned with the controller goes on. -/
theorem serve_of_bound {h : Host σ} (hbound : h.bound = true) {u : Usage}
    (hu : h.controller = u.controller) :
    let served := h.serve u.schedule.now u.schedule.endings
    served.1 = .ok () ∧ served.2.2.1 = (u.run servingControls).schedule ∧
      served.2.2.2.controller = (u.run servingControls).controller := by
  intro served
  have hschedule : served.2.2.1 = (u.run servingControls).schedule := serve_schedule hbound hu
  refine ⟨?_, hschedule, (serve_controller h _ _).trans (congrArg Schedule.controller hschedule)⟩
  show (h.serve u.schedule.now u.schedule.endings).1 = _
  rw [serve, if_pos hbound]

/-- If no call is known to end, those that are in flight stay so. -/
theorem serve_of_unplanned {h : Host σ} (hbound : h.bound = true) :
    h.serve.1 = .ok () ∧ h.serve.2.2.2.controller.inFlight = h.controller.inFlight ∧
      h.serve.2.2.2.controller.state =
        if h.serve.2.2.2.controller.inFlight = 0 then .stopped else .draining := by
  let alone : Usage := { schedule := { controller := h.controller } }
  obtain ⟨hok, -, hserved⟩ := serve_of_bound hbound (u := alone) rfl
  obtain ⟨hleft, hstate⟩ := served_usage alone (Nat.zero_le _)
  rw [Usage.state] at hstate
  rw [← hserved] at hleft hstate
  exact ⟨hok, hleft, hstate⟩

/-- One that has not been started does nothing. -/
theorem serve_of_unbound {h : Host σ} (hbound : h.bound = false) (now : Nat) (endings : List Nat) :
    h.serve now endings =
      (.error "start() must be called before serve()", {}, ⟨h.controller, now, endings⟩, h) := by
  have hidle : ¬h.bound = true := by
    rw [hbound]
    exact Bool.false_ne_true
  exact if_neg hidle

/-- **Stopped means drained.**  Use a controller in any way, and then go on in any way.

    A control brings the host to a stop only when no guard is left.  A drain reports that it is
    complete just when all guards are dropped within its time, and the host has stopped then;
    otherwise all that it leaves changed are the guards that others have dropped meanwhile.

    The same is so moment by moment, with any number of drains that wait at once, while others take
    and drop guards, make the host ready and trigger shutdowns between their looks: the host comes
    to a stop only in a moment without calls in flight; a drain is complete just when it sees a
    count of zero at one of its looks, and it leaves a host that has stopped; and if it gives up,
    the controller is as if the drain had not been there.  Controls are made of such moments.

    A host that serves until a shutdown that has been signalled already ends well, and has stopped
    if no guard is left at the end, and drains otherwise; this takes what has been done with its
    controller before, and the guards that are dropped while it waits.  One that has not been
    started reports it, and nothing changes. -/
theorem stopped_means_drained (h : Host σ) (controls : List Control) :
    let u := Usage.run {} controls
    let start : Waiting := { controller := u.controller }
    ((∀ c, u.state ≠ .stopped → (u.step c).state = .stopped →
        (u.step c).controller.inFlight = 0 ∧ (u.step c).outstanding = 0) ∧
      ∀ timeout,
        let drained := (u.schedule.drain timeout).1
        let after := u.step (.drain timeout)
        (u.outstanding ≤ u.schedule.inTime timeout ∧ drained.complete = true ∧
          after.state = .stopped ∧ after.outstanding = 0) ∨
          (u.schedule.inTime timeout < u.outstanding ∧ drained.complete = false ∧
            after.controller =
              { u.controller with
                inFlight := u.controller.inFlight - u.schedule.inTime timeout })) ∧
    ((∀ moments m,
        let w := start.run moments
        let after := w.step m
        (w.controller.state ≠ .stopped → after.controller.state = .stopped →
          w.controller.inFlight = 0 ∧ after.controller.inFlight = 0) ∧
        ∀ drain, ¬w.Completed drain → after.Completed drain → after.controller.state = .stopped) ∧
      (∀ moments drain,
        let w := start.run moments
        (w.drains drain = some (.ended true) ↔ 0 ∈ start.counts drain moments) ∧
        (w.drains drain = some (.ended false) →
          w.controller = (start.run (moments.filter fun m => m.drain? ≠ some drain)).controller)) ∧
      ∀ c drain, (start.run (c.moments u drain)).controller = (u.step c).controller ∧
        ∀ timeout, c = .drain timeout → (start.run (c.moments u drain)).drains drain =
          some (.ended (u.schedule.drain timeout).1.complete)) ∧
    ((u.run servingControls).state =
      (if (u.run servingControls).outstanding = 0 then .stopped else .draining) ∧
      (h.bound = true →
        let served :=
          Host.serve { h with controller := u.controller } u.schedule.now u.schedule.endings
        served.1 = .ok () ∧ served.2.2.1 = (u.run servingControls).schedule ∧
          served.2.2.2.controller = (u.run servingControls).controller) ∧
      (h.bound = true → h.serve.1 = .ok () ∧
        h.serve.2.2.2.controller.inFlight = h.controller.inFlight ∧
        h.serve.2.2.2.controller.state =
          if h.serve.2.2.2.controller.inFlight = 0 then .stopped else .draining) ∧
      (h.bound = false → ∀ now endings, h.serve now endings =
        (.error "start() must be called before serve()", {},
          ⟨h.controller, now, endings⟩, h))) := by
  intro u start
  have hfresh : ({} : Usage).Balanced := rfl
  have hu : u.Balanced := Usage.balanced_run hfresh controls
  refine ⟨⟨fun c hbefore hafter => ?_, Usage.drain_cases hu⟩,
    ⟨fun moments m => ⟨fun hbefore hafter => ?_, ?_⟩, ?_, ?_⟩, ?_, fun hbound => ?_,
      serve_of_unplanned, serve_of_unbound⟩
  · have hnone : (u.step c).outstanding = 0 := Usage.outstanding_of_stopped hu hbefore hafter
    have hafterCount : (u.step c).controller.inFlight = (u.step c).outstanding := hu.step c
    exact ⟨hafterCount.trans hnone, hnone⟩
  · exact (Waiting.looks_of_stopped hbefore hafter).2
  · intro drain hbefore hafter
    rw [(Waiting.stopped_of_completed hbefore hafter).2]
  · exact fun moments drain => Waiting.drain_outcome u.controller drain moments
  · intro c drain
    refine ⟨Usage.run_moments hu c drain, ?_⟩
    rintro timeout rfl
    exact (Usage.run_drain hu timeout drain).2
  · have hserved : (u.run servingControls).controller.inFlight =
        (u.run servingControls).outstanding :=
      Usage.balanced_run hu servingControls
    rw [← hserved]
    exact (served_usage u hu.endings_le).2
  · let used : Host σ := { h with controller := u.controller }
    have hused : used.bound = true := hbound
    exact serve_of_bound hused rfl

end Switchboard.Host
