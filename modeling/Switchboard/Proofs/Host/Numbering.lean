/-
  Call ids along the runs of a site.

  1. **Requests** — what a host adds to the events of a request that reaches a service is at most
     that the handler has panicked (`events_fromService`).

  2. **Turns** — `Site.taker?`: a turn takes a call id when it is a request that reaches a place, or
     when it serves a request or makes a context through a clone inside the process.  It takes one
     id, of that service alone (`lastCallId_step`), and goes under it (`goesUnder_of_taker`).

  3. **Runs** — so the turns of a run that take ids of a service go under consecutive ones
     (`calls_numbered`), through whichever clones they come and whatever happens between them.
-/
import Switchboard.Echo.Service
import Switchboard.Proofs.Host.Site
import Switchboard.Proofs.Service.Numbering

namespace Switchboard.Host

open Http

variable {σ : Type}

/-! ## Requests -/

/-- What a host adds to the log when the serving of a request ends. -/
def panicEvents : Service.Served → List Event
  | .panicked panic => [panicEvent panic]
  | .answered _ | .unfinished => []

theorem events_fromService (m : Method) (r : Ran σ Service.Served) :
    (fromService m r).trace.events = r.trace.events ++ panicEvents r.result := by
  unfold fromService
  split
  next response h => rw [h, panicEvents, List.append_nil]
  next panic h =>
    rw [h]
    rfl
  next h => rw [h, panicEvents, List.append_nil]

namespace Site

/-! ## Turns -/

/-- The number of the service that a turn takes a call id of, if it takes one. -/
def taker? (s : Site σ) : Turn σ → Option Nat
  | .request _ r =>
    if s.broken then none else (s.host.reached? r).bind fun (i, _) => s.places[i]?.map Place.number
  | .use n u => if s.broken ∨ (u (s.services n).contract).callIds = 0 then none else some n
  | _ => none

/-- The turns of a run that take a call id of service `n`, each with the site that it finds. -/
def takers (s : Site σ) (n : Nat) : List (Turn σ) → List (Site σ × Turn σ)
  | [] => []
  | t :: turns => (if s.taker? t = some n then [(s, t)] else []) ++ (s.step t).takers n turns

/-- All that is seen of a turn goes under a call id of service `n`.  Of a request nothing is seen
    when its handler panics before anything else, or when its body does not come in time. -/
def GoesUnder (s : Site σ) (n callId : Nat) : Turn σ → Prop
  | .request generatedId r =>
    let ran := (s.host.answer generatedId r s.world).1
    ∃ events panics, ran.trace.events = events ++ panics ∧
      (panics = [] ∨ ∃ panic, panics = [panicEvent panic]) ∧
      (s.services n).service.Numbered callId s.world events ran.state ∧
      (events = [] → panics ≠ [] ∨ ran.result.status = 408)
  | .use _ u =>
    let used := (s.services n).service.use (u _) s.world
    (s.services n).service.Numbered callId s.world used.trace.events used.world ∧
      used.seen.Shows callId used.trace.events
  | _ => False

variable {s : Site σ} {n : Nat}

theorem taker?_request {generatedId : Bytes} {r : Request} :
    s.taker? (.request generatedId r) = some n ↔
      s.broken = false ∧ ∃ i place, s.host.reached? r = some (i, s.mountOf place) ∧
        s.places[i]? = some place ∧
        place.number = n := by
  cases hbroken : s.broken with
  | true =>
    have hnone : s.taker? (.request generatedId r) = none := if_pos hbroken
    rw [hnone]
    exact ⟨nofun, nofun⟩
  | false =>
    have htaker : s.taker? (.request generatedId r) =
        (s.host.reached? r).bind fun (i, _) => s.places[i]?.map Place.number :=
      if_neg (by rw [hbroken]; exact Bool.false_ne_true)
    rw [htaker, Option.bind_eq_some_iff]
    constructor
    · rintro ⟨⟨i, m⟩, hr, hnumber⟩
      obtain ⟨place, hplace, rfl⟩ := Option.map_eq_some_iff.1 hnumber
      obtain ⟨place', hplace', rfl⟩ := s.place_of_reached hr
      obtain rfl := Option.some.inj (hplace.symm.trans hplace')
      exact ⟨rfl, i, place, hr, hplace, rfl⟩
    · rintro ⟨-, i, place, hr, hplace, hnumber⟩
      exact ⟨(i, s.mountOf place), hr, Option.map_eq_some_iff.2 ⟨place, hplace, hnumber⟩⟩

theorem taker?_use {k : Nat} {u : (c : Contract) → Use c Controller σ} :
    s.taker? (.use k u) = some n ↔
      s.broken = false ∧ (u (s.services n).contract).callIds ≠ 0 ∧ k = n := by
  show (if s.broken ∨ (u (s.services k).contract).callIds = 0 then none else some k) = some n ↔ _
  split
  next hidle =>
    refine ⟨nofun, ?_⟩
    rintro ⟨hbroken, hids, rfl⟩
    rcases hidle with hidle | hidle
    · rw [hbroken] at hidle
      cases hidle
    · exact absurd hidle hids
  next hbusy =>
    rw [not_or, Bool.not_eq_true] at hbusy
    constructor
    · rintro ⟨⟩
      exact ⟨hbusy.1, hbusy.2, rfl⟩
    · rintro ⟨-, -, rfl⟩
      rfl

/-- Whatever takes a call id of a service goes under its next one. -/
theorem goesUnder_of_taker {t : Turn σ} (h : s.taker? t = some n) :
    s.GoesUnder n ((s.services n).service.lastCallId + 1) t := by
  cases t with
  | request generatedId r =>
    obtain ⟨-, i, place, hr, -, rfl⟩ := taker?_request.1 h
    let served := s.host.served (s.mountOf place) generatedId r s.world
    obtain ⟨hnumbered, hanswered⟩ :=
      (s.services place.number).service.numbered_serve s.host.controller.acquire
      s.world (forwarded generatedId r)
    obtain ⟨hstate, hstatus, -⟩ := s.host.answer_of_reached generatedId r s.world hr
    refine ⟨served.1.trace.events, panicEvents served.1.result, ?_, ?_, ?_, fun hnone => ?_⟩
    · rw [s.host.answer_eq_of_reached generatedId r s.world hr]
      exact events_fromService r.method served.1
    · cases served.1.result with
      | answered response => exact .inl rfl
      | panicked panic => exact .inr ⟨panic, rfl⟩
      | unfinished => exact .inl rfl
    · rw [hstate]
      exact hnumbered
    · cases hresult : served.1.result with
      | answered response => exact absurd hnone (hanswered response hresult)
      | panicked panic => exact .inl (List.cons_ne_nil _ _)
      | unfinished =>
        right
        rw [hstatus]
        show served.1.result.status = 408
        rw [hresult]
        rfl
  | use k u =>
    obtain ⟨-, hids, rfl⟩ := taker?_use.1 h
    exact (s.services k).service.numbered_use s.world hids
  | control c => cases h
  | mount path k => cases h
  | outside f => cases h
  | start reason => cases h
  | serve => cases h
  | age seconds => cases h

theorem lastCallId_withService (s : Site σ) (k : Nat) (housed : Housed σ) (n : Nat) :
    ((s.withService k housed).services n).service.lastCallId =
      if n = k then housed.service.lastCallId else (s.services n).service.lastCallId := by
  show (Function.update s.services k housed n).service.lastCallId = _
  rw [Function.update_apply]
  exact apply_ite (fun housed : Housed σ => housed.service.lastCallId) _ _ _

/-- Nothing takes a call id of a site that has broken off. -/
theorem taker?_of_broken {t : Turn σ} (h : s.broken = true) : s.taker? t ≠ some n := by
  intro htaker
  have hgoes : s.broken = false := by
    cases t with
    | request generatedId r => exact (taker?_request.1 htaker).1
    | use k u => exact (taker?_use.1 htaker).1
    | _ => cases htaker
  rw [h] at hgoes
  cases hgoes

/-- A use through a clone takes its call ids of that service. -/
theorem lastCallId_step_use (hbroken : s.broken = false) (k : Nat)
    (u : (c : Contract) → Use c Controller σ) :
    ((s.step (.use k u)).services n).service.lastCallId =
      (s.services n).service.lastCallId + if s.taker? (.use k u) = some n then 1 else 0 := by
  have hgoes : ¬s.broken = true := by rw [hbroken]; exact Bool.false_ne_true
  have hcounted : ((s.services k).use u s.world).1.service.lastCallId =
      (s.services k).service.lastCallId + (u (s.services k).contract).callIds :=
    (s.services k).service.lastCallId_use s.world (u _)
  rw [step, if_neg hgoes]
  show ((s.withService k ((s.services k).use u s.world).1).services n).service.lastCallId = _
  rw [lastCallId_withService]
  by_cases hn : n = k
  · subst hn
    rw [if_pos rfl, hcounted]
    rcases (u (s.services n).contract).callIds_cases with hids | hids
    · have hnone : s.taker? (.use n u) ≠ some n := fun htaker => (taker?_use.1 htaker).2.1 hids
      rw [hids, if_neg hnone]
    · have htaker : s.taker? (.use n u) = some n := taker?_use.2 ⟨hbroken, by omega, rfl⟩
      rw [hids, if_pos htaker]
  · have hnone : s.taker? (.use k u) ≠ some n := fun htaker => hn (taker?_use.1 htaker).2.2.symm
    rw [if_neg hn, if_neg hnone, Nat.add_zero]

/-- A request takes a call id of the service that it reaches. -/
theorem lastCallId_step_request (hbroken : s.broken = false) (generatedId : Bytes) (r : Request) :
    ((s.step (.request generatedId r)).services n).service.lastCallId =
      (s.services n).service.lastCallId +
        if s.taker? (.request generatedId r) = some n then 1 else 0 := by
  cases hr : s.host.reached? r with
  | none =>
    have hnone : s.taker? (.request generatedId r) ≠ some n := by
      intro htaker
      obtain ⟨-, i, place, hreached, -⟩ := taker?_request.1 htaker
      rw [hr] at hreached
      cases hreached
    rw [s.step_request_of_unreached hr, if_neg hnone, Nat.add_zero]
  | some reached =>
    obtain ⟨i, m⟩ := reached
    obtain ⟨place, hplace, rfl⟩ := s.place_of_reached hr
    obtain ⟨-, hstep⟩ := s.step_request_of_reached generatedId hbroken hr hplace
    rw [hstep]
    show ((s.withService place.number
      (s.services place.number).skip).services n).service.lastCallId = _
    rw [lastCallId_withService]
    by_cases hn : n = place.number
    · have htaker : s.taker? (.request generatedId r) = some n :=
        taker?_request.2 ⟨hbroken, i, place, hr, hplace, hn.symm⟩
      rw [if_pos hn, if_pos htaker, hn]
      rfl
    · have hnone : s.taker? (.request generatedId r) ≠ some n := by
        intro htaker
        obtain ⟨-, i', place', hreached, hplace', hnumber⟩ := taker?_request.1 htaker
        have hi : i = i' := congrArg Prod.fst (Option.some.inj (hr.symm.trans hreached))
        rw [← hi, hplace] at hplace'
        obtain rfl := Option.some.inj hplace'
        exact hn hnumber.symm
      rw [if_neg hn, if_neg hnone, Nat.add_zero]

/-- A turn takes at most one call id, and of one service alone. -/
theorem lastCallId_step (s : Site σ) (n : Nat) (t : Turn σ) :
    ((s.step t).services n).service.lastCallId =
      (s.services n).service.lastCallId + if s.taker? t = some n then 1 else 0 := by
  cases hbroken : s.broken with
  | true => rw [s.step_broken hbroken, if_neg (taker?_of_broken hbroken), Nat.add_zero]
  | false =>
    have hgoes : ¬s.broken = true := by rw [hbroken]; exact Bool.false_ne_true
    cases t with
    | request generatedId r => exact lastCallId_step_request hbroken generatedId r
    | use k u => exact lastCallId_step_use hbroken k u
    | mount path k =>
      rw [step, if_neg hgoes, services_mounted]
      rfl
    | control c => rw [step, if_neg hgoes]; rfl
    | outside f => rw [step, if_neg hgoes]; rfl
    | start reason => rw [step, if_neg hgoes]; rfl
    | serve => rw [step, if_neg hgoes]; rfl
    | age seconds => rw [step, if_neg hgoes]; rfl

/-! ## Runs -/

/-- The turns that take call ids of a service go under its next ones, one after another. -/
theorem takers_numbered (s : Site σ) (n : Nat) (turns : List (Turn σ)) :
    List.Forall₂ (fun call callId => call.1.GoesUnder n callId call.2) (s.takers n turns)
      (List.range' ((s.services n).service.lastCallId + 1) (s.takers n turns).length) := by
  induction turns generalizing s with
  | nil => exact .nil
  | cons t turns ih =>
    have hrest := ih (s.step t)
    rw [lastCallId_step] at hrest
    rw [takers]
    by_cases htaker : s.taker? t = some n
    · rw [if_pos htaker] at hrest ⊢
      exact .cons (goesUnder_of_taker htaker) hrest
    · rw [if_neg htaker] at hrest ⊢
      exact hrest

/-- A request to no place reaches none, and neither does one that is answered at once or refused. -/
theorem reached?_eq_none {h : Host σ} {r : Request}
    (hr : r.method = .options ∨ h.controller.state.acceptsCalls = false ∨
      h.target? r.uri.path = none) :
    h.reached? r = none := by
  rw [Option.eq_none_iff_forall_ne_some]
  rintro ⟨i, m⟩ hreached
  obtain ⟨hoptions, -, haccepts, htarget, -⟩ := reached?_eq_some.1 hreached
  rcases hr with hr | hr | hr
  · exact hoptions hr
  · rw [haccepts] at hr
    cases hr
  · rw [htarget] at hr
    cases hr

/-- **Call ids.**  Take any run of a site, and a service of it with any number of clones, under
    paths and inside the process.  The turns that serve a request or make a context through one of
    the clones go under the next call ids of the service, one after another: the first under the
    first one, and so on.  What the handler is told, the span of the call and the event of its
    rejection all have this one id, in whatever way the call ends.

    No other turn takes an id of the service.  In particular `OPTIONS` takes none, a request that is
    refused takes none, and one without a route takes none, and nothing that they leave behind names
    a call. -/
theorem calls_numbered (s : Site σ) (n : Nat) (turns : List (Turn σ)) :
    let calls := s.takers n turns
    let after := s.run turns
    List.Forall₂ (fun call callId => call.1.GoesUnder n callId call.2) calls
      (List.range' ((s.services n).service.lastCallId + 1) calls.length) ∧
    (∀ t, ((after.step t).services n).service.lastCallId =
      (after.services n).service.lastCallId + if after.taker? t = some n then 1 else 0) ∧
    ∀ generatedId r,
      r.method = .options ∨ after.host.controller.state.acceptsCalls = false ∨
        after.host.target? r.uri.path = none →
        after.step (.request generatedId r) = after ∧
          (after.host.answer generatedId r after.world).1.trace.events = [] := by
  intro calls after
  refine ⟨s.takers_numbered n turns, after.lastCallId_step n, fun generatedId r hr => ?_⟩
  have hnone : after.host.reached? r = none := reached?_eq_none hr
  obtain ⟨response, hanswer⟩ := after.host.answer_eq_of_unreached generatedId r after.world hnone
  refine ⟨after.step_request_of_unreached hnone, ?_⟩
  rw [hanswer]
  rfl

/-- A context made inside the process, a request that is rejected and one that is answered at once,
    and then a call through another clone: its handler is told the third id. -/
theorem call_through_clone_is_told_third_id :
    let echoing : Registration Echo.contract Controller (Unit × List Nat) :=
      Registration.numbered ⟨Echo.echo, Echo.handleEcho⟩
    let start : Site (Unit × List Nat) :=
      { services := fun _ => ⟨Echo.contract, Wiring.service [echoing] {} 0⟩
        places := [⟨"/echo", .ofText "/echo", 0⟩, ⟨"/clone", .ofText "/clone", 0⟩]
        world := ((), []) }
    let call : Request := ⟨.post, { Uri.root with path := "/clone" }, .http11, [],
      [.data (Utf8.encode "\x7b\"message\":\"hi\"\x7d")], false⟩
    let before : List (Turn (Unit × List Nat)) := [.use 0 fun _ => .localContext,
      .request [] { call with method := .get, uri := { Uri.root with path := "/echo" } },
      .request [] { call with method := .options }]
    let s := start.run before
    s.taker? (.request [] call) = some 0 ∧ s.GoesUnder 0 3 (.request [] call) ∧ s.world.2 = [] ∧
      (s.host.answer [] call s.world).1.state.2 = [3] := by
  intro echoing start call before s
  have htaker : s.taker? (.request [] call) = some 0 := by decide +kernel
  have hlast : (s.services 0).service.lastCallId = 2 := by decide +kernel
  have hquiet : s.world.2 = [] := by decide +kernel
  have hruns : (s.host.answer [] call s.world).1.state.2 ≠ [] := by decide +kernel
  have htakers : s.takers 0 [.request [] call] = [(s, .request [] call)] := by
    rw [takers, if_pos htaker]
    rfl
  obtain ⟨hcalls, -, -⟩ := s.calls_numbered 0 [.request [] call]
  rw [htakers, hlast] at hcalls
  have hunder : s.GoesUnder 0 3 (.request [] call) := (List.forall₂_cons.1 hcalls).1
  refine ⟨htaker, hunder, hquiet, ?_⟩
  obtain ⟨events, panics, -, -, hnumbered, -⟩ := hunder
  have wired : (start.services 0).service.Each (Slot.NotesIds Prod.snd) := by
    intro name slot hslot
    have hlast : (Wiring.last? [echoing] name).map Registration.slot = some slot := by
      rw [← Wiring.slot?_registry]
      exact hslot
    obtain ⟨g, hg, rfl⟩ := Option.map_eq_some_iff.1 hlast
    obtain rfl := List.mem_singleton.1 (Wiring.mem_of_last? hg)
    exact Registration.notesIds_numbered _
  have each : (s.services 0).service.Each (Slot.NotesIds Prod.snd) :=
    start.each_run wired (by simp [before, Turn.Registers, Use.registration?])
  rcases hnumbered.told Prod.snd each with hidle | htold
  · exact absurd (hidle.trans hquiet) hruns
  · rw [htold, hquiet]
    rfl

end Site

end Switchboard.Host
