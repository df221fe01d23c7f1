/-
  Mounting and routing agree.

  1. **Mounts along a run** — `Site.accepted`: the mounts of a run that succeed, with their
     services.  A turn adds a place that has passed every check, or leaves the places as they are
     (`places_step`), so along a run the places are those of the accepted mounts (`places_run`), and
     what mounting has made sure of lasts (`Settled.run`).

  2. **Routes** — `Site.routed?`: the service that a path goes to.  The paths of the probes go to
     none, whatever is mounted (`routed?_reserved`), and the path of a mount without parameters goes
     to its service (`Settled.routed?_literal`).

  3. **Handing over** — `HandedTo`: one service alone has to do with a request.  It is so for the
     service that the path goes to (`handedTo_of_routed`).
-/
import Switchboard.Echo.Service
import Switchboard.Proofs.Host.Site

namespace Switchboard.Host

open Http

variable {σ : Type}

namespace Site

variable (s : Site σ)

/-! ## Mounts along a run -/

/-- The mount that a turn is, if it succeeds: its path, and the number of its service. -/
def accepted? : Turn σ → Option (String × Nat)
  | .mount path n =>
    if s.broken then none
    else
      match (s.host.mount path (s.services n).service).1 with
      | .mounted _ => some (path, n)
      | .refused _ | .broken => none
  | _ => none

/-- The mounts of a run that succeed, in order. -/
def accepted (s : Site σ) : List (Turn σ) → List (String × Nat)
  | [] => []
  | t :: turns => (s.accepted? t).toList ++ (s.step t).accepted turns

/-- A place that passes every check of mounting. -/
structure Admits (p : Place) : Prop where
  free : s.host.mountError? p.path = none
  parsed : Pattern.parse p.path = some p.pattern
  apart : ∀ m ∈ s.host.mounts, m.pattern.clashes p.pattern = false

variable {s} in
/-- A place behind the others. -/
theorem places_mounted {path : String} {n : Nat} {next : Host σ}
    (hmounts : (s.host.mount path (s.services n).service).1 = .mounted next) :
    ∃ p : Place, s.Admits p ∧ p.path = path ∧ p.number = n ∧
      (s.mounted path n).places = s.places ++ [p] := by
  obtain ⟨pattern, herror, hparse, hclashes, rfl⟩ := mount_eq_mounted (Prod.ext hmounts rfl)
  refine ⟨⟨path, pattern, n⟩, ⟨herror, hparse, hclashes⟩, rfl, rfl, ?_⟩
  rw [mounted, hmounts]
  dsimp only
  rw [List.getLast?_concat]
  rfl

/-- Answering a request changes at most the services. -/
theorem places_sharing (r : Request) (next : Host σ) :
    (s.sharing r next).places = s.places ∧ (s.sharing r next).config = s.config := by
  unfold sharing
  split
  · exact ⟨rfl, rfl⟩
  · split <;> exact ⟨rfl, rfl⟩

/-- No turn changes the configuration. -/
theorem config_step (t : Turn σ) : (s.step t).config = s.config := by
  unfold step
  split
  · rfl
  · cases t with
    | request generatedId r => exact (s.places_sharing r _).2
    | mount path n =>
      show (s.mounted path n).config = s.config
      unfold mounted
      split <;> rfl
    | control | use | outside | start | serve | age => rfl

/-- What a turn does to the places: a mount that succeeds adds one that has passed every check, and
    nothing else does anything to them. -/
theorem places_step (t : Turn σ) :
    (s.accepted? t = none ∧ (s.step t).places = s.places) ∨
      ∃ p, s.Admits p ∧ s.accepted? t = some (p.path, p.number) ∧
        (s.step t).places = s.places ++ [p] := by
  cases hbroken : s.broken with
  | true =>
    left
    rw [s.step_broken hbroken]
    refine ⟨?_, rfl⟩
    cases t with
    | mount path n => rw [accepted?, hbroken]; rfl
    | request | control | use | outside | start | serve | age => rfl
  | false =>
    have hgoes : ¬s.broken = true := by rw [hbroken]; exact Bool.false_ne_true
    cases t with
    | request generatedId r =>
      left
      rw [step, if_neg hgoes]
      exact ⟨rfl, (s.places_sharing r _).1⟩
    | control | use | outside | start | serve | age =>
      left
      rw [step, if_neg hgoes]
      exact ⟨rfl, rfl⟩
    | mount path n =>
      rw [step, if_neg hgoes, accepted?, if_neg hgoes]
      cases hmounts : (s.host.mount path (s.services n).service).1 with
      | mounted next =>
        right
        obtain ⟨p, hadmits, rfl, rfl, hplaces⟩ := places_mounted hmounts
        exact ⟨p, hadmits, rfl, hplaces⟩
      | refused error =>
        left
        rw [mounted, hmounts]
        exact ⟨rfl, rfl⟩
      | broken =>
        left
        rw [mounted, hmounts]
        exact ⟨rfl, rfl⟩

theorem config_run (turns : List (Turn σ)) : (s.run turns).config = s.config := by
  induction turns generalizing s with
  | nil => rfl
  | cons t turns ih => exact (ih (s.step t)).trans (s.config_step t)

/-- The places of a site are those it has had, and those of the mounts that have succeeded since. -/
theorem places_run (turns : List (Turn σ)) :
    (s.run turns).places.map (fun p => (p.path, p.number)) =
      s.places.map (fun p => (p.path, p.number)) ++ s.accepted turns := by
  induction turns generalizing s with
  | nil => exact (List.append_nil _).symm
  | cons t turns ih =>
    rw [run_cons, ih, accepted]
    rcases s.places_step t with ⟨hnone, hplaces⟩ | ⟨p, -, hsome, hplaces⟩
    · rw [hnone, hplaces]
      rfl
    · rw [hsome, hplaces, List.map_append, List.append_assoc]
      rfl

theorem layout_host : s.host.layout = s.places.map fun p => (p.path, p.pattern) := List.map_map

/-- Where a site begins without mounts, the places are those of the accepted mounts. -/
theorem accepted_eq (bare : s.places = []) (turns : List (Turn σ)) :
    s.accepted turns = (s.run turns).places.map fun p => (p.path, p.number) := by
  rw [places_run, bare]
  rfl

theorem paths_accepted (bare : s.places = []) (turns : List (Turn σ)) :
    (s.accepted turns).map Prod.fst = (s.run turns).host.layout.map Prod.fst := by
  rw [s.accepted_eq bare, layout_host, List.map_map, List.map_map]
  rfl

/-- What mounting has made sure of at a site. -/
structure Settled : Prop where
  laid : Laid s.host
  slashed : ∀ x ∈ s.host.layout, x.1.toList.head? = some '/'

/-- A path that is taken begins with a slash. -/
theorem slashed_of_mountError? {h : Host σ} {path : String} (hnone : h.mountError? path = none) :
    path.toList.head? = some '/' := by
  unfold mountError? at hnone
  split at hnone
  · cases hnone
  next hslash => exact not_not.1 hslash

namespace Settled

variable {s}

theorem of_bare (bare : s.places = []) : s.Settled := by
  have hlayout : s.host.layout = [] := by rw [layout_host, bare]; rfl
  refine ⟨⟨?_, ?_, ?_⟩, ?_⟩ <;> rw [hlayout]
  · exact nofun
  · exact nofun
  · exact .nil
  · exact nofun

/-- One turn keeps it. -/
theorem step (settled : s.Settled) (t : Turn σ) : (s.step t).Settled := by
  have hconfig : (s.step t).host.config = s.host.config := s.config_step t
  rcases s.places_step t with ⟨-, hplaces⟩ | ⟨p, hadmits, -, hplaces⟩
  · have hlayout : (s.step t).host.layout = s.host.layout := by
      rw [layout_host, layout_host, hplaces]
    exact ⟨settled.laid.of_layout hlayout hconfig, hlayout ▸ settled.slashed⟩
  · have hlayout : (s.step t).host.layout = s.host.layout ++ [(p.path, p.pattern)] := by
      rw [layout_host, layout_host, hplaces, List.map_append]
      rfl
    refine ⟨settled.laid.snoc hadmits.free hadmits.parsed hadmits.apart hlayout hconfig,
      fun x hx => ?_⟩
    rcases List.mem_append.1 (hlayout ▸ hx) with hx | hx
    · exact settled.slashed x hx
    · obtain rfl := List.mem_singleton.1 hx
      exact slashed_of_mountError? hadmits.free

/-- A whole run keeps it. -/
theorem run (settled : s.Settled) (turns : List (Turn σ)) : (s.run turns).Settled := by
  induction turns generalizing s with
  | nil => exact settled
  | cons t turns ih => exact ih (settled.step t)

end Settled

/-! ## Routes -/

/-- The service that a path goes to. -/
def routed? (path : String) : Option Nat :=
  match s.host.target? path with
  | some (.mount i) => s.places[i]?.map Place.number
  | _ => none

variable {s} in
theorem routed?_eq_some {path : String} {n : Nat} :
    s.routed? path = some n ↔
      ∃ i p, s.host.target? path = some (.mount i) ∧ s.places[i]? = some p ∧ p.number = n := by
  unfold routed?
  split
  next i htarget =>
    rw [htarget, Option.map_eq_some_iff]
    constructor
    · rintro ⟨p, hplace, hn⟩
      exact ⟨i, p, rfl, hplace, hn⟩
    · rintro ⟨j, p, hj, hplace, hn⟩
      cases hj
      exact ⟨p, hplace, hn⟩
  next hother => exact ⟨nofun, fun ⟨i, _, htarget, _⟩ => absurd htarget (hother i)⟩

/-- The paths of the probes go to no service, whatever is mounted. -/
theorem routed?_reserved {path : String} (hreserved : path ∈ reservedPaths) :
    s.routed? path = none := by
  obtain ⟨probed, htarget, hprobe⟩ := s.host.target?_of_reserved hreserved
  rw [routed?, htarget]
  cases probed with
  | mount i => cases hprobe
  | health | live | ready | index => rfl

/-- A request for a path that goes to no service changes nothing. -/
theorem step_request_of_unrouted (generatedId : Bytes) {r : Request}
    (hnone : s.routed? r.uri.path = none) :
    s.step (.request generatedId r) = s := by
  refine s.step_request_of_unreached (Option.eq_none_iff_forall_ne_some.2 fun (i, m) hr => ?_)
  obtain ⟨p, hplace, -⟩ := s.place_of_reached hr
  have hrouted : s.routed? r.uri.path = some p.number :=
    routed?_eq_some.2 ⟨i, p, (reached?_eq_some.1 hr).2.2.2.1, hplace, rfl⟩
  rw [hnone] at hrouted
  cases hrouted

variable {s} in
/-- The path of a mount without parameters goes to its service, whatever other mounts fit it too. -/
theorem Settled.routed?_literal (settled : s.Settled) {p : Place} (hp : p ∈ s.places)
    (hfree : Pattern.BraceFree p.path) : s.routed? p.path = some p.number := by
  obtain ⟨i, hplace⟩ := List.getElem?_of_mem hp
  have hmount : s.host.mounts[i]? = some (s.mountOf p) := s.mount_of_place hplace
  have htarget : s.host.target? (s.mountOf p).path = some (.mount i) :=
    settled.laid.target?_literal hmount hfree
  exact routed?_eq_some.2 ⟨i, p, htarget, hplace, rfl⟩

/-! ## Handing over -/

/-- The site with other services. -/
def exchanged (services : Nat → Housed σ) : Site σ := { s with services := services }

theorem patterns_exchanged (services : Nat → Housed σ) :
    (s.exchanged services).host.mounts.map Mount.pattern = s.host.mounts.map Mount.pattern := by
  show (s.places.map (s.exchanged services).mountOf).map Mount.pattern =
    (s.places.map s.mountOf).map Mount.pattern
  rw [List.map_map, List.map_map]
  rfl

/-- Service `n`, and it alone, has to do with a request.  The answer, with all that is recorded on
    the way and all that happens to the world, is what this service makes of the request, completed
    by the layers; any other services in place of the others would make no difference.  This service
    takes its next call id, and the others stay as they are. -/
structure HandedTo (n : Nat) (generatedId : Bytes) (r : Request) : Prop where
  answered : ∀ services : Nat → Housed σ, services n = s.services n →
    ((s.exchanged services).host.answer generatedId r s.world).1 =
      (fromService r.method ((s.services n).service.serve s.host.controller.acquire
        (forwarded generatedId r) s.world).1).map (s.host.layered generatedId r)
  taken : (s.step (.request generatedId r)).services n = (s.services n).skip
  spared : ∀ k, k ≠ n → (s.step (.request generatedId r)).services k = s.services k

/-- A request is handed to the service that its path goes to. -/
theorem handedTo_of_routed {n : Nat} {r : Request} (hrouted : s.routed? r.uri.path = some n)
    (hbroken : s.broken = false) (hoptions : r.method ≠ .options)
    (htime : s.host.config.requestTimeout ≠ 0)
    (haccepts : s.usage.controller.state.acceptsCalls = true) (generatedId : Bytes) :
    s.HandedTo n generatedId r := by
  obtain ⟨i, p, htarget, hplace, rfl⟩ := routed?_eq_some.1 hrouted
  have hreached : ∀ services,
      (s.exchanged services).host.reached? r = some (i, (s.exchanged services).mountOf p) := by
    intro services
    have hexchanged : (s.exchanged services).host.target? r.uri.path = some (.mount i) := by
      rw [target?_congr (s.patterns_exchanged services) rfl, htarget]
    exact reached?_eq_some.2
      ⟨hoptions, htime, haccepts, hexchanged, (s.exchanged services).mount_of_place hplace⟩
  obtain ⟨-, hstep⟩ := s.step_request_of_reached generatedId hbroken (hreached s.services) hplace
  refine ⟨fun services hsame => ?_, ?_, fun k hk => ?_⟩
  · rw [(s.exchanged services).host.answer_eq_of_reached generatedId r s.world (hreached services)]
    have hlayers : (s.exchanged services).host.layered generatedId r =
        s.host.layered generatedId r :=
      funext fun answer? => layered_congr (s.patterns_exchanged services) rfl generatedId r answer?
    have hserved := congrArg (fun housed : Housed σ =>
      (housed.service.serve s.host.controller.acquire (forwarded generatedId r) s.world).1) hsame
    rw [hlayers]
    exact congrArg (fun ran => (fromService r.method ran).map (s.host.layered generatedId r))
      hserved
  · rw [hstep]
    exact Function.update_self ..
  · rw [hstep]
    exact Function.update_of_ne hk ..

/-- **Mounting and routing agree.**  Take any run of a site that begins without mounts, with any
    mounts in it.

    The paths of the mounts that succeed are all different, begin with a slash, and take no path of
    a probe, nor that of the static file when there is one.

    While calls are accepted, a request of any method but `OPTIONS` goes by its path as it stands.
    If this is that of a probe, no service sees the request, whatever mounts fit it: nothing
    changes, and the probe answers.  If it is that of a mount without parameters, it goes to the
    service of this mount, whatever other mounts fit it too.  And whichever mount a path goes to,
    its service alone has to do with the request.  If no mount has parameters and the path is none
    of all these, the request is answered with 404, and nothing changes. -/
theorem mounting_agrees_with_routing (s : Site σ) (bare : s.places = []) (turns : List (Turn σ)) :
    let mounts := s.accepted turns
    let done := s.run turns
    ((mounts.map Prod.fst).Nodup ∧
      ∀ path ∈ mounts.map Prod.fst, path.toList.head? = some '/' ∧ path ∉ reservedPaths ∧
        (path = "/" → s.config.staticIndex = none)) ∧
    ∀ (generatedId : Bytes) (r : Request), done.broken = false → r.method ≠ .options →
      done.usage.controller.state.acceptsCalls = true →
      let path := r.uri.path
      let turn : Turn σ := .request generatedId r
      let answer := (done.host.answer generatedId r done.world).1
      (path ∈ reservedPaths →
        done.routed? path = none ∧ done.step turn = done ∧
        (s.config.requestTimeout ≠ 0 → ∃ probed, probed.isProbe = true ∧
          answer =
            .of (done.host.layered generatedId r (some (done.host.probeReply r.method probed)))
            done.world)) ∧
      (∀ n, (path, n) ∈ mounts → Pattern.BraceFree path → done.routed? path = some n) ∧
      (∀ n, done.routed? path = some n → s.config.requestTimeout ≠ 0 →
        done.HandedTo n generatedId r) ∧
      ((∀ other ∈ mounts.map Prod.fst, Pattern.BraceFree other) → path ∉ mounts.map Prod.fst →
        path ∉ reservedPaths → (path = "/" → s.config.staticIndex = none) →
        s.config.requestTimeout ≠ 0 →
        answer.result.status = 404 ∧ answer.trace = {} ∧ done.step turn = done) := by
  intro mounts done
  have settled : done.Settled := (Settled.of_bare bare).run turns
  have hconfig : done.host.config = s.config := s.config_run turns
  have hpaths : mounts.map Prod.fst = done.host.layout.map Prod.fst := s.paths_accepted bare turns
  refine ⟨⟨?_, fun path hpath => ?_⟩, fun generatedId r hbroken hoptions haccepts => ?_⟩
  · rw [hpaths]
    exact settled.laid.nodup
  · obtain ⟨x, hx, rfl⟩ := List.mem_map.1 (hpaths ▸ hpath)
    exact ⟨settled.slashed x hx, hconfig ▸ settled.laid.unreserved x hx⟩
  intro path turn answer
  refine ⟨fun hreserved => ⟨?_, ?_, fun htime => ?_⟩, fun n hmount hfree => ?_,
    fun n hrouted htime => ?_, fun hfree hother hreserved hindex htime => ?_⟩
  · exact done.routed?_reserved hreserved
  · exact done.step_request_of_unrouted generatedId (done.routed?_reserved hreserved)
  · obtain ⟨probed, htarget, hprobe⟩ := done.host.target?_of_reserved hreserved
    have hanswer :=
      done.host.answer_at_probe generatedId done.world hoptions htarget hprobe (hconfig ▸ htime)
    exact ⟨probed, hprobe, congrArg Prod.fst hanswer⟩
  · have hmounts : mounts = done.places.map fun p => (p.path, p.number) := s.accepted_eq bare turns
    obtain ⟨p, hp, he⟩ := List.mem_map.1 (hmounts ▸ hmount)
    obtain ⟨hpath, rfl⟩ := Prod.mk.inj he
    rw [← hpath]
    exact settled.routed?_literal hp (hpath ▸ hfree)
  · exact done.handedTo_of_routed hrouted hbroken hoptions (hconfig ▸ htime) haccepts generatedId
  · have hlayout : ∀ x ∈ done.host.layout, x.1 ∈ mounts.map Prod.fst := by
      intro x hx
      rw [hpaths]
      exact List.mem_map_of_mem hx
    have htarget : done.host.target? path = none :=
      settled.laid.target?_eq_none (fun x hx => hfree _ (hlayout x hx)) hreserved (hconfig ▸ hindex)
        fun x hx he => hother (he ▸ hlayout x hx)
    have hanswer : answer =
        .of (done.host.layered generatedId r (some (.ofStatus 404))) done.world :=
      congrArg Prod.fst
        (done.host.answer_of_unrouted generatedId done.world hoptions (hconfig ▸ htime) haccepts
        htarget)
    refine ⟨?_, ?_, done.step_request_of_unrouted generatedId (by rw [routed?, htarget])⟩
    · rw [hanswer]
      exact done.host.layered_status generatedId r _
    · rw [hanswer]
      rfl

/-- Two services under overlapping paths: a parameter and a rest take nothing from a probe and from
    the path beside them, two mounts at paths that are taken fail, and the parameter takes another
    path.  Where a path without parameters is the only one, another path is answered with 404. -/
theorem overlapping_mounts_agree :
    let start : Site Unit :=
      { services := fun _ => ⟨Echo.contract, Wiring.service [] {} 0⟩
        world := () }
    let overlapping : List (Turn Unit) :=
      [.mount "/\x7bany\x7d" 1, .mount "/echo" 0, .mount "/health/\x7b*rest\x7d" 1,
        .mount "/echo" 1, .mount "/health" 0, .control .setReady]
    let single : List (Turn Unit) := [.mount "/echo" 0]
    let get (path : String) : Request := ⟨.get, ⟨none, none, path, none⟩, .http11, [], [], false⟩
    let s := start.run overlapping
    let plain := start.run single
    start.accepted overlapping = [("/\x7bany\x7d", 1), ("/echo", 0), ("/health/\x7b*rest\x7d", 1)] ∧
      s.routed? "/health/live" = none ∧ s.step (.request [] (get "/health/live")) = s ∧
      s.HandedTo 0 [] (get "/echo") ∧ s.HandedTo 1 [] (get "/other") ∧
      (plain.host.answer [] (get "/other") plain.world).1.result.status = 404 := by
  intro start overlapping single get s plain
  obtain ⟨-, hroutes⟩ := mounting_agrees_with_routing start rfl overlapping
  have hbroken : s.broken = false := by decide +kernel
  obtain ⟨hlive, -⟩ := hroutes [] (get "/health/live") hbroken (by decide) (by decide +kernel)
  obtain ⟨hnone, hsame, -⟩ := hlive (by decide)
  obtain ⟨-, hliteral, hecho, -⟩ := hroutes [] (get "/echo") hbroken (by decide) (by decide +kernel)
  obtain ⟨-, -, hother, -⟩ := hroutes [] (get "/other") hbroken (by decide) (by decide +kernel)
  obtain ⟨-, hplain⟩ := mounting_agrees_with_routing start rfl single
  obtain ⟨-, -, -, hnowhere⟩ :=
    hplain [] (get "/other") (by decide +kernel) (by decide) (by decide +kernel)
  have htime : start.config.requestTimeout ≠ 0 := show 30000 ≠ 0 by decide
  refine ⟨by decide +kernel, hnone, hsame, ?_, ?_, ?_⟩
  · exact hecho 0 (hliteral 0 (by decide +kernel) (by decide +kernel)) htime
  · exact hother 1 (by decide +kernel) htime
  · exact (hnowhere (by decide +kernel) (by decide +kernel) (by decide) (fun _ => rfl) htime).1

end Site

end Switchboard.Host
