/-
  How mounting ends.

  1. **Ends** — mounting refuses a path that is `Barred` by one of its checks.  It breaks off at any
     other path that is `Unroutable`: one that is no pattern, or whose pattern clashes with that of
     a mount.  Otherwise it succeeds (`mount_cases`).

  2. **Refusals** — a mount that is refused is as if it had not been tried, for all that comes later
     (`run_of_refused`).

  3. **Breaking off** — so every mount ends with an answer where no path has a brace and no segment
     of the new one begins with a colon or a star; where paths have parameters, those of other names
     are not refused but break mounting off (`refused_mount_leaves_no_trace`,
     `renamed_parameter_breaks_off`).
-/
import Switchboard.Proofs.Host.Mounting

namespace Switchboard.Host

open Http

variable {σ : Type}

/-! ## Ends -/

/-- A check of mounting bars the path, where other paths are taken. -/
def Barred (config : Config) (taken : List String) (path : String) : Prop :=
  path.toList.head? ≠ some '/' ∨ path ∈ reservedPaths ∨
    (path = "/" ∧ config.staticIndex.isSome = true) ∨ path ∈ taken

/-- There is no route for the path beside those of other paths: it is no pattern, or its pattern
    clashes with one of theirs. -/
def Unroutable (taken : List String) (path : String) : Prop :=
  ∀ p, Pattern.parse path = some p →
    ∃ other ∈ taken, ∃ q, Pattern.parse other = some q ∧ q.clashes p = true

theorem mountError?_eq_none_iff {h : Host σ} {path : String} :
    h.mountError? path = none ↔ ¬Barred h.config (h.layout.map Prod.fst) path := by
  have hreserved :
    (reservedPaths.contains path || (path == "/" && h.config.staticIndex.isSome)) = true ↔
      path ∈ reservedPaths ∨ path = "/" ∧ h.config.staticIndex.isSome = true := by
    rw [Bool.or_eq_true, Bool.and_eq_true, List.contains_iff_mem, beq_iff_eq]
  have htaken : h.mounts.any (·.path == path) = true ↔ path ∈ h.layout.map Prod.fst := by
    simp [layout]
  rw [mountError?, Barred, ← or_assoc (a := path ∈ reservedPaths), ← hreserved, ← htaken]
  by_cases hslash : path.toList.head? ≠ some '/'
  · rw [if_pos hslash]
    exact iff_of_false (Option.some_ne_none _) (not_not_intro (.inl hslash))
  rw [if_neg hslash]
  split
  next hbuiltIn => exact iff_of_false (Option.some_ne_none _) (not_not_intro (.inr (.inl hbuiltIn)))
  next hfree =>
    split
    next hused => exact iff_of_false (Option.some_ne_none _) (not_not_intro (.inr (.inr hused)))
    next hunused =>
      refine iff_of_true rfl ?_
      rintro (h | h | h)
      · exact hslash h
      · exact hfree h
      · exact hunused h

/-- The three ways in which mounting ends. -/
theorem mount_cases (h : Host σ) (path : String) {c : Contract} (service : Service c Controller σ) :
    (∃ e, h.mountError? path = some e ∧ h.mount path service = (.refused e, {})) ∨
    (h.mountError? path = none ∧
      (∀ p, Pattern.parse path = some p → ∃ m ∈ h.mounts, m.pattern.clashes p = true) ∧
      (h.mount path service).1 = .broken) ∨
    (∃ p next, h.mountError? path = none ∧ Pattern.parse path = some p ∧
      (∀ m ∈ h.mounts, m.pattern.clashes p = false) ∧
      (h.mount path service).1 = .mounted next) := by
  unfold mount
  cases herror : h.mountError? path with
  | some e => exact .inl ⟨e, rfl, rfl⟩
  | none =>
    cases hparse : Pattern.parse path with
    | none =>
      refine .inr (.inl ⟨rfl, fun p hp => ?_, rfl⟩)
      cases hp
    | some p =>
      dsimp only
      split
      next hclashes =>
        refine .inr (.inl ⟨rfl, ?_, rfl⟩)
        rintro _ ⟨⟩
        exact List.any_eq_true.1 hclashes
      next hapart =>
        refine .inr (.inr ⟨p, _, rfl, rfl, fun m hm => ?_, rfl⟩)
        cases hclashes : m.pattern.clashes p with
        | false => rfl
        | true => exact absurd (List.any_eq_true.2 ⟨m, hm, hclashes⟩) hapart

/-- What cannot stand beside the mounts of a host is what cannot stand beside their paths. -/
theorem Laid.unroutable_iff {h : Host σ} (laid : Laid h) {path : String} :
    Unroutable (h.layout.map Prod.fst) path ↔
      ∀ p, Pattern.parse path = some p → ∃ m ∈ h.mounts, m.pattern.clashes p = true := by
  have hparsed : ∀ m ∈ h.mounts, Pattern.parse m.path = some m.pattern := fun m hm =>
    laid.parsed (m.path, m.pattern) (List.mem_map_of_mem hm)
  have hpaths : h.layout.map Prod.fst = h.mounts.map Mount.path := List.map_map
  rw [hpaths]
  refine forall₂_congr fun p _ => ?_
  constructor
  · rintro ⟨other, hother, q, hq, hclashes⟩
    obtain ⟨m, hm, rfl⟩ := List.mem_map.1 hother
    obtain rfl := Option.some.inj ((hparsed m hm).symm.trans hq)
    exact ⟨m, hm, hclashes⟩
  · rintro ⟨m, hm, hclashes⟩
    exact ⟨m.path, List.mem_map_of_mem hm, m.pattern, hparsed m hm, hclashes⟩

namespace Pattern

/-- Two texts clash only if they are the same. -/
theorem eq_of_clashes_ofText {s t : String} (h : (ofText s).clashes (ofText t) = true) : s = t := by
  have hlists : ∀ cs ds : List Char,
      clashes (cs.map .literal) (ds.map .literal) = true → cs = ds := by
    intro cs
    induction cs with
    | nil =>
      intro ds hclashes
      cases ds with
      | nil => rfl
      | cons d ds => cases hclashes
    | cons c cs ih =>
      intro ds hclashes
      cases ds with
      | nil => cases hclashes
      | cons d ds =>
        have htokens : (Token.literal c == Token.literal d) = true ∧
            clashes (cs.map .literal) (ds.map .literal) = true := Bool.and_eq_true_iff.1 hclashes
        obtain rfl := Token.literal.inj (eq_of_beq htokens.1)
        rw [ih ds htokens.2]
  exact String.toList_injective (hlists _ _ h)

end Pattern

/-- Paths without parameters leave room for one more. -/
theorem not_unroutable_of_braceFree {config : Config} {taken : List String} {path : String}
    (hfree : Pattern.BraceFree path) (hothers : ∀ other ∈ taken, Pattern.BraceFree other)
    (hplain : Pattern.hasOldStyle path.toList = false) (hbarred : ¬Barred config taken path) :
    ¬Unroutable taken path := by
  intro hnowhere
  obtain ⟨other, hother, q, hparse, hclashes⟩ := hnowhere _ (Pattern.parse_braceFree hfree hplain)
  obtain rfl := Pattern.parse_of_braceFree (hothers other hother) hparse
  obtain rfl := Pattern.eq_of_clashes_ofText hclashes
  exact hbarred (.inr (.inr (.inr hother)))

/-! ## Refusals -/

namespace Site

section Refusals

variable {s : Site σ} {path : String} {n : Nat} {e : MountError}
  (refused : (s.host.mount path (s.services n).service).1 = .refused e)

include refused

/-- A mount that is refused leaves the site as it is. -/
theorem step_of_refused : s.step (.mount path n) = s := by
  rw [step]
  split
  · rfl
  · show s.mounted path n = s
    rw [mounted, refused]

theorem accepted?_of_refused : s.accepted? (.mount path n) = none := by
  rw [accepted?]
  split
  · rfl
  · rw [refused]

end Refusals

theorem accepted_append (s : Site σ) (turns later : List (Turn σ)) :
    s.accepted (turns ++ later) = s.accepted turns ++ (s.run turns).accepted later := by
  induction turns generalizing s with
  | nil => rfl
  | cons t turns ih => rw [List.cons_append, accepted, accepted, ih, List.append_assoc, run_cons]

/-- Whatever comes later goes as if the mount had not been tried. -/
theorem run_of_refused (start : Site σ) (turns : List (Turn σ)) {path : String}
    {n : Nat} {e : MountError}
    (refused :
      ((start.run turns).host.mount path ((start.run turns).services n).service).1 = .refused e)
    (later : List (Turn σ)) :
    start.run (turns ++ .mount path n :: later) = start.run (turns ++ later) ∧
      start.replies (turns ++ .mount path n :: later) = start.replies (turns ++ later) ∧
      start.accepted (turns ++ .mount path n :: later) = start.accepted (turns ++ later) := by
  have hstep := step_of_refused refused
  refine ⟨?_, ?_, ?_⟩
  · rw [run_append, run_cons, hstep, run_append]
  · rw [replies_append, replies, hstep, replies_append]
    rfl
  · rw [accepted_append, accepted, hstep, accepted?_of_refused refused, accepted_append]
    rfl

/-! ## Breaking off -/

/-- Only a mount that breaks off ends a site. -/
theorem broken_of_mounted {s : Site σ} {path : String} {n : Nat} (hbefore : s.broken = false)
    (hafter : (s.mounted path n).broken = true) :
    (s.host.mount path (s.services n).service).1 = .broken := by
  rw [mounted] at hafter
  cases hmount : (s.host.mount path (s.services n).service).1 with
  | mounted next =>
    rw [hmount] at hafter
    exact absurd (hbefore.symm.trans hafter) Bool.false_ne_true
  | refused e =>
    rw [hmount] at hafter
    exact absurd (hbefore.symm.trans hafter) Bool.false_ne_true
  | broken => rfl

/-- **Mounting and its refusals.**  At any point of a run that begins without mounts, take any path
    that a service is to be mounted at.  Mounting is refused exactly if one of its checks bars the
    path: it does not begin with a slash, is that of a probe, is that of the static file where there
    is one, or is the path of a mount, character for character.  Then nothing is logged, the site is
    as it was, and every later run has the same end, the same answers and the same mounts as without
    the attempt.  Any other path is mounted exactly if there is a route for it; else mounting breaks
    off.  As long as no path has a brace, only a path in which a segment begins with a colon or a
    star does that. -/
theorem refused_mount_leaves_no_trace (start : Site σ) (bare : start.places = [])
    (turns : List (Turn σ)) (path : String) (n : Nat) :
    let done := start.run turns
    let taken := (start.accepted turns).map Prod.fst
    let mounting := done.host.mount path (done.services n).service
    let turn : Turn σ := .mount path n
    ((∃ e, mounting.1 = .refused e) ↔ Barred start.config taken path) ∧
      ((∃ next, mounting.1 = .mounted next) ↔
        ¬Barred start.config taken path ∧ ¬Unroutable taken path) ∧
      (mounting.1 = .broken ↔ ¬Barred start.config taken path ∧ Unroutable taken path) ∧
      (Barred start.config taken path → mounting.2.events = [] ∧ done.step turn = done ∧ ∀ later,
        start.run (turns ++ turn :: later) = start.run (turns ++ later) ∧
          start.replies (turns ++ turn :: later) = start.replies (turns ++ later) ∧
          start.accepted (turns ++ turn :: later) = start.accepted (turns ++ later)) ∧
      (Pattern.BraceFree path → (∀ other ∈ taken, Pattern.BraceFree other) →
        Pattern.hasOldStyle path.toList = false → mounting.1 ≠ .broken) := by
  intro done taken mounting turn
  have settled : done.Settled := (Settled.of_bare bare).run turns
  have hconfig : done.host.config = start.config := start.config_run turns
  have htaken : taken = done.host.layout.map Prod.fst := start.paths_accepted bare turns
  have hbarred : done.host.mountError? path = none ↔ ¬Barred start.config taken path := by
    rw [mountError?_eq_none_iff, hconfig, htaken]
  have hroutes : Unroutable (done.host.layout.map Prod.fst) path ↔ _ := settled.laid.unroutable_iff
  rw [← htaken] at hroutes
  rcases mount_cases done.host path (done.services n).service with
    ⟨e, herror, hmount⟩ | ⟨hnone, hclashes, hmount⟩ | ⟨p, next, hnone, hparse, hapart, hmount⟩
  · have hbars : Barred start.config taken path := by
      by_contra hfree
      rw [hbarred.2 hfree] at herror
      cases herror
    have hrefused : mounting.1 = .refused e := congrArg Prod.fst hmount
    rw [hrefused]
    refine ⟨iff_of_true ⟨e, rfl⟩ hbars, iff_of_false ?_ fun h => h.1 hbars,
      iff_of_false ?_ fun h => h.1 hbars,
      fun _ => ⟨congrArg (fun ended => ended.2.events) hmount, step_of_refused hrefused,
        run_of_refused start turns hrefused⟩, fun _ _ _ => ?_⟩
    · rintro ⟨next, h⟩
      cases h
    · intro h
      cases h
    · intro h
      cases h
  · have hfree : ¬Barred start.config taken path := hbarred.1 hnone
    have hnowhere : Unroutable taken path := hroutes.2 hclashes
    rw [show mounting.1 = .broken from hmount]
    refine ⟨iff_of_false ?_ hfree, iff_of_false ?_ fun h => h.2 hnowhere,
      iff_of_true rfl ⟨hfree, hnowhere⟩, fun hbars => absurd hbars hfree,
      fun hbrace hothers hplain => absurd hnowhere
        (not_unroutable_of_braceFree hbrace hothers hplain hfree)⟩
    · rintro ⟨e, h⟩
      cases h
    · rintro ⟨next, h⟩
      cases h
  · have hfree : ¬Barred start.config taken path := hbarred.1 hnone
    have hsomewhere : ¬Unroutable taken path := by
      intro hnowhere
      obtain ⟨m, hm, hclashes⟩ := hroutes.1 hnowhere p hparse
      rw [hapart m hm] at hclashes
      cases hclashes
    rw [show mounting.1 = .mounted next from hmount]
    refine ⟨iff_of_false ?_ hfree, iff_of_true ⟨next, rfl⟩ ⟨hfree, hsomewhere⟩,
      iff_of_false ?_ fun h => hsomewhere h.2, fun hbars => absurd hbars hfree, fun _ _ _ => ?_⟩
    · rintro ⟨e, h⟩
      cases h
    · intro h
      cases h
    · intro h
      cases h

/-- Beside a mount with a parameter, a second service under the path of the first is refused, and a
    request that comes later is answered as if it had not been tried. -/
theorem second_echo_is_refused :
    let start : Site Unit :=
      { services := fun _ => ⟨Echo.contract, Wiring.service [] {} 0⟩
        world := () }
    let turns : List (Turn Unit) := [.mount "/\x7ba\x7d" 0, .mount "/echo" 0]
    let look : Turn Unit :=
      .request [] ⟨.get, ⟨none, none, healthPath, none⟩, .http11, [], [], false⟩
    let done := start.run turns
    start.accepted turns = [("/\x7ba\x7d", 0), ("/echo", 0)] ∧ done.broken = false ∧
      (∃ e, (done.host.mount "/echo" (done.services 1).service).1 = .refused e) ∧
      done.step (.mount "/echo" 1) = done ∧
      start.replies (turns ++ .mount "/echo" 1 :: [look]) = start.replies (turns ++ [look]) := by
  intro start turns look done
  obtain ⟨hrefused, -, -, hspared, -⟩ := refused_mount_leaves_no_trace start rfl turns "/echo" 1
  have hbarred : Barred start.config ((start.accepted turns).map Prod.fst) "/echo" :=
    .inr (.inr (.inr (by decide +kernel)))
  obtain ⟨-, hstep, hlater⟩ := hspared hbarred
  exact ⟨by decide +kernel, by decide +kernel, hrefused.2 hbarred, hstep, (hlater [look]).2.1⟩

/-- A path that differs from that of a mount in the name of its parameter only is not refused:
    mounting breaks off, and a request that would have been answered is not. -/
theorem renamed_parameter_breaks_off :
    let start : Site Unit :=
      { services := fun _ => ⟨Echo.contract, Wiring.service [] {} 0⟩
        world := () }
    let first : Turn Unit := .mount "/\x7ba\x7d" 0
    let second : Turn Unit := .mount "/\x7bb\x7d" 1
    let look : Turn Unit :=
      .request [] ⟨.get, ⟨none, none, healthPath, none⟩, .http11, [], [], false⟩
    let done := start.run [first]
    start.accepted [first] = [("/\x7ba\x7d", 0)] ∧
      (done.host.mount "/\x7bb\x7d" (done.services 1).service).1 = .broken ∧
      (start.replies [first, look]).length = 1 ∧ start.replies [first, second, look] = [] := by
  intro start first second look done
  have hbefore : done.broken = false := by decide +kernel
  have hafter : (done.mounted "/\x7bb\x7d" 1).broken = true := by decide +kernel
  refine ⟨by decide +kernel, broken_of_mounted hbefore hafter, by decide +kernel, ?_⟩
  exact List.eq_nil_of_length_eq_zero (by decide +kernel)

end Site

end Switchboard.Host
