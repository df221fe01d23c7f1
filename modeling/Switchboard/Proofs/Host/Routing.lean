/-
  Where a request goes whose path is the text of a route.

  1. **Patterns** — `Pattern.ofText` covers its own text and goes before every other pattern that
     covers it (`literals_precede`), and no pattern goes before it (`precedes_literals`).

  2. **Selection** — so a path goes to the first entry that is its own text, whatever stands around
     it (`select_ofText`), and nowhere if it fits no entry (`select_eq_none`).

  3. **Probes** — no mount and no static file takes a path away from a probe (`target?_probes`), and
     a probe answers every method by itself (`answer_at_probe`).

  4. **Mounts** — `Assembled`: the hosts that come about by mounting and by use; `Laid`: what
     mounting has made sure of.  No path is taken twice (`Laid.nodup`), and a request goes to the
     mount whose path it asks for when this path has no parameters (`Laid.target?_literal`), and is
     answered by its service (`answer_of_mounted`).  Where no mount has parameters, other paths go
     nowhere (`Laid.target?_eq_none`).
-/
import Switchboard.Proofs.Host.Answer

namespace Switchboard.Host

open Http

variable {σ α : Type}

/-! ## Patterns -/

namespace Pattern

/-- A path without parameters and without doubled braces. -/
def BraceFree (path : String) : Prop := '{' ∉ path.toList ∧ '}' ∉ path.toList

instance (path : String) : Decidable (BraceFree path) := inferInstanceAs (Decidable (_ ∧ _))

theorem ofText_injective {s t : String} (h : ofText s = ofText t) : s = t := by
  have hlists : s.toList = t.toList := List.map_inj_right (fun _ _ => Token.literal.inj) |>.1 h
  exact String.toList_injective hlists

theorem covers_ofText (path : String) : (ofText path).covers path.toList = true := by
  rw [ofText]
  induction path.toList with
  | nil => rfl
  | cons c cs ih => rw [List.map_cons, covers, beq_self_eq_true, ih]; rfl

/-- No pattern goes before one that stands for itself. -/
theorem precedes_literals (p : Pattern) (cs : List Char) :
    p.precedes (cs.map .literal) = false := by
  induction p generalizing cs with
  | nil => rfl
  | cons t ts ih =>
    cases cs with
    | nil => rfl
    | cons c cs => rw [List.map_cons, precedes, ih, Bool.and_false]; rfl

/-- A text goes before every other pattern that covers it. -/
theorem literals_precede {p : Pattern} {cs : List Char} (hcovers : p.covers cs = true)
    (hother : p ≠ cs.map .literal) : Pattern.precedes (cs.map .literal) p = true := by
  induction p generalizing cs with
  | nil =>
    cases cs with
    | nil => exact absurd rfl hother
    | cons c cs => cases hcovers
  | cons t ts ih =>
    cases cs with
    | nil => cases t <;> cases hcovers
    | cons c cs =>
      cases t with
      | literal d =>
        rw [covers, Bool.and_eq_true, beq_iff_eq] at hcovers
        obtain ⟨rfl, hrest⟩ := hcovers
        have hrest' : ts ≠ cs.map .literal := fun h => hother (by rw [h, List.map_cons])
        rw [List.map_cons, precedes, ih hrest hrest']
        rfl
      | param | rest => rfl

/-- A text covers no other one. -/
theorem eq_of_covers_ofText {s t : String} (h : (ofText s).covers t.toList = true) : s = t := by
  have hlists : ∀ cs ds : List Char, covers (cs.map .literal) ds = true → cs = ds := by
    intro cs
    induction cs with
    | nil => intro ds hcovers; exact (List.isEmpty_iff.1 hcovers).symm
    | cons c cs ih =>
      intro ds hcovers
      cases ds with
      | nil => cases hcovers
      | cons d ds =>
        rw [List.map_cons, covers, Bool.and_eq_true, beq_iff_eq] at hcovers
        rw [hcovers.1, ih ds hcovers.2]
  exact String.toList_injective (hlists _ _ h)

/-- A pattern clashes with itself. -/
theorem clashes_self (p : Pattern) : p.clashes p = true := by
  induction p with
  | nil => rfl
  | cons t ts ih =>
    cases t with
    | rest => rfl
    | literal c | param =>
      rw [clashes, beq_self_eq_true, ih]
      · rfl
      all_goals exact nofun

section BraceFree

variable {cs : List Char} (hopen : '{' ∉ cs) (hclose : '}' ∉ cs)

include hopen hclose

/-- Without braces no brace is doubled. -/
theorem unescape_braceFree : unescape cs = cs.map (·, false) := by
  induction cs with
  | nil => rfl
  | cons c cs ih =>
    obtain ⟨hco, hopen⟩ := not_or.1 (mt List.mem_cons.2 hopen)
    obtain ⟨hcc, hclose⟩ := not_or.1 (mt List.mem_cons.2 hclose)
    cases cs with
    | nil => rfl
    | cons d cs =>
      rw [unescape, if_neg fun h => h.1.elim (hco ·.symm) (hcc ·.symm), ih hopen hclose]
      rfl

/-- Without braces there are no parameters. -/
theorem tokens_braceFree : tokens (cs.map (·, false)) = some (cs.map .literal) := by
  induction cs with
  | nil => rw [List.map_nil, tokens]; rfl
  | cons c cs ih =>
    obtain ⟨hco, hopen⟩ := not_or.1 (mt List.mem_cons.2 hopen)
    obtain ⟨hcc, hclose⟩ := not_or.1 (mt List.mem_cons.2 hclose)
    rw [List.map_cons, tokens, ih hopen hclose]
    · rfl
    -- The character is neither of the braces that the other equations are about.
    · exact fun he _ => hcc he.symm
    · exact fun _ _ _ _ he _ => hco he.symm
    · exact fun _ he _ => hco he.symm

end BraceFree

/-- A path without braces is read as itself. -/
theorem parse_of_braceFree {path : String} {p : Pattern} (hfree : BraceFree path)
    (hparse : parse path = some p) : p = ofText path := by
  unfold parse at hparse
  split at hparse
  · cases hparse
  · rw [unescape_braceFree hfree.1 hfree.2, tokens_braceFree hfree.1 hfree.2] at hparse
    exact (Option.some.inj hparse).symm

/-- Without parameters of the older style either, it can be read. -/
theorem parse_braceFree {path : String} (hfree : BraceFree path)
    (hplain : hasOldStyle path.toList = false) :
    parse path = some (ofText path) := by
  rw [parse, hplain, if_neg Bool.false_ne_true, unescape_braceFree hfree.1 hfree.2,
    tokens_braceFree hfree.1 hfree.2, ofText]

end Pattern

/-! ## Selection -/

/-- What is found is what was found before or one of the entries. -/
theorem mem_of_foldl_better {entries : List (Pattern × α)} {found : Option (Pattern × α)}
    {best : Pattern × α} (h : entries.foldl better found = some best) :
    found = some best ∨ best ∈ entries := by
  induction entries generalizing found with
  | nil => exact .inl h
  | cons entry entries ih =>
    rcases ih h with hbest | hmem
    · unfold better at hbest
      split at hbest
      · exact .inr (Option.some.inj hbest ▸ List.mem_cons_self)
      · split at hbest
        · exact .inr (Option.some.inj hbest ▸ List.mem_cons_self)
        · exact .inl hbest
    · exact .inr (List.mem_cons_of_mem _ hmem)

/-- Nothing is better than an entry that is a text. -/
theorem foldl_better_ofText (path : String) (a : α) (entries : List (Pattern × α)) :
    entries.foldl better (some (.ofText path, a)) = some (.ofText path, a) := by
  induction entries with
  | nil => rfl
  | cons entry entries ih =>
    have hkeeps : better (some (.ofText path, a)) entry = some (.ofText path, a) :=
      if_neg (by rw [Pattern.ofText, Pattern.precedes_literals]; exact Bool.false_ne_true)
    rw [List.foldl_cons, hkeeps, ih]

/-- A path goes to the first entry that is its own text. -/
theorem select_ofText (before : List (Pattern × α)) {after : List (Pattern × α)}
    {path : String} {a : α} (hfirst : ∀ entry ∈ before, entry.1 ≠ .ofText path) :
    select (before ++ (.ofText path, a) :: after) path = some a := by
  -- What is found in front of the entry covers the path too, and so the entry goes before it.
  have hreplaces :
    better ((before.filter fun entry => entry.1.covers path.toList).foldl better none)
      (.ofText path, a) = some (.ofText path, a) := by
    cases hbest : (before.filter fun entry => entry.1.covers path.toList).foldl better none with
    | none => rfl
    | some best =>
      have hmem := (mem_of_foldl_better hbest).resolve_left nofun
      obtain ⟨hbefore, hcovers⟩ := List.mem_filter.1 hmem
      exact if_pos (Pattern.literals_precede hcovers (hfirst best hbefore))
  have hcovers : (Pattern.ofText path, a).1.covers path.toList = true := Pattern.covers_ofText path
  rw [select, List.filter_append, List.filter_cons, if_pos hcovers,
    List.foldl_append, List.foldl_cons, hreplaces, foldl_better_ofText]
  rfl

/-- A path that fits no entry goes nowhere. -/
theorem select_eq_none {entries : List (Pattern × α)} {path : String}
    (h : ∀ entry ∈ entries, entry.1.covers path.toList = false) : select entries path = none := by
  have hfits : entries.filter (fun entry => entry.1.covers path.toList) = [] :=
    List.filter_eq_nil_iff.2 fun entry hentry hcovers => by
      rw [h entry hentry] at hcovers; cases hcovers
  rw [select, hfits]
  rfl

/-- Where a path goes is known of the patterns of the mounts alone, besides the configuration. -/
theorem target?_congr {h other : Host σ}
    (hpatterns : other.mounts.map Mount.pattern = h.mounts.map Mount.pattern)
    (hconfig : other.config = h.config) (path : String) :
    other.target? path = h.target? path := by
  have hroutes : ∀ h : Host σ, h.mounts.mapIdx (fun i m => (m.pattern, Target.mount i)) =
      (h.mounts.map Mount.pattern).mapIdx fun i pattern => (pattern, Target.mount i) := by
    intro h
    apply List.ext_getElem?
    intro i
    simp only [List.getElem?_mapIdx, List.getElem?_map, Option.map_map]
    rfl
  rw [target?, target?, routes, routes, hroutes, hroutes, hpatterns, hconfig]

/-- So are the layers around the answer. -/
theorem layered_congr {h other : Host σ}
    (hpatterns : other.mounts.map Mount.pattern = h.mounts.map Mount.pattern)
    (hconfig : other.config = h.config) (generatedId : Bytes) (r : Request)
    (answer? : Option Response) :
    other.layered generatedId r answer? = h.layered generatedId r answer? := by
  simp only [layered, target?_congr hpatterns hconfig, hconfig]

/-! ## Probes -/

/-- The probes answer at their paths, whatever is mounted. -/
theorem target?_probes (h : Host σ) :
    h.target? healthPath = some .health ∧ h.target? livePath = some .live ∧
      h.target? readyPath = some .ready := by
  have hother {s t : String} (hne : s ≠ t) : Pattern.ofText s ≠ Pattern.ofText t :=
    fun he => hne (Pattern.ofText_injective he)
  refine ⟨?_, ?_, ?_⟩
  · exact select_ofText [] nofun
  · refine select_ofText [(.ofText healthPath, Target.health)] fun r hr => ?_
    obtain rfl := List.mem_singleton.1 hr
    exact hother (by decide)
  · refine select_ofText [(.ofText healthPath, Target.health), (.ofText livePath, .live)]
      fun r hr => ?_
    rcases List.mem_cons.1 hr with rfl | hr
    · exact hother (by decide)
    · obtain rfl := List.mem_singleton.1 hr
      exact hother (by decide)

/-- The paths of the probes are the reserved ones. -/
theorem target?_of_reserved (h : Host σ) {path : String} (hreserved : path ∈ reservedPaths) :
    ∃ probed, h.target? path = some probed ∧ probed.isProbe = true := by
  obtain ⟨hhealth, hlive, hready⟩ := h.target?_probes
  simp only [reservedPaths, List.mem_cons, List.not_mem_nil, or_false] at hreserved
  rcases hreserved with rfl | rfl | rfl
  · exact ⟨_, hhealth, rfl⟩
  · exact ⟨_, hlive, rfl⟩
  · exact ⟨_, hready, rfl⟩

/-- What a probe answers to a method. -/
def probeReply (h : Host σ) (m : Method) (probed : Target) : Response :=
  if m = .get ∨ m = .head then h.probe probed else .ofStatus 405

/-- A probe answers by itself, whatever the method is, and nothing changes. -/
theorem answer_at_probe (h : Host σ) (generatedId : Bytes) {r : Request}
    (world : σ) {probed : Target}
    (hoptions : r.method ≠ .options) (htarget : h.target? r.uri.path = some probed)
    (hprobe : probed.isProbe = true) (htime : h.config.requestTimeout ≠ 0) :
    h.answer generatedId r world =
      (.of (h.layered generatedId r (some (h.probeReply r.method probed))) world, h) := by
  have hreply : h.atTarget (some probed) (identified generatedId r) world =
      (.of (some (h.probeReply r.method probed)) world, h) := by
    cases probed with
    | index | mount => cases hprobe
    | health | live | ready => simp only [atTarget, identified_method, probeReply]
  rw [h.answer_eq_layered generatedId r world hoptions htime, htarget, hreply]
  rfl

/-- A probe answers every `GET` with what it has found. -/
theorem answer_probe (h : Host σ) (generatedId : Bytes) {r : Request} (world : σ) {probed : Target}
    (hget : r.method = .get) (htarget : h.target? r.uri.path = some probed)
    (hprobe : probed.isProbe = true) (htime : h.config.requestTimeout ≠ 0) :
    h.answer generatedId r world =
      (.of (h.layered generatedId r (some (h.probe probed))) world, h) := by
  have hoptions : r.method ≠ .options := by rw [hget]; decide
  rw [h.answer_at_probe generatedId world hoptions htarget hprobe htime,
    probeReply, if_pos (.inl hget)]

/-! ## Mounts -/

/-- The hosts that come about by mounting services and by use. -/
inductive Assembled : Host σ → Prop where
  | fresh (config : Config) : Assembled { config := config }
  | mounted {h next : Host σ} {path : String} {c : Contract} {service : Service c Controller σ}
      {trace : Trace} (assembled : Assembled h)
      (mounts : h.mount path service = (.mounted next, trace)) :
      Assembled next
  /-- A mounted service is given more handlers or takes call ids. -/
  | rewired {h : Host σ} {i : Nat} {m : Mount σ} (assembled : Assembled h)
      (at_i : h.mounts[i]? = some m) (service : Service m.contract Controller σ) :
      Assembled { h with mounts := h.mounts.set i { m with service := service } }
  /-- The host moves between its states, or grows older. -/
  | moved {h : Host σ} (controller : Controller) (bound : Bool) (uptime : Nat)
      (assembled : Assembled h) :
      Assembled { h with controller := controller, bound := bound, uptime := uptime }

/-- The paths and patterns of the mounts, in order. -/
def layout (h : Host σ) : List (String × Pattern) := h.mounts.map fun m => (m.path, m.pattern)

/-- What mounting has made sure of: every mount has the pattern of its path, none takes the place of
    a probe or of the static file, and no two of them clash. -/
structure Laid (h : Host σ) : Prop where
  parsed : ∀ x ∈ h.layout, Pattern.parse x.1 = some x.2
  unreserved : ∀ x ∈ h.layout, x.1 ∉ reservedPaths ∧ (x.1 = "/" → h.config.staticIndex = none)
  apart : h.layout.Pairwise fun x y => x.2.clashes y.2 = false

/-- What is known of a mount that has been accepted. -/
theorem mount_eq_mounted {h next : Host σ} {path : String} {c : Contract}
    {service : Service c Controller σ}
    {trace : Trace} (hmounts : h.mount path service = (.mounted next, trace)) :
    ∃ pattern, h.mountError? path = none ∧ Pattern.parse path = some pattern ∧
      (∀ m ∈ h.mounts, m.pattern.clashes pattern = false) ∧
      next = { h with mounts := h.mounts ++ [⟨path, pattern, c, service⟩] } := by
  unfold mount at hmounts
  split at hmounts
  · cases hmounts
  next herror =>
    split at hmounts
    · cases hmounts
    next pattern hparse =>
      split at hmounts
      · cases hmounts
      next hclashes =>
        cases hmounts
        refine ⟨pattern, herror, hparse, fun m hm => ?_, rfl⟩
        cases hc : m.pattern.clashes pattern with
        | false => rfl
        | true => exact absurd (List.any_eq_true.2 ⟨m, hm, hc⟩) hclashes

/-- A fresh host with one service at a path without parameters. -/
theorem Assembled.single (config : Config) {path : String} (hfree : Pattern.BraceFree path)
    (hplain : Pattern.hasOldStyle path.toList = false)
    (herror : ({ config := config } : Host σ).mountError? path = none) {c : Contract}
    (service : Service c Controller σ) :
    Assembled { config := config, mounts := [⟨path, .ofText path, c, service⟩] } := by
  have hmount : ({ config := config } : Host σ).mount path service =
      (.mounted { config := config, mounts := [⟨path, .ofText path, c, service⟩] },
        .event (mountedEvent c path)) := by
    rw [mount, herror, Pattern.parse_braceFree hfree hplain]
    rfl
  exact .mounted (.fresh config) hmount

/-- A path that is taken is not reserved. -/
theorem unreserved_of_mountError? {h : Host σ} {path : String} (hnone : h.mountError? path = none) :
    path ∉ reservedPaths ∧ (path = "/" → h.config.staticIndex = none) := by
  unfold mountError? at hnone
  split at hnone
  · cases hnone
  · split at hnone
    · cases hnone
    next hreserved =>
      rw [Bool.or_eq_true, not_or, Bool.and_eq_true, not_and] at hreserved
      refine ⟨fun hmem => hreserved.1 (List.contains_iff_mem.2 hmem), fun hroot => ?_⟩
      have hindex := hreserved.2 (beq_iff_eq.2 hroot)
      cases hi : h.config.staticIndex with
      | none => rfl
      | some file => exact absurd (by rw [hi]; rfl) hindex

/-- Another service at a mount does not change the layout. -/
theorem layout_set {h : Host σ} {i : Nat} {m : Mount σ} (at_i : h.mounts[i]? = some m)
    (service : Service m.contract Controller σ) :
    ({ h with mounts := h.mounts.set i { m with service := service } } : Host σ).layout =
      h.layout := by
  have hview : (h.mounts.map fun m => (m.path, m.pattern))[i]? = some (m.path, m.pattern) := by
    rw [List.getElem?_map, at_i]
    rfl
  obtain ⟨hi, hsame⟩ := List.getElem?_eq_some_iff.1 hview
  rw [layout, List.map_set, layout]
  show List.set _ i (m.path, m.pattern) = _
  rw [← hsame, List.set_getElem_self]

/-- The routes that are there without any mount. -/
def fixedRoutes (h : Host σ) : List (Pattern × Target) :=
  [(.ofText healthPath, .health), (.ofText livePath, .live), (.ofText readyPath, .ready)] ++
    (h.config.staticIndex.map fun _ => (Pattern.ofText "/", Target.index)).toList

theorem routes_eq (h : Host σ) :
    h.routes = h.fixedRoutes ++ h.mounts.mapIdx fun i m => (m.pattern, .mount i) :=
  rfl

/-- For a path that is not reserved they are all other texts. -/
theorem ofText_of_mem_fixedRoutes {h : Host σ} {path : String} (hreserved : path ∉ reservedPaths)
    (hindex : path = "/" → h.config.staticIndex = none) {entry : Pattern × Target}
    (hentry : entry ∈ h.fixedRoutes) : ∃ s, s ≠ path ∧ entry.1 = .ofText s := by
  rcases List.mem_append.1 hentry with hprobe | hstatic
  · have hne (s : String) (hs : s ∈ reservedPaths) : s ≠ path := fun he => hreserved (he ▸ hs)
    simp only [List.mem_cons, List.not_mem_nil, or_false] at hprobe
    rcases hprobe with rfl | rfl | rfl <;> exact ⟨_, hne _ (by decide), rfl⟩
  · obtain ⟨file, hfile, rfl⟩ := Option.map_eq_some_iff.1 (Option.mem_toList.1 hstatic)
    refine ⟨"/", fun he => ?_, rfl⟩
    rw [hindex he.symm] at hfile
    cases hfile

namespace Laid

variable {h next : Host σ}

/-- It is known of the layout alone. -/
theorem of_layout (laid : Laid h) (hlayout : next.layout = h.layout)
    (hconfig : next.config = h.config) :
    Laid next :=
  ⟨hlayout ▸ laid.parsed, hlayout ▸ hconfig ▸ laid.unreserved, hlayout ▸ laid.apart⟩

/-- One more path that has been accepted. -/
theorem snoc (laid : Laid h) {path : String} {pattern : Pattern}
    (herror : h.mountError? path = none) (hparse : Pattern.parse path = some pattern)
    (hclashes : ∀ m ∈ h.mounts, m.pattern.clashes pattern = false)
    (hlayout : next.layout = h.layout ++ [(path, pattern)]) (hconfig : next.config = h.config) :
    Laid next := by
  refine ⟨fun x hx => ?_, fun x hx => ?_, ?_⟩
  · rcases List.mem_append.1 (hlayout ▸ hx) with hx | hx
    · exact laid.parsed x hx
    · obtain rfl := List.mem_singleton.1 hx
      exact hparse
  · rw [hconfig]
    rcases List.mem_append.1 (hlayout ▸ hx) with hx | hx
    · exact laid.unreserved x hx
    · obtain rfl := List.mem_singleton.1 hx
      exact unreserved_of_mountError? herror
  · rw [hlayout]
    refine List.pairwise_append.2 ⟨laid.apart, List.pairwise_singleton _ _, fun x hx y hy => ?_⟩
    obtain rfl := List.mem_singleton.1 hy
    obtain ⟨m, hm, rfl⟩ := List.mem_map.1 hx
    exact hclashes m hm

/-- No path is taken twice: its pattern would clash with itself. -/
theorem nodup (laid : Laid h) : (h.layout.map Prod.fst).Nodup := by
  refine List.pairwise_map.2 (laid.apart.imp_of_mem fun {x y} hx hy hapart hsame => ?_)
  have hpatterns : x.2 = y.2 := by
    have hparsed := (laid.parsed x hx).symm.trans (hsame ▸ laid.parsed y hy)
    exact Option.some.inj hparsed
  rw [hpatterns, Pattern.clashes_self] at hapart
  cases hapart

end Laid

theorem Assembled.laid {h : Host σ} (assembled : Assembled h) : Laid h := by
  induction assembled with
  | fresh config => exact ⟨nofun, nofun, .nil⟩
  | mounted assembled mounts ih =>
    obtain ⟨pattern, herror, hparse, hclashes, rfl⟩ := mount_eq_mounted mounts
    exact ih.snoc herror hparse hclashes List.map_append rfl
  | rewired assembled at_i service ih => exact ih.of_layout (layout_set at_i service) rfl
  | moved controller bound uptime assembled ih => exact ih.of_layout rfl rfl

/-- The path of a mount without parameters goes to this mount. -/
theorem Laid.target?_literal {h : Host σ} (laid : Laid h) {i : Nat} {m : Mount σ}
    (at_i : h.mounts[i]? = some m) (hfree : Pattern.BraceFree m.path) :
    h.target? m.path = some (.mount i) := by
  obtain ⟨hi, rfl⟩ := List.getElem?_eq_some_iff.1 at_i
  have hmem : (h.mounts[i].path, h.mounts[i].pattern) ∈ h.layout :=
    List.mem_map_of_mem (List.getElem_mem hi)
  have hpattern : h.mounts[i].pattern = .ofText h.mounts[i].path :=
    Pattern.parse_of_braceFree hfree (laid.parsed _ hmem)
  -- In front of the mount stand the fixed routes and the earlier mounts.
  let entries := h.mounts.mapIdx fun i m => (m.pattern, Target.mount i)
  have hlength : i < entries.length := by rwa [List.length_mapIdx]
  have hentry : entries[i] = (.ofText h.mounts[i].path, .mount i) := by
    rw [List.getElem_mapIdx, hpattern]
  have hentries : entries = entries.take i ++ (.ofText h.mounts[i].path, .mount i) ::
      entries.drop (i + 1) := by
    rw [← hentry, ← List.drop_eq_getElem_cons hlength, List.take_append_drop]
  rw [target?, routes_eq, show h.mounts.mapIdx _ = _ from hentries, ← List.append_assoc]
  refine select_ofText _ fun entry hmem_front => ?_
  obtain ⟨hreserved, hroot⟩ := laid.unreserved _ hmem
  rcases List.mem_append.1 hmem_front with hfixed | hearlier
  · obtain ⟨s, hne, hentry⟩ := ofText_of_mem_fixedRoutes hreserved hroot hfixed
    rw [hentry]
    exact fun he => hne (Pattern.ofText_injective he)
  · obtain ⟨j, hj, rfl⟩ := List.mem_take_iff_getElem.1 hearlier
    obtain ⟨hji, hjl⟩ := Nat.lt_min.1 hj
    have hjm : j < h.mounts.length := Nat.lt_trans hji hi
    have hapart := List.pairwise_iff_getElem.1 (List.pairwise_map.1 laid.apart) j i hjm hi hji
    rw [List.getElem_mapIdx]
    intro (hsame : h.mounts[j].pattern = .ofText h.mounts[i].path)
    rw [hsame, hpattern, Pattern.clashes_self] at hapart
    cases hapart

/-- Without parameters in any of the mounts, only their own paths go anywhere, besides the fixed
    ones. -/
theorem Laid.target?_eq_none {h : Host σ} (laid : Laid h) {path : String}
    (hfree : ∀ x ∈ h.layout, Pattern.BraceFree x.1) (hreserved : path ∉ reservedPaths)
    (hindex : path = "/" → h.config.staticIndex = none) (hother : ∀ x ∈ h.layout, x.1 ≠ path) :
    h.target? path = none := by
  have hmisses {s : String} (hne : s ≠ path) : (Pattern.ofText s).covers path.toList = false := by
    cases hcovers : (Pattern.ofText s).covers path.toList with
    | false => rfl
    | true => exact absurd (Pattern.eq_of_covers_ofText hcovers) hne
  rw [target?, routes_eq]
  refine select_eq_none fun entry hentry => ?_
  rcases List.mem_append.1 hentry with hfixed | hmount
  · obtain ⟨s, hne, hs⟩ := ofText_of_mem_fixedRoutes hreserved hindex hfixed
    rw [hs]
    exact hmisses hne
  · obtain ⟨i, hi, rfl⟩ := List.mem_mapIdx.1 hmount
    have hmem : (h.mounts[i].path, h.mounts[i].pattern) ∈ h.layout :=
      List.mem_map_of_mem (List.getElem_mem hi)
    have hpattern := Pattern.parse_of_braceFree (hfree _ hmem) (laid.parsed _ hmem)
    show h.mounts[i].pattern.covers path.toList = false
    rw [show h.mounts[i].pattern = .ofText h.mounts[i].path from hpattern]
    exact hmisses (hother _ hmem)

/-- A host hands a `POST` for the path of a mount without parameters to its service, and passes its
    answer on. -/
theorem answer_of_mounted {h : Host σ} (assembled : Assembled h) {i : Nat} {m : Mount σ}
    (at_i : h.mounts[i]? = some m) (free : Pattern.BraceFree m.path)
    (accepts : h.controller.state.acceptsCalls = true) (time : h.config.requestTimeout ≠ 0)
    (generatedId : Bytes) {r : Request} (hpost : r.method = .post)
    (hpath : r.uri.path = m.path) (world : σ) :
    let ran := (h.answer generatedId r world).1
    let served := (h.served m generatedId r world).1
    ran.state = served.state ∧
      ∀ response, served.result = .answered response →
        ran.result.status = response.status ∧ ran.result.body = response.body := by
  intro ran served
  have hoptions : r.method ≠ .options := by rw [hpost]; decide
  have hr : h.reached? r = some (i, m) :=
    reached?_eq_some.2 ⟨hoptions, time, accepts,
      hpath ▸ assembled.laid.target?_literal at_i free, at_i⟩
  refine ⟨(h.answer_of_reached generatedId r world hr).1, fun response hresponse => ?_⟩
  have hkept : withoutTunnelBody r.method response = response :=
    if_neg fun hconnect => absurd (hpost.symm.trans hconnect.1) (by decide)
  exact h.answer_of_answered generatedId r world hr hresponse hkept

end Switchboard.Host
