/-
  Every call is accounted for exactly once.

  1. **Calls** — an `Entry` is a call on its way to a handler, and `Occurrence.incoming?` is the one
     that a use of a service makes, whichever way it takes: a request, a dispatch or a typed call.

  2. **Receipts** — a `Receipt` is what the end of a call adds to the trace: one event, one sample
     that counts and one that times.  `Receipt.Tells` says how it tells the end of the call.

  3. **One use** — `Entry.trace_dispatched` for a use that makes a call, `balance` for any use: what
     has ended is rejected, counted or panicked.

  4. **Whole runs** — `calls_accounted_once`.

  The name of a call is looked up twice, for the label and for the handler.  Both look-ups are the
  declaration of the contract (`label_eq`), so they agree as long as no operation is named like the
  label of the undeclared ones.
-/
import Switchboard.Echo.Service
import Switchboard.Proofs.Service.Process

namespace Switchboard

open Http

variable {c : Contract} {ε σ : Type}

/-! ## Calls -/

/-- A call on its way to a handler. -/
structure Entry (ε : Type) where
  surroundings : ε
  context : CallContext
  operation : String
  payload : Bytes

namespace Entry

/-- The span of a call while it runs. -/
def span (c : Contract) (k : Entry ε) : Span :=
  ⟨k.context.service, Service.label c k.operation, k.context.callId, none⟩

/-- The run of the handler of a call, or the refusal of the call. -/
def performed (k : Entry ε) (s : Service c ε σ) (world : σ) : Ran σ (Outcome CallError Bytes) :=
  s.perform k.surroundings k.context k.operation k.payload world

/-- The same, measured. -/
def dispatched (k : Entry ε) (s : Service c ε σ) (world : σ) : Ran σ (Outcome CallError Bytes) :=
  s.dispatch k.surroundings k.context k.operation k.payload world

theorem dispatched_eq (k : Entry ε) (s : Service c ε σ) (world : σ) :
    k.dispatched s world = Service.measured c k.context k.operation (k.performed s world) := rfl

end Entry

/-- What a use shows when its call ends with a result. -/
def Use.shows : Use c ε σ → Outcome CallError Bytes → Seen c
  | .serve .., result => .served (Service.respond result)
  | .call _ _ op _, result => .called op (Service.readResponse op result)
  | _, result => .dispatched result

namespace Occurrence

variable (o : Occurrence c ε σ)

/-- The call that a use makes, if it makes one. -/
def incoming? : Option (Entry ε) :=
  match o.use with
  | .serve surroundings r =>
    match o.service.prepare (o.service.lastCallId + 1) r with
    | .ok (some (context, operation, payload)) => some ⟨surroundings, context, operation, payload⟩
    | _ => none
  | .dispatch surroundings context operation payload =>
    some ⟨surroundings, context, operation, payload⟩
  | .call surroundings context op request =>
    match op.request.encode request with
    | .ok payload => some ⟨surroundings, context, op.name, payload⟩
    | .error _ => none
  | _ => none

/-- What the handler does in that call. -/
def performed? : Option (Ran σ (Outcome CallError Bytes)) :=
  o.incoming?.map fun k => k.performed o.service o.world

/-- A use that makes a call shows the result of the call and does what the call does. -/
theorem used_of_entry {k : Entry ε} (h : o.incoming? = some k) :
    o.used.seen = o.use.shows (k.dispatched o.service o.world).result ∧
      o.used.world = (k.dispatched o.service o.world).state ∧
      o.used.trace = (k.dispatched o.service o.world).trace := by
  obtain ⟨number, s, u, world⟩ := o
  cases u with
  | register g => cases h
  | localContext => cases h
  | registered => cases h
  | isRegistered name => cases h
  | dispatch surroundings context operation payload =>
    cases h
    exact ⟨rfl, rfl, rfl⟩
  | call surroundings context op request =>
    simp only [incoming?] at h
    simp only [used, Service.use, Service.call]
    cases hp : op.request.encode request with
    | error reason => rw [hp] at h; cases h
    | ok payload =>
      rw [hp] at h
      cases h
      exact ⟨rfl, rfl, rfl⟩
  | serve surroundings r =>
    simp only [incoming?] at h
    simp only [used, Service.use, Service.serve, Service.serveAs, Service.nextCallId]
    rcases hp : s.prepare (s.lastCallId + 1) r with e | _ | ⟨context, operation, payload⟩
    · rw [hp] at h
      cases h
    · rw [hp] at h
      cases h
    · rw [hp] at h
      cases h
      exact ⟨rfl, rfl, rfl⟩

/-- A request that is rejected leaves one event. -/
theorem trace_of_rejected {surroundings : ε} {r : Request} {e : CallError}
    (hu : o.use = .serve surroundings r)
    (hp : o.service.prepare (o.service.lastCallId + 1) r = .error e) :
    o.used.trace = ⟨[Service.rejectedEvent c (o.service.lastCallId + 1) e], []⟩ := by
  have hserve : (o.service.serve surroundings r o.world).1.trace = _ :=
    congrArg Ran.trace (Service.serve_of_refused hp)
  rw [used, hu]
  exact hserve

end Occurrence

/-! ## Labels -/

namespace Service

theorem label_eq (c : Contract) (operation : String) :
    label c operation = if operation ∈ c.operations then operation else unknownLabel := by
  rw [label, Contract.declares_eq]
  by_cases h : operation ∈ c.operations
  · rw [if_pos h, if_pos h]
    rfl
  · rw [if_neg h, if_neg h]
    rfl

/-- Only what is not declared has the label of the undeclared. -/
theorem label_eq_unknown_iff (reserved : unknownLabel ∉ c.operations) (operation : String) :
    label c operation = unknownLabel ↔ operation ∉ c.operations := by
  rw [label_eq]
  by_cases h : operation ∈ c.operations
  · rw [if_pos h]
    constructor
    · intro heq
      exact absurd (heq ▸ h) reserved
    · intro hn
      exact absurd h hn
  · rw [if_neg h]
    exact ⟨fun _ => h, fun _ => rfl⟩

end Service

namespace CallError

theorem kind_ne_ok (e : CallError) : e.kind ≠ "ok" := by
  cases e <;> simp [kind]

/-- Every kind of error has its own label: this one belongs to the operations that are not
    declared. -/
theorem kind_eq_unknown_iff (e : CallError) :
    e.kind = "unknown_operation" ↔ ∃ name, e = .unknownOperation name := by
  cases e <;> simp [kind]

theorem isServerError_iff (e : CallError) :
    e.isServerError = true ↔ 500 ≤ e.status ∧ e.status ≤ 599 := by
  rw [isServerError, Bool.and_eq_true, decide_eq_true_iff, decide_eq_true_iff]

end CallError

namespace Service

/-- A wired service fails with `unknownOperation` exactly where the operation is not declared: no
    slot of a registration does. -/
theorem perform_unknown_iff (w : Wiring c ε σ) (config : DispatchConfig) (lastCallId : Nat)
    (surroundings : ε) (context : CallContext) (operation : String) (payload : Bytes) (world : σ) :
    (∃ name,
      ((w.service config lastCallId).perform surroundings context operation payload world).result =
      .failed (.unknownOperation name)) ↔ operation ∉ c.operations := by
  by_cases hd : operation ∈ c.operations
  · refine ⟨?_, fun hn => absurd hd hn⟩
    rintro ⟨name, hname⟩
    cases hl : w.last? operation with
    | none =>
      rw [perform_unregistered _ _ _ _ _ _ _ hd hl] at hname
      cases hname
    | some g =>
      rw [perform_registered _ _ _ _ _ _ _ hl, Registration.slot, Operation.slot] at hname
      split at hname
      · cases hname
      · next request _ =>
        rw [Ran.result_map] at hname
        cases hhandled : (g.handler surroundings context request world).result with
        | failed error => rw [hhandled] at hname; cases hname
        | panicked panic => rw [hhandled] at hname; cases hname
        | done response =>
          rw [hhandled, Operation.answer] at hname
          split at hname <;> cases hname
  · rw [perform_undeclared _ _ _ _ _ _ _ hd]
    exact ⟨fun _ => hd, fun _ => ⟨operation, rfl⟩⟩

end Service

/-! ## Receipts -/

/-- What the end of a call is told by. -/
structure Receipt where
  operation : String
  outcome : String
  last : Event

namespace Receipt

/-- One event, and one sample for each metric. -/
def trace (r : Receipt) (service : String) : Trace :=
  ⟨[r.last], [.counted service r.operation r.outcome, .timed service r.operation]⟩

/-- A receipt tells of a call that it has ended with a result. -/
structure Tells (c : Contract) (k : Entry ε) (result : Outcome CallError Bytes)
    (r : Receipt) : Prop where
  operation : r.operation = if k.operation ∈ c.operations then k.operation else "unknown"
  unknown : r.operation = "unknown" ↔ r.outcome = "unknown_operation"
  done : r.outcome = "ok" ↔ ∃ bytes, result = .done bytes
  failed : ∀ e, result = .failed e → r.outcome = e.kind
  warn : r.last.level = .warn ↔ ∃ e, result = .failed e ∧ 500 ≤ e.status ∧ e.status ≤ 599
  info : r.last.level = .info ↔ r.last.level ≠ .warn
  message : r.last.message = if r.last.level = .warn then "rpc call failed" else "rpc call complete"
  span : r.last.span = some { k.span c with outcome := some r.outcome }

/-- The receipt of a call that has ended under a label. -/
def ofEnding (c : Contract) (k : Entry ε) (outcome : String) (error : Option CallError) : Receipt :=
  ⟨Service.label c k.operation, outcome,
    Service.completion outcome error { k.span c with outcome := some outcome }⟩

end Receipt

namespace Service

/-- The event of the end of a call, with its level. -/
theorem completion_cases (outcome : String) (error : Option CallError) (span : Span) :
    let last := completion outcome error span
    last.span = some span ∧
      ((∃ e, error = some e ∧ e.isServerError = true ∧ last.level = .warn ∧
          last.message = "rpc call failed") ∨
        ((∀ e, error = some e → e.isServerError ≠ true) ∧ last.level = .info ∧
          last.message = "rpc call complete")) := by
  intro last
  cases error with
  | none => exact ⟨rfl, .inr ⟨nofun, rfl, rfl⟩⟩
  | some e =>
    by_cases he : e.isServerError = true
    · have hlast : last = ⟨.warn, "rpc call failed",
          [("error", .text e.message), ("outcome", .text outcome)], some span⟩ := by
        show completion outcome (some e) span = _
        rw [completion, Option.filter_some, if_pos he]
      rw [hlast]
      exact ⟨rfl, .inl ⟨e, rfl, he, rfl, rfl⟩⟩
    · have hlast : last =
          ⟨.info, "rpc call complete", [("outcome", .text outcome)], some span⟩ := by
        show completion outcome (some e) span = _
        rw [completion, Option.filter_some, if_neg he]
      rw [hlast]
      refine ⟨rfl, .inr ⟨?_, rfl, rfl⟩⟩
      rintro _ ⟨⟩
      exact he

/-- The label of the end of a call, and its error. -/
theorem ending?_eq_some {result : Outcome CallError Bytes} {outcome : String}
    {error : Option CallError} (h : ending? result = some (outcome, error)) :
    (outcome = "ok" ↔ ∃ bytes, result = .done bytes) ∧
      (∀ e, result = .failed e ↔ error = some e) ∧ (∀ e, error = some e → outcome = e.kind) ∧
      (outcome = "unknown_operation" ↔ ∃ name, result = .failed (.unknownOperation name)) := by
  cases result with
  | panicked panic => cases h
  | done bytes =>
    cases h
    refine ⟨⟨fun _ => ⟨bytes, rfl⟩, fun _ => rfl⟩, fun e => ⟨nofun, nofun⟩, nofun, ?_⟩
    constructor
    · intro h
      exact absurd h (by decide)
    · rintro ⟨name, ⟨⟩⟩
  | failed e =>
    cases h
    refine ⟨⟨fun h => absurd h e.kind_ne_ok, nofun⟩, ?_, ?_, ?_⟩
    · intro e'
      rw [Outcome.failed.injEq, Option.some.injEq]
    · rintro _ ⟨⟩
      rfl
    · simp only [CallError.kind_eq_unknown_iff, Outcome.failed.injEq]

/-- Measuring a call that does not panic adds one receipt. -/
theorem trace_measured_of_ended (k : Entry ε) (r : Ran σ (Outcome CallError Bytes))
    {outcome : String} {error : Option CallError} (h : ending? r.result = some (outcome, error)) :
    (measured c k.context k.operation r).trace =
      r.trace.within (k.span c) ++
        (Receipt.ofEnding c k outcome error).trace k.context.service := by
  simp only [measured, h]
  rfl

theorem trace_measured_of_panicked (k : Entry ε)
    (r : Ran σ (Outcome CallError Bytes)) {panic : Panic} (h : r.result = .panicked panic) :
    (measured c k.context k.operation r).trace = r.trace.within (k.span c) := by
  simp only [measured, h, ending?]
  rfl

/-- A call that has not panicked has ended under some label. -/
theorem exists_ending {result : Outcome CallError Bytes}
    (calm : ∀ panic, result ≠ .panicked panic) :
    ∃ outcome error, ending? result = some (outcome, error) := by
  cases result with
  | panicked panic => exact absurd rfl (calm panic)
  | done bytes => exact ⟨_, _, rfl⟩
  | failed e => exact ⟨_, _, rfl⟩

end Service

/-- The receipt tells the end of the call, when `unknownOperation` comes up exactly for what is not
    declared. -/
theorem Receipt.tells_ofEnding (reserved : Service.unknownLabel ∉ c.operations) (k : Entry ε)
    {result : Outcome CallError Bytes}
    (hunknown : (∃ name, result = .failed (.unknownOperation name)) ↔ k.operation ∉ c.operations)
    {outcome : String} {error : Option CallError}
    (h : Service.ending? result = some (outcome, error)) :
    (ofEnding c k outcome error).Tells c k result := by
  obtain ⟨hdone, hfailed, hkind, hname⟩ := Service.ending?_eq_some h
  obtain ⟨hspan, hlast⟩ :=
    Service.completion_cases outcome error { k.span c with outcome := some outcome }
  have hlevel : (ofEnding c k outcome error).last.level = .warn ↔
      ∃ e, result = .failed e ∧ 500 ≤ e.status ∧ e.status ≤ 599 := by
    simp only [hfailed, ← CallError.isServerError_iff]
    rcases hlast with ⟨e, he, hserver, hwarn, -⟩ | ⟨hclient, hinfo, -⟩
    · exact ⟨fun _ => ⟨e, he, hserver⟩, fun _ => hwarn⟩
    · constructor
      · intro hwarn
        exact absurd (hinfo.symm.trans hwarn) nofun
      · rintro ⟨e, he, hserver⟩
        exact absurd hserver (hclient e he)
  refine ⟨Service.label_eq c k.operation, ?_, hdone, ?_, hlevel, ?_, ?_, hspan⟩
  · exact (Service.label_eq_unknown_iff reserved k.operation).trans (hunknown.symm.trans hname.symm)
  · intro e he
    exact hkind e ((hfailed e).1 he)
  · rcases hlast with ⟨-, -, -, hwarn, -⟩ | ⟨-, hinfo, -⟩
    · exact ⟨fun hinfo => absurd (hwarn.symm.trans hinfo) nofun, fun hn => absurd hwarn hn⟩
    · exact ⟨fun _ hwarn => absurd (hinfo.symm.trans hwarn) nofun, fun _ => hinfo⟩
  · rcases hlast with ⟨-, -, -, hwarn, hmessage⟩ | ⟨-, hinfo, hmessage⟩
    · exact hmessage.trans (if_pos hwarn).symm
    · have hcalm : (ofEnding c k outcome error).last.level ≠ .warn := by
        intro hwarn
        exact absurd (hinfo.symm.trans hwarn) nofun
      exact hmessage.trans (if_neg hcalm).symm

/-- A call that panics adds nothing but what its handler has left, and any other call adds one
    receipt, which tells how it has ended. -/
theorem Entry.trace_dispatched (reserved : Service.unknownLabel ∉ c.operations) (k : Entry ε)
    (w : Wiring c ε σ) (config : DispatchConfig) (lastCallId : Nat) (world : σ) :
    let performed := k.performed (w.service config lastCallId) world
    let trace := (k.dispatched (w.service config lastCallId) world).trace
    (∀ panic, performed.result = .panicked panic → trace = performed.trace.within (k.span c)) ∧
    ((∀ panic, performed.result ≠ .panicked panic) → ∃ r : Receipt, r.Tells c k performed.result ∧
      trace = performed.trace.within (k.span c) ++ r.trace k.context.service) := by
  intro performed trace
  constructor
  · intro panic hpanic
    exact Service.trace_measured_of_panicked k performed hpanic
  · intro calm
    obtain ⟨outcome, error, hending⟩ := Service.exists_ending calm
    have hunknown :=
      Service.perform_unknown_iff w config lastCallId k.surroundings k.context k.operation
      k.payload world
    exact ⟨_, Receipt.tells_ofEnding reserved k hunknown hending,
      Service.trace_measured_of_ended k performed hending⟩

/-! ## Counting -/

/-- The event of a request that does not become a call; it belongs to no span. -/
def Event.isRejection (e : Event) : Bool :=
  e.span.isNone && e.message == "call rejected before dispatch"

/-- The sample counts a call. -/
def Sample.isCount : Sample → Bool
  | .counted .. => true
  | .timed .. => false

namespace Trace

/-- The number of requests that have not become calls. -/
def rejections (t : Trace) : Nat := t.events.countP Event.isRejection

/-- The number of calls that have been counted. -/
def counts (t : Trace) : Nat := t.samples.countP Sample.isCount

@[simp] theorem rejections_append (t u : Trace) :
    (t ++ u).rejections = t.rejections + u.rejections :=
  List.countP_append

@[simp] theorem counts_append (t u : Trace) : (t ++ u).counts = t.counts + u.counts :=
  List.countP_append

/-- Nothing that happens in a span is a rejection. -/
@[simp] theorem rejections_within (span : Span) (t : Trace) : (t.within span).rejections = 0 := by
  rw [rejections, within, List.countP_eq_zero]
  intro e he
  obtain ⟨e', -, rfl⟩ := List.mem_map.1 he
  simp [Event.isRejection]

@[simp] theorem counts_within (span : Span) (t : Trace) : (t.within span).counts = t.counts := rfl

end Trace

/-- The run has ended with a panic. -/
def Outcome.isPanic {α β : Type} : Outcome α β → Bool
  | .panicked _ => true
  | _ => false

namespace Occurrence

variable (o : Occurrence c ε σ)

/-- The use is a request that is answered or that panics: its body is not waited for. -/
def endsRequest : Bool :=
  match o.used.seen with
  | .served .unfinished => false
  | .served _ => true
  | _ => false

/-- The use makes a call from inside the process. -/
def callsDirectly : Bool :=
  match o.use with
  | .serve .. => false
  | _ => o.incoming?.isSome

/-- The use makes a call that panics. -/
def panics : Bool := (o.performed?.map (·.result.isPanic)).getD false

/-- How many calls the handler counts by itself. -/
def ownCounts : Nat := (o.performed?.map (·.trace.counts)).getD 0

/-- A use that makes a call either ends a request or calls directly. -/
theorem ends_of_entry {k : Entry ε} (h : o.incoming? = some k) :
    o.endsRequest.toNat + o.callsDirectly.toNat = 1 := by
  obtain ⟨hseen, -, -⟩ := o.used_of_entry h
  rw [endsRequest, callsDirectly, hseen, h]
  cases hu : o.use with
  | serve surroundings r => cases (k.dispatched o.service o.world).result <;> rfl
  | register g => rfl
  | localContext => rfl
  | dispatch surroundings context operation payload => rfl
  | call surroundings context op request => rfl
  | registered => rfl
  | isRegistered name => rfl

/-- The count of a call goes up by one when it ends without a panic. -/
theorem counts_of_entry {k : Entry ε} (h : o.incoming? = some k) :
    o.used.trace.rejections = 0 ∧ o.used.trace.counts + o.panics.toNat = o.ownCounts + 1 := by
  obtain ⟨-, -, htrace⟩ := o.used_of_entry h
  rw [htrace, Entry.dispatched_eq, panics, ownCounts, performed?, h]
  simp only [Option.map_some, Option.getD_some]
  generalize k.performed o.service o.world = performed
  by_cases hpanic : ∃ panic, performed.result = .panicked panic
  · obtain ⟨panic, hpanic⟩ := hpanic
    rw [Service.trace_measured_of_panicked k performed hpanic, hpanic]
    exact ⟨Trace.rejections_within _ _, rfl⟩
  · have calm : ∀ panic, performed.result ≠ .panicked panic := fun panic h => hpanic ⟨panic, h⟩
    obtain ⟨outcome, error, hending⟩ := Service.exists_ending calm
    obtain ⟨hspan, -⟩ :=
      Service.completion_cases outcome error { k.span c with outcome := some outcome }
    have hcalm : performed.result.isPanic = false := by
      cases hresult : performed.result with
      | panicked panic => exact absurd hresult (calm panic)
      | done bytes => rfl
      | failed e => rfl
    rw [Service.trace_measured_of_ended k performed hending, hcalm]
    refine ⟨?_, ?_⟩
    · rw [Trace.rejections_append, Trace.rejections_within, Nat.zero_add, Trace.rejections]
      simp [Receipt.trace, Receipt.ofEnding, Event.isRejection, hspan]
    · rw [Trace.counts_append, Trace.counts_within]
      rfl

/-- What ends in a use is rejected, counted or panics. -/
theorem balance :
    o.endsRequest.toNat + o.callsDirectly.toNat + o.ownCounts =
      o.used.trace.rejections + o.used.trace.counts + o.panics.toNat := by
  cases h : o.incoming? with
  | some k =>
    have hends := o.ends_of_entry h
    obtain ⟨hrejections, hcounts⟩ := o.counts_of_entry h
    omega
  | none =>
    have hown : o.ownCounts = 0 := by rw [ownCounts, performed?, h]; rfl
    have hpanics : o.panics = false := by rw [panics, performed?, h]; rfl
    rw [hown, hpanics, callsDirectly, h]
    obtain ⟨number, s, u, world⟩ := o
    cases u with
    | register g => rfl
    | localContext => rfl
    | registered => rfl
    | isRegistered name => rfl
    | dispatch surroundings context operation payload => cases h
    | call surroundings context op request =>
      simp only [incoming?] at h
      simp only [endsRequest, used, Service.use, Service.call]
      cases hp : op.request.encode request with
      | error reason => rfl
      | ok payload => rw [hp] at h; cases h
    | serve surroundings r =>
      -- The request is rejected, or its body is still waited for.
      simp only [incoming?] at h
      simp only [endsRequest, used, Service.use, Service.serve, Service.serveAs, Service.nextCallId]
      rcases hp : s.prepare (s.lastCallId + 1) r with e | _ | ⟨context, operation, payload⟩
      · rfl
      · rfl
      · rw [hp] at h
        cases h

end Occurrence

/-- What a run adds to the rejections and the counts is what ends in it, less what panics. -/
theorem Process.balance_run (p : Process c ε σ) (acts : List (Act c ε σ)) :
    let history := p.history acts
    p.trace.rejections + p.trace.counts + history.countP (·.endsRequest) +
        history.countP (·.callsDirectly) + (history.map (·.ownCounts)).sum =
      (p.run acts).trace.rejections + (p.run acts).trace.counts + history.countP (·.panics) := by
  induction acts generalizing p with
  | nil => simp [history]
  | cons act acts ih =>
    have hrest := ih (p.step act)
    have htrace := p.trace_step act
    simp only [history, run_cons]
    cases hbegun : p.begun? act with
    | none =>
      rw [hbegun] at htrace
      simp only [htrace, Option.map_none, Option.getD_none] at hrest
      simpa using hrest
    | some o =>
      have hone := o.balance
      rw [hbegun] at htrace
      simp only [htrace, Option.map_some, Option.getD_some, Trace.rejections_append,
        Trace.counts_append] at hrest
      simp only [Option.toList_some, List.singleton_append, List.countP_cons,
        List.map_cons, List.sum_cons]
      have hbool : ∀ b : Bool, (if b = true then 1 else 0) = b.toNat := by decide
      simp only [hbool]
      omega

/-! ## Runs -/

/-- **Every call is accounted for once.**  Take any run of a process whose contract keeps the label
    of the undeclared operations free.  A call gives what its handler gives; it leaves one receipt,
    and none after a panic.  A request that is rejected leaves one event and no sample.  In the end,
    the requests that were answered or panicked, with the calls from inside the process and what
    handlers count by themselves, are the rejections, the counts and the panics. -/
theorem calls_accounted_once (reserved : "unknown" ∉ c.operations) (world : σ)
    (acts : List (Act c ε σ)) :
    let history := (Process.start world).history acts
    let trace := ((Process.start world).run acts).trace
    (∀ o ∈ history, ∀ k, o.incoming? = some k →
      let performed := k.performed o.service o.world
      let dispatched := k.dispatched o.service o.world
      dispatched.result = performed.result ∧ dispatched.state = performed.state ∧
      o.used.seen = o.use.shows performed.result ∧ o.used.world = performed.state ∧
      (∀ panic, performed.result = .panicked panic →
        o.used.trace = performed.trace.within (k.span c)) ∧
      ((∀ panic, performed.result ≠ .panicked panic) → ∃ r : Receipt, r.Tells c k performed.result ∧
        o.used.trace = performed.trace.within (k.span c) ++ r.trace k.context.service)) ∧
    (∀ o ∈ history, ∀ surroundings request e, o.use = .serve surroundings request →
      o.service.prepare (o.service.lastCallId + 1) request = .error e →
      o.used.seen = .served (.answered (Service.errorResponse e)) ∧ o.used.world = o.world ∧
      o.used.trace = ⟨[Service.rejectedEvent c (o.service.lastCallId + 1) e], []⟩) ∧
    history.countP (·.endsRequest) + history.countP (·.callsDirectly) +
      (history.map (·.ownCounts)).sum =
      trace.rejections + trace.counts + history.countP (·.panics) := by
  intro history trace
  refine ⟨?_, ?_, ?_⟩
  · intro o ho k hk performed dispatched
    have hresult : dispatched.result = performed.result := Service.result_dispatch _ _ _ _ _ _
    have hstate : dispatched.state = performed.state := Service.state_dispatch _ _ _ _ _ _
    obtain ⟨w, config, lastCallId, hs⟩ :=
      Process.service_of_mem_history (Process.Built.start world) ho
    obtain ⟨hseen, hworld, htrace⟩ := o.used_of_entry hk
    obtain ⟨hpanicked, hended⟩ := k.trace_dispatched reserved w config lastCallId o.world
    rw [← hs, ← htrace] at hpanicked hended
    refine ⟨hresult, hstate, ?_, ?_, hpanicked, hended⟩
    · rw [← hresult]
      exact hseen
    · rw [← hstate]
      exact hworld
  · intro o ho surroundings request e hu hp
    have hserve : (o.service.serve surroundings request o.world).1 = _ :=
      Service.serve_of_refused hp
    refine ⟨?_, ?_, o.trace_of_rejected hu hp⟩
    · rw [Occurrence.used, hu]
      exact congrArg (fun ran => Seen.served ran.result) hserve
    · rw [Occurrence.used, hu]
      exact congrArg Ran.state hserve
  · have hrun := (Process.start world).balance_run acts
    have hrejections : (Process.start (c := c) (ε := ε) world).trace.rejections = 0 := rfl
    have hcounts : (Process.start (c := c) (ε := ε) world).trace.counts = 0 := rfl
    dsimp only at hrun
    rw [hrejections, hcounts, Nat.zero_add] at hrun
    exact hrun

/-- A call under the very label of the undeclared operations is counted under it, and a request with
    the wrong method is rejected: two ends, one count and one rejection. -/
theorem echo_accounts_for_unknown :
    let call : Entry Unit := ⟨(), .inProcess "Echo", "unknown", []⟩
    let acts : List (Act Echo.contract Unit Unit) := [.create {}, .clone 0,
      .use 1 (.register ⟨Echo.echo, Echo.handleEcho⟩),
      .use 0 (.dispatch () call.context call.operation call.payload),
      .use 1 (.serve () ⟨.get, .root, .http11, [], [], false⟩)]
    let trace := ((Process.start ()).run acts).trace
    "unknown" ∉ Echo.contract.operations ∧
      (∃ o ∈ (Process.start ()).history acts, o.incoming? = some call ∧ ∃ r : Receipt,
        r.operation = "unknown" ∧ r.outcome = "unknown_operation" ∧ r.last.level = .info ∧
        o.used.trace = r.trace "Echo") ∧
      trace.rejections + trace.counts = 2 := by
  intro call acts trace
  have reserved : "unknown" ∉ Echo.contract.operations := by decide
  obtain ⟨hcalls, -, hbalance⟩ := calls_accounted_once reserved () acts
  refine ⟨reserved, ?_, ?_⟩
  · let w : Wiring Echo.contract Unit Unit := [⟨Echo.echo, Echo.handleEcho⟩]
    have ho : ⟨0, w.service {} 0, .dispatch () call.context call.operation call.payload, ()⟩ ∈
        (Process.start ()).history acts := .tail _ (.head _)
    obtain ⟨-, -, -, -, -, hreceipt⟩ := hcalls _ ho call rfl
    obtain ⟨r, htells, htrace⟩ := hreceipt nofun
    have hoperation : r.operation = "unknown" := htells.operation
    refine ⟨_, ho, rfl, r, hoperation, htells.unknown.1 hoperation, ?_, htrace⟩
    rw [htells.info]
    intro hwarn
    obtain ⟨_, ⟨⟩, hstatus, -⟩ := htells.warn.1 hwarn
    exact absurd hstatus (by decide)
  · exact hbalance.symm

end Switchboard
