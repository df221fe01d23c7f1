/-
  The headers of responses.

  1. **Targets** — no target puts a header on its response but those that say how to read it
     (`Owned`): one lemma for each way a response is made, up to `owned_atTarget`.  So a header of
     any other name is left to the layers.

  2. **Layers** — what a layer does to the values under a name it does not set
     (`under_withRequestId`, `under_completeProbe`, `under_identified`).
-/
import Switchboard.Proofs.Host.Answer
import Switchboard.Proofs.Named

namespace Switchboard

open Http

namespace Host

variable {σ : Type} {c : Contract}

/-! ## Targets -/

/-- The names of the headers that targets put on their responses. -/
def ownHeaders : List String := ["content-type", "content-length", "accept-ranges", "allow"]

/-- A response without headers other than those of targets. -/
def Owned (r : Response) : Prop := ∀ x ∈ r.headers, x.1 ∈ ownHeaders

/-- There is nothing under any other name. -/
theorem under_eq_nil_of_own {headers : Headers}
    (h : ∀ x ∈ headers, x.1 ∈ ownHeaders) {name : String}
    (hname : name ∉ ownHeaders) : headers.under name = [] :=
  Named.under_eq_nil fun x hx he => hname (he ▸ h x hx)

theorem owned_ofStatus (status : Nat) : Owned (.ofStatus status) := by
  intro x hx
  cases hx

theorem owned_documentResponse (status : Nat) (body : Bytes) :
    Owned (Service.documentResponse status body) := by
  intro x hx
  obtain rfl := List.mem_singleton.1 hx
  decide

theorem Owned.setHeader {r : Response} (h : Owned r) {name : String}
    (hname : name ∈ ownHeaders) (value : String) :
    Owned (r.setHeader name value) := by
  intro x hx
  rcases List.mem_append.1 hx with hx | hx
  · exact h x (List.mem_filter.1 hx).1
  · obtain rfl := List.mem_singleton.1 hx
    exact hname

theorem owned_errorResponse (e : CallError) : Owned (Service.errorResponse e) := by
  have hdocument := owned_documentResponse e.status (Utf8.encode e.body.render)
  unfold Service.errorResponse
  split
  · exact hdocument.setHeader (by decide) "POST"
  · exact hdocument

theorem owned_probe (h : Host σ) (probed : Target) : Owned (h.probe probed) := by
  cases probed with
  | health => exact owned_documentResponse 200 _
  | _ => exact owned_ofStatus _

theorem owned_serveFile (f : StaticFile) (m : Method) : Owned (serveFile f m) := by
  unfold serveFile
  split
  · exact (owned_ofStatus 405).setHeader (by decide) "GET,HEAD"
  · split
    · exact owned_ofStatus 404
    · intro x hx
      simp only [List.mem_cons, List.not_mem_nil, or_false] at hx
      rcases hx with rfl | rfl | rfl <;> simp [ownHeaders, header, contentLength]

theorem Owned.withoutTunnelBody {r : Response} (h : Owned r) (m : Method) :
    Owned (withoutTunnelBody m r) := by
  unfold Host.withoutTunnelBody
  split
  · exact h
  · exact h

theorem owned_serve {ε : Type} (s : Service c ε σ) (surroundings : ε) (r : Request)
    (world : σ) {response : Response}
    (h : (s.serve surroundings r world).1.result = .answered response) : Owned response := by
  rcases hp : s.prepare s.nextCallId.1 r with e | _ | ⟨context, operation, payload⟩
  · rw [Service.serve_of_refused hp] at h
    cases h
    exact owned_errorResponse e
  · rw [Service.serve_of_unfinished hp] at h
    cases h
  · rw [Service.serve_of_call hp, Ran.result_map] at h
    cases hresult : (s.dispatch surroundings context operation payload world).result with
    | done bytes =>
      rw [hresult] at h
      cases h
      exact owned_documentResponse 200 bytes
    | failed e =>
      rw [hresult] at h
      cases h
      exact owned_errorResponse e
    | panicked panic =>
      rw [hresult] at h
      cases h

theorem owned_fromService (m : Method) {r : Ran σ Service.Served}
    (hr : ∀ response, r.result = .answered response → Owned response) {response : Response}
    (h : (fromService m r).result = some response) : Owned response := by
  unfold fromService at h
  split at h
  next answered hanswered =>
    cases h
    exact (hr answered hanswered).withoutTunnelBody m
  next =>
    cases h
    exact owned_documentResponse 500 _
  next => cases h

theorem owned_tracked {h : Host σ} {m : Method}
    {serve : Host σ → Ran σ Service.Served × Host σ} {world : σ}
    (hserve : ∀ h response, (serve h).1.result = .answered response → Owned response)
    {response : Response}
    (hresponse : (h.tracked m serve world).1.result = some response) : Owned response := by
  cases haccepts : h.controller.state.acceptsCalls with
  | false =>
    rw [tracked_of_refuses haccepts] at hresponse
    cases hresponse
    exact owned_documentResponse 503 _
  | true =>
    rw [tracked_of_accepts haccepts] at hresponse
    exact owned_fromService m (hserve _) hresponse

theorem owned_atTarget (h : Host σ) (target : Option Target) (r : Request)
    (world : σ) {response : Response}
    (hresponse : (h.atTarget target r world).1.result = some response) : Owned response := by
  cases target with
  | none =>
    refine owned_tracked (fun h response hanswered => ?_) hresponse
    cases hanswered
    exact owned_ofStatus 404
  | some target =>
    cases target with
    | index =>
      obtain ⟨f, -, rfl⟩ := Option.map_eq_some_iff.1 hresponse
      exact owned_serveFile f r.method
    | health | live | ready =>
      cases hresponse
      split
      · exact owned_probe h _
      · exact owned_ofStatus 405
    | mount i =>
      refine owned_tracked (fun h response hanswered => ?_) hresponse
      unfold atMount at hanswered
      split at hanswered
      · cases hanswered
        exact owned_ofStatus 404
      · exact owned_serve _ _ _ _ hanswered

/-! ## Layers -/

variable {name : String}

/-- Of the headers of a request, only its id can be new. -/
theorem under_identified (hname : name ≠ requestIdHeader) (generatedId : Bytes) (r : Request) :
    (identified generatedId r).headers.under name = r.headers.under name := by
  unfold identified
  split
  · rfl
  · rw [Named.under_append, Named.under_cons_of_ne (Ne.symm hname),
      Named.under_nil, List.append_nil]

theorem under_withRequestId (hname : name ≠ requestIdHeader) (request : Headers) (r : Response) :
    (withRequestId request r).headers.under name = r.headers.under name := by
  unfold withRequestId
  split
  · split
    · rfl
    · rw [Named.under_append, Named.under_cons_of_ne (Ne.symm hname),
        Named.under_nil, List.append_nil]
  · rfl

/-- Completing the response of a probe adds headers such as targets put on their responses
    themselves. -/
theorem under_completeProbe (hname : name ∉ ownHeaders) (m : Method) (r : Response) :
    (completeProbe m r).headers.under name = r.headers.under name := by
  have hadded : ∀ x ∈ (if m = .get ∨ m = .head then [] else [header "allow" "GET,HEAD"]) ++
      (if r.headers.has "content-length" then [] else [contentLength r.body.length]),
        x.1 ∈ ownHeaders := by
    intro x hx
    rcases List.mem_append.1 hx with hx | hx
    · split at hx
      · cases hx
      · obtain rfl := List.mem_singleton.1 hx
        simp [ownHeaders, header]
    · split at hx
      · cases hx
      · obtain rfl := List.mem_singleton.1 hx
        simp [ownHeaders, contentLength, header]
  show Named.under name (r.headers ++ _ ++ _) = _
  rw [List.append_assoc, Named.under_append, under_eq_nil_of_own hadded hname, List.append_nil]

end Host

end Switchboard
