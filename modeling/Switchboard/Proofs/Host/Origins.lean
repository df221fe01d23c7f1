/-
  Which origins may read answers.

  1. **Configurations** — every list of origins says which ones are admitted: all of them when `*`
     is among them (`admission?_of_wildcard`), and otherwise those that can be the value of a header
     (`admission?_of_listed`).

  2. **Answers** — no target and no layer but one names an origin, and that layer stands around all
     targets and around the time limit.  So every answer names the origin of its request just when
     that is admitted (`answer_names_origin`).
-/
import Switchboard.Proofs.Host.Headers
import Switchboard.Proofs.Text.Utf8

namespace Switchboard

open Http

namespace Host

variable {σ : Type}

/-! ## Configurations -/

/-- A value is one of the origins, byte for byte, and can be the value of a header. -/
def Lists (origins : List String) (value : Bytes) : Prop :=
  ∃ origin ∈ origins, Utf8.encode origin = value ∧ value.all isHeaderByte = true

theorem mem_listedOrigins {origins : List String} {value : Bytes} :
    value ∈ listedOrigins origins ↔ Lists origins value := by
  rw [listedOrigins, List.mem_filter, List.mem_map]
  constructor
  · rintro ⟨⟨origin, hmem, hvalue⟩, hbytes⟩
    exact ⟨origin, hmem, hvalue, hbytes⟩
  · rintro ⟨origin, hmem, hvalue, hbytes⟩
    exact ⟨⟨origin, hmem, hvalue⟩, hbytes⟩

theorem admission?_of_wildcard {origins : List String} (h : "*" ∈ origins) :
    admission? origins = some .all := by
  rw [admission?, if_pos (List.contains_iff_mem.2 h)]

/-- Without `*` among the origins none of them has its bytes, so they can be listed. -/
theorem admission?_of_listed {origins : List String} (h : "*" ∉ origins) :
    admission? origins = some (.listed (listedOrigins origins)) := by
  have hlisted : Utf8.encode "*" ∉ listedOrigins origins := by
    intro hmem
    obtain ⟨origin, horigin, hvalue, -⟩ := mem_listedOrigins.1 hmem
    obtain rfl := Utf8.encode_injective hvalue
    exact h horigin
  rw [admission?, if_neg fun hc => h (List.contains_iff_mem.1 hc), Admission.ofList?,
    if_neg fun hc => hlisted (List.contains_iff_mem.1 hc)]

theorem isSome_admission? (origins : List String) : (admission? origins).isSome = true := by
  by_cases h : "*" ∈ origins
  · rw [admission?_of_wildcard h]
    rfl
  · rw [admission?_of_listed h]
    rfl

theorem allowedOrigin_of_wildcard {origins : List String} (h : "*" ∈ origins) (request : Headers) :
    allowedOrigin origins request = some (Utf8.encode "*") := by
  rw [allowedOrigin, admission?_of_wildcard h]
  rfl

theorem value?_origin (request : Headers) :
    request.value? "origin" = (request.under "origin").head? := by
  have hlower : lowerCase "origin" = "origin" := by decide
  rw [Headers.value?, hlower, Named.first?_eq_head?]

/-- Of the listed origins only that of the request can be named. -/
theorem allowedOrigin_eq_some {origins : List String} (h : "*" ∉ origins)
    {request : Headers} {value : Bytes} :
    allowedOrigin origins request = some value ↔ (request.under "origin").head? = some value ∧
      Lists origins value := by
  rw [allowedOrigin, admission?_of_listed h, Option.bind_some, Admission.named, value?_origin,
    Option.filter_eq_some_iff, List.contains_iff_mem, mem_listedOrigins]

/-! ## Answers -/

/-- The origins that a response names. -/
def originsNamed (r : Response) : List Bytes := r.headers.under "access-control-allow-origin"

theorem originsNamed_withCors (origins : List String) (request : Headers) {r : Response}
    (h : originsNamed r = []) :
    originsNamed (withCors origins request r) = (allowedOrigin origins request).toList := by
  have hvary : Named.under "access-control-allow-origin" [varyHeader] = [] := rfl
  rw [originsNamed, withCors, Named.under_append, ← originsNamed, h, List.nil_append,
    corsHeaders, Named.under_append, hvary, List.append_nil]
  cases allowedOrigin origins request <;> rfl

theorem originsNamed_withRequestId (request : Headers) (r : Response) :
    originsNamed (withRequestId request r) = originsNamed r :=
  under_withRequestId (by decide) request r

theorem originsNamed_completeProbe (m : Method) (r : Response) :
    originsNamed (completeProbe m r) = originsNamed r :=
  under_completeProbe (by decide) m r

/-- The id that a request gets is not its origin. -/
theorem allowedOrigin_identified (origins : List String) (generatedId : Bytes) (r : Request) :
    allowedOrigin origins (identified generatedId r).headers = allowedOrigin origins r.headers := by
  have hsame : (identified generatedId r).headers.value? "origin" = r.headers.value? "origin" := by
    rw [value?_origin, value?_origin, under_identified (by decide)]
  by_cases h : "*" ∈ origins
  · rw [allowedOrigin_of_wildcard h, allowedOrigin_of_wildcard h]
  · rw [allowedOrigin, allowedOrigin, admission?_of_listed h, Option.bind_some,
      Option.bind_some, Admission.named, Admission.named, hsame]

variable (h : Host σ) (generatedId : Bytes) (r : Request) (world : σ)

/-- What the outer layers make of a response that names no origin. -/
theorem originsNamed_outer {response : Response} (hresponse : originsNamed response = [])
    (isProbe : Bool) :
    let outer := withCors h.config.corsOrigins (identified generatedId r).headers response
    originsNamed (if isProbe then completeProbe r.method outer else outer) =
      (allowedOrigin h.config.corsOrigins r.headers).toList := by
  intro outer
  have houter : originsNamed outer = (allowedOrigin h.config.corsOrigins r.headers).toList := by
    rw [originsNamed_withCors _ _ hresponse, allowedOrigin_identified]
  split
  · rw [originsNamed_completeProbe, houter]
  · exact houter

theorem originsNamed_layered {answer? : Option Response}
    (hanswer : ∀ response ∈ answer?, originsNamed response = []) :
    originsNamed (h.layered generatedId r answer?) =
      (allowedOrigin h.config.corsOrigins r.headers).toList := by
  refine h.originsNamed_outer generatedId r ?_ _
  cases answer? with
  | none => rfl
  | some response => rw [originsNamed_withRequestId, hanswer response rfl]

/-- However a request is answered, the answer names the origin that the configuration allows for
    it. -/
theorem originsNamed_answer :
    originsNamed (h.answer generatedId r world).1.result =
      (allowedOrigin h.config.corsOrigins r.headers).toList := by
  by_cases hoptions : r.method = .options
  · simp only [answer, identified_method, if_pos hoptions]
    exact h.originsNamed_outer generatedId r rfl _
  by_cases htime : h.config.requestTimeout = 0
  · rw [h.answer_of_no_time generatedId world hoptions htime]
    exact h.originsNamed_layered generatedId r fun _ hnone => absurd hnone (Option.not_mem_none _)
  · rw [h.answer_eq_layered generatedId r world hoptions htime]
    refine h.originsNamed_layered generatedId r fun response hresponse => ?_
    exact under_eq_nil_of_own (h.owned_atTarget _ _ world hresponse) (by decide)

/-- **Admitted origins.**  Every list of origins can be configured, whatever its entries are.  With
    `*` among them every answer names `*`.  Without it an answer names the first origin of its
    request if that is one of the entries, byte for byte, and this entry can be the value of a
    header; otherwise it names none.  This is so for every request, whatever its method and path
    are, in every state of the host, and however it is answered. -/
theorem answer_names_origin (h : Host σ) (generatedId : Bytes) (r : Request) (world : σ) :
    let origins := h.config.corsOrigins
    let named := (h.answer generatedId r world).1.result.headers.under "access-control-allow-origin"
    (admission? origins).isSome = true ∧
      ("*" ∈ origins ∧ named = [Utf8.encode "*"] ∨
        "*" ∉ origins ∧
          ((∃ origin, (r.headers.under "origin").head? = some origin ∧
            Lists origins origin ∧ named = [origin]) ∨
            (¬∃ origin, (r.headers.under "origin").head? = some origin ∧ Lists origins origin) ∧
              named = [])) := by
  intro origins named
  have hnamed : named = (allowedOrigin origins r.headers).toList :=
    h.originsNamed_answer generatedId r world
  refine ⟨isSome_admission? origins, ?_⟩
  by_cases hall : "*" ∈ origins
  · refine .inl ⟨hall, ?_⟩
    rw [hnamed, allowedOrigin_of_wildcard hall]
    rfl
  refine .inr ⟨hall, ?_⟩
  cases hallowed : allowedOrigin origins r.headers with
  | some origin =>
    obtain ⟨hfirst, hlisted⟩ := (allowedOrigin_eq_some hall).1 hallowed
    refine .inl ⟨origin, hfirst, hlisted, ?_⟩
    rw [hnamed, hallowed]
    rfl
  | none =>
    refine .inr ⟨?_, ?_⟩
    · rintro ⟨origin, hfirst, hlisted⟩
      rw [(allowedOrigin_eq_some hall).2 ⟨hfirst, hlisted⟩] at hallowed
      cases hallowed
    · rw [hnamed, hallowed]
      rfl

end Host

end Switchboard
