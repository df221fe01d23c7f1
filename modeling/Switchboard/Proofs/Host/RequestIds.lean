/-
  The id of a request.

  1. **Random ids** — `IsRandomUuid`: what a generated id looks like, whatever the random bytes are.

  2. **Requests** — every request that is let in has an id: its own first one, or the generated one
     (`idOf`).

  3. **Responses** — no target puts an id on its response (`plain_atTarget`), so the one that the
     layers put on it is the only one (`ids_layered`).

  4. **Handlers** — `Hearing`: a service whose handlers note the request id they are told each time
     they run.

  5. **Answers** — so every answer, but those to `OPTIONS` and those of the time limit, carries the
     id that the handler was told, if one has run (`answer_carries_id`).
-/
import Switchboard.Echo.Service
import Switchboard.Host.RequestId
import Switchboard.Proofs.Host.Headers
import Switchboard.Proofs.Text.Utf8

namespace Switchboard

open Http Host

variable {σ : Type} {c : Contract}

/-! ## Random ids -/

namespace Host

/-- The digits of a UUID. -/
def uuidDigits : List Char := "0123456789abcdef".toList

/-- A random UUID: `x` stands for any digit, `y` for one that names the variant, and the others for
    themselves. -/
def uuidTemplate : List Char := "xxxxxxxx-xxxx-4xxx-yxxx-xxxxxxxxxxxx".toList

/-- Whether a character can stand where the template has a mark. -/
def fitsMark (mark c : Char) : Bool :=
  if mark = 'x' then uuidDigits.contains c
  else if mark = 'y' then "89ab".toList.contains c
  else c == mark

/-- The bytes of a random UUID. -/
def IsRandomUuid (id : Bytes) : Prop :=
  ∃ cs : List Char, id = Utf8.encode (String.ofList cs) ∧
    List.Forall₂ (fun mark c => fitsMark mark c = true) uuidTemplate cs

/-- Both digits of a byte are digits. -/
theorem fitsMark_hexPair (b : UInt8) :
    fitsMark 'x' (Nat.digitChar (b.toNat / 16)) = true ∧
      fitsMark 'x' (Nat.digitChar (b.toNat % 16)) = true := by
  have hall : ∀ n < 16, fitsMark 'x' (Nat.digitChar n) = true := by decide
  have hb : b.toNat < 256 := b.toNat_lt
  exact ⟨hall _ (by omega), hall _ (by omega)⟩

/-- The marked bytes name the version and the variant. -/
theorem fitsMark_marked (b : UInt8) :
    fitsMark '4' (Nat.digitChar (((b &&& 0x0F) ||| 0x40).toNat / 16)) = true ∧
      fitsMark 'y' (Nat.digitChar (((b &&& 0x3F) ||| 0x80).toNat / 16)) = true := by
  have hall : ∀ n : Fin 256,
      fitsMark '4' (Nat.digitChar (((UInt8.ofNat n &&& 0x0F) ||| 0x40).toNat / 16)) = true ∧
        fitsMark 'y' (Nat.digitChar (((UInt8.ofNat n &&& 0x3F) ||| 0x80).toNat / 16)) = true := by
    decide +kernel
  have hb := hall ⟨b.toNat, b.toNat_lt⟩
  rwa [UInt8.ofNat_toNat] at hb

/-- The part of the template that a byte is written in. -/
def uuidPiece (i : Nat) : List Char :=
  (if i = 4 ∨ i = 6 ∨ i = 8 ∨ i = 10 then ['-'] else []) ++
    [if i = 6 then '4' else if i = 8 then 'y' else 'x', 'x']

theorem fits_uuidPiece (i : Nat) (b : UInt8) :
    List.Forall₂ (fun mark c => fitsMark mark c = true) (uuidPiece i)
      ((if i = 4 ∨ i = 6 ∨ i = 8 ∨ i = 10 then ['-'] else []) ++ hexPair (markRandom i b)) := by
  have hpair (b : UInt8) (mark : Char) (h : fitsMark mark (Nat.digitChar (b.toNat / 16)) = true) :
      List.Forall₂ (fun mark c => fitsMark mark c = true) [mark, 'x'] (hexPair b) :=
    .cons h (.cons (fitsMark_hexPair b).2 .nil)
  refine List.rel_append ?_ ?_
  · split
    · exact .cons (by decide) .nil
    · exact .nil
  · unfold markRandom
    split
    · exact hpair _ _ (fitsMark_marked b).1
    · split
      · exact hpair _ _ (fitsMark_marked b).2
      · exact hpair _ _ (fitsMark_hexPair b).1

theorem fits_uuidPieces (random : Bytes) (k : Nat) :
    List.Forall₂ (fun mark c => fitsMark mark c = true)
      ((List.range' k random.length).map uuidPiece).flatten
      (random.mapIdx fun i b =>
        (if i + k = 4 ∨ i + k = 6 ∨ i + k = 8 ∨ i + k = 10 then ['-'] else []) ++
        hexPair (markRandom (i + k) b)).flatten := by
  induction random generalizing k with
  | nil => exact .nil
  | cons b random ih =>
    have hrest := ih (k + 1)
    simp only [← Nat.add_assoc, Nat.add_right_comm _ k 1] at hrest
    rw [List.length_cons, List.range'_succ, List.map_cons, List.flatten_cons,
      List.mapIdx_cons, List.flatten_cons]
    refine List.rel_append ?_ hrest
    rw [Nat.zero_add]
    exact fits_uuidPiece k b

theorem isRandomUuid_randomUuid {random : Bytes} (h : random.length = 16) :
    IsRandomUuid (randomUuid random) := by
  have hpieces : uuidTemplate = ((List.range' 0 16).map uuidPiece).flatten := by decide
  refine ⟨_, rfl, ?_⟩
  rw [hpieces, ← h]
  exact fits_uuidPieces random 0

/-! ## Requests -/

/-- The request ids among headers, in order. -/
def requestIds (headers : Headers) : List Bytes :=
  (headers.filter (·.1 == requestIdHeader)).map (·.2)

theorem requestIds_eq_under (headers : Headers) :
    requestIds headers = headers.under requestIdHeader := rfl

@[simp] theorem requestIds_append (headers more : Headers) :
    requestIds (headers ++ more) = requestIds headers ++ requestIds more :=
  Named.under_append headers more

/-- The id that is found is the first one. -/
theorem value?_requestIdHeader (headers : Headers) :
    headers.value? requestIdHeader = (requestIds headers).head? := by
  have hlower : lowerCase requestIdHeader = requestIdHeader := by decide
  rw [Headers.value?, hlower, Named.first?_eq_head?, requestIds_eq_under]

/-- The id of a request: its own first one, or the generated one. -/
def idOf (generatedId : Bytes) (r : Request) : Bytes :=
  (requestIds r.headers).head?.getD generatedId

/-- Every request has its id behind the first layer. -/
theorem value?_identified (generatedId : Bytes) (r : Request) :
    (identified generatedId r).headers.value? requestIdHeader = some (idOf generatedId r) := by
  unfold identified
  cases hfound : r.headers.value? requestIdHeader with
  | some id =>
    have hhas : r.headers.has requestIdHeader = true := by rw [Headers.has, hfound]; rfl
    rw [if_pos hhas, hfound, idOf, ← value?_requestIdHeader, hfound]
    rfl
  | none =>
    have hhas : ¬r.headers.has requestIdHeader = true := by
      rw [Headers.has, hfound]; exact Bool.false_ne_true
    rw [value?_requestIdHeader] at hfound
    rw [if_neg hhas, value?_requestIdHeader, requestIds_append, List.head?_append,
      hfound, idOf, hfound]
    rfl

/-! ## Responses -/

/-- The response carries no request id. -/
def Plain (r : Response) : Prop := requestIds r.headers = []

/-- No target puts an id on its response. -/
theorem plain_atTarget (h : Host σ) (target : Option Target) (r : Request)
    (world : σ) {response : Response}
    (hresponse : (h.atTarget target r world).1.result = some response) : Plain response :=
  under_eq_nil_of_own (owned_atTarget h target r world hresponse) (by decide)

theorem ids_corsHeaders (origins : List String) (request : Headers) :
    requestIds (corsHeaders origins request) = [] := by
  unfold corsHeaders
  cases allowedOrigin origins request <;> rfl

theorem ids_completeProbe (m : Method) (r : Response) :
    requestIds (completeProbe m r).headers = requestIds r.headers :=
  under_completeProbe (by decide) m r

/-- The layers put the id of the request on a response that has none. -/
theorem ids_layered (h : Host σ) (generatedId : Bytes) (r : Request) {response : Response}
    (plain : Plain response) :
    requestIds (h.layered generatedId r (some response)).headers = [idOf generatedId r] := by
  have hnone : response.headers.has requestIdHeader = false := by
    rw [Headers.has, value?_requestIdHeader, plain]
    rfl
  have hcopied : requestIds (withRequestId (identified generatedId r).headers response).headers =
      [idOf generatedId r] := by
    simp only [withRequestId, value?_identified, hnone]
    rw [if_neg Bool.false_ne_true, requestIds_append, plain]
    rfl
  have hcors : requestIds (withCors h.config.corsOrigins (identified generatedId r).headers
      (withRequestId (identified generatedId r).headers response)).headers =
        [idOf generatedId r] := by
    rw [withCors, requestIds_append, hcopied, ids_corsHeaders, List.append_nil]
  show requestIds (Response.headers (if _ then _ else _)) = _
  split
  · rw [ids_completeProbe, hcors]
  · exact hcors

end Host

/-! ## Handlers -/

/-- Each time the handler runs, it notes the request id that it is told. -/
def Registration.Hears (heard : σ → List (Option String))
    (g : Registration c Controller σ) : Prop :=
  ∀ controller context request world,
    heard (g.handler controller context request world).state = heard world ++ [context.requestId]

/-- The same handler, with such notes next to the world. -/
def Registration.heard (g : Registration c Controller σ) :
    Registration c Controller (σ × List (Option String)) where
  op := g.op
  handler controller context request world :=
    let ran := g.handler controller context request world.1
    ⟨ran.result, (ran.state, world.2 ++ [context.requestId]), ran.trace⟩

theorem Registration.hears_heard (g : Registration c Controller σ) : g.heard.Hears Prod.snd :=
  fun _ _ _ _ => rfl

namespace Host

/-- A service all whose handlers note what they are told. -/
inductive Hearing (heard : σ → List (Option String)) :
    {c : Contract} → Service c Controller σ → Prop where
  | wired {c : Contract} (w : Wiring c Controller σ) (config : DispatchConfig) (lastCallId : Nat)
      (each : ∀ g ∈ w, g.Hears heard) : Hearing heard (w.service config lastCallId)

/-- While a request is served, at most one handler runs, and it is told the id of the request. -/
theorem Hearing.serve_heard {heard : σ → List (Option String)} {service : Service c Controller σ}
    (h : Hearing heard service) (controller : Controller) (r : Request) (world : σ) :
    let after := heard (service.serve controller r world).1.state
    after = heard world ∨ after = heard world ++ [r.headers.text? requestIdHeader] := by
  intro after
  obtain ⟨w, config, lastCallId, each⟩ := h
  rcases Service.serve_runs w config lastCallId controller r world with
    ⟨hstate, -⟩ | ⟨context, operation, payload, g, request, hprepare, hlast, -, hstate, -⟩
  · exact .inl (congrArg heard hstate)
  · right
    have hnoted := each g (Wiring.mem_of_last? hlast) controller context request world
    rw [Service.context_of_prepare hprepare] at hnoted hstate
    exact (congrArg heard hstate).trans hnoted

theorem lt_of_isVisible {b : UInt8} (h : isVisible b = true) : b.toNat < 0x80 := by
  simp only [isVisible, Bool.or_eq_true, Bool.and_eq_true, decide_eq_true_eq, beq_iff_eq] at h
  rcases h with ⟨-, h⟩ | rfl
  · have := UInt8.lt_iff_toNat_lt.1 h
    have hbound : (0x7F : UInt8).toNat = 0x7F := rfl
    omega
  · decide

/-- A text is told where all bytes of an id are visible. -/
theorem text?_identified (generatedId : Bytes) (r : Request) :
    let told := (identified generatedId r).headers.text? requestIdHeader
    ((idOf generatedId r).all isVisible = true → ∃ text,
      told = some text ∧ Utf8.encode text = idOf generatedId r) ∧
      ((idOf generatedId r).all isVisible = false → told = none) := by
  intro told
  have htold : told = if (idOf generatedId r).all isVisible then Utf8.decode? (idOf generatedId r)
      else none := by
    simp only [told, Headers.text?, value?_identified, Option.bind_some]
  constructor
  · intro hvisible
    have hascii : ∀ b ∈ idOf generatedId r, b.toNat < 0x80 := by
      intro b hb
      exact lt_of_isVisible (List.all_eq_true.1 hvisible b hb)
    obtain ⟨text, htext⟩ := Utf8.exists_encode_of_ascii hascii
    rw [htold, hvisible, if_pos rfl, ← htext]
    exact ⟨text, Utf8.decode?_encode text, rfl⟩
  · intro hhidden
    rw [htold, hhidden]
    rfl

/-! ## Answers -/

/-- **One request, one id.**  An answer that is not one to `OPTIONS` and not one of the time limit
    carries exactly one request id: the first one of the request, byte for byte, and a random UUID
    if the request has none.  It does so whatever the target is and however it answers.  If a
    handler runs, it is told this id as a text, or none if not every byte of it is visible. -/
theorem answer_carries_id (h : Host σ) {random : Bytes} (hrandom : random.length = 16)
    (r : Request) (world : σ) (hoptions : r.method ≠ .options)
    (hintime : (h.answer (randomUuid random) r world).1.result.status ≠ 408) :
    let ran := (h.answer (randomUuid random) r world).1
    ∃ id, ((requestIds r.headers).head? = some id ∨
        requestIds r.headers = [] ∧ id = randomUuid random ∧ IsRandomUuid id) ∧
      requestIds ran.result.headers = [id] ∧
      ∀ heard : σ → List (Option String), (∀ m ∈ h.mounts, Hearing heard m.service) →
        heard ran.state = heard world ∨ ∃ told, heard ran.state = heard world ++ [told] ∧
          (id.all isVisible = true → ∃ text, told = some text ∧ Utf8.encode text = id) ∧
          (id.all isVisible = false → told = none) := by
  intro ran
  refine ⟨idOf (randomUuid random) r, ?_, ?_, fun heard hears => ?_⟩
  · rw [idOf]
    cases hids : requestIds r.headers with
    | nil => exact .inr ⟨rfl, rfl, isRandomUuid_randomUuid hrandom⟩
    | cons id ids => exact .inl rfl
  · by_cases htime : h.config.requestTimeout = 0
    · rw [h.answer_of_no_time (randomUuid random) world hoptions htime] at hintime
      exact absurd (layered_status _ _ _ _) hintime
    · have hanswer := h.answer_eq_layered (randomUuid random) r world hoptions htime
      have hran : ran = _ := congrArg Prod.fst hanswer
      cases hresponse :
        (h.atTarget (h.target? r.uri.path) (identified (randomUuid random) r) world).1.result with
      | none =>
        refine absurd ?_ hintime
        show ran.result.status = 408
        rw [hran, Ran.result_map, hresponse, layered_status]
        rfl
      | some response =>
        rw [hran, Ran.result_map, hresponse]
        exact h.ids_layered _ r (plain_atTarget h _ _ world hresponse)
  · cases hr : h.reached? r with
    | none => exact .inl (congrArg heard (h.answer_of_unreached (randomUuid random) r world hr).1)
    | some reached =>
      obtain ⟨i, m⟩ := reached
      have hmount : m ∈ h.mounts := List.mem_of_getElem? (reached?_eq_some.1 hr).2.2.2.2
      have hstate := congrArg heard (h.answer_of_reached (randomUuid random) r world hr).1
      rcases (hears m hmount).serve_heard h.controller.acquire (forwarded (randomUuid random) r)
        world with hnone | hone
      · exact .inl (hstate.trans hnone)
      · exact .inr ⟨_, hstate.trans hone, text?_identified (randomUuid random) r⟩

/-- Of two ids of a request the first is kept, although it is no text and the handler is told
    none. -/
theorem first_id_is_kept :
    let echoing : Registration Echo.contract Controller (Unit × List (Option String)) :=
      Registration.heard ⟨Echo.echo, Echo.handleEcho⟩
    let h : Host (Unit × List (Option String)) :=
      { mounts := [⟨"/echo", .ofText "/echo", Echo.contract, Wiring.service [echoing] {} 0⟩] }
    let r : Request := ⟨.post, { Uri.root with path := "/echo" }, .http11,
      [(requestIdHeader, [0xE9]), header requestIdHeader "second"],
      [.data (Utf8.encode "\x7b\"message\":\"hi\"\x7d")], false⟩
    let random : Bytes := List.replicate 16 0
    let ran := (h.answer (randomUuid random) r ((), [])).1
    random.length = 16 ∧ r.method ≠ .options ∧ ran.result.status = 200 ∧
      requestIds ran.result.headers = [[0xE9]] ∧ ran.state.2 = [none] := by
  intro echoing h r random ran
  have hrandom : random.length = 16 := by decide
  have hoptions : r.method ≠ .options := by decide
  have hstatus : ran.result.status = 200 := by decide +kernel
  have hintime : ran.result.status ≠ 408 := by
    rw [hstatus]
    decide
  have hearing : ∀ m ∈ h.mounts, Hearing Prod.snd m.service := by
    intro m hm
    obtain rfl := List.mem_singleton.1 hm
    refine .wired [echoing] {} 0 fun g hg => ?_
    obtain rfl := List.mem_singleton.1 hg
    exact Registration.hears_heard _
  obtain ⟨id, hid, hids, hheard⟩ := answer_carries_id h hrandom r ((), []) hoptions hintime
  obtain rfl : id = [0xE9] := by
    rcases hid with hid | ⟨hnone, -⟩
    · exact (Option.some.inj hid).symm
    · cases hnone
  refine ⟨hrandom, hoptions, hstatus, hids, ?_⟩
  have hrun : ran.state.2 ≠ [] := by decide +kernel
  rcases hheard Prod.snd hearing with hidle | ⟨told, htold, -, hhidden⟩
  · exact absurd hidle hrun
  · rw [hhidden (by decide)] at htold
    exact htold

end Host

end Switchboard
