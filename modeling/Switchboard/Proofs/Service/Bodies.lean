/-
  What reading a body comes to, whatever frames it arrives in.

  1. **Chunks** — every body is chunks of data, and then it ends, fails, or never goes on
     (`exists_chunks`).  `readBody_eq` says what reading it comes to: the bytes of the chunks count,
     and not where they are cut.

  2. **Limits** — a body is too large when some of its chunks, in front of anything else, are larger
     than the limit together (`overflows_iff`), and then neither a failure nor a frame that never
     comes is seen.

  3. **Requests** — so each body has exactly one of four outcomes, and a service answers a request
     alike, whatever pieces its body is in (`body_outcomes`).
-/
import Switchboard.Proofs.Service.Dispatch

namespace Switchboard

open Http

variable {c : Contract} {ε σ : Type}

/-! ## Chunks -/

/-- How the frames of a body end. -/
inductive BodyEnd where
  | complete
  | failed (message : String)
  | never
  deriving Repr, DecidableEq

/-- The bytes that the frames bring before they end. -/
def bodyBytes : List Frame → Bytes
  | .data bytes :: frames => bytes ++ bodyBytes frames
  | _ => []

/-- What comes behind the last data of a body. -/
def bodyEnd : List Frame → BodyEnd
  | [] => .complete
  | .data _ :: frames => bodyEnd frames
  | .failure message :: _ => .failed message
  | .pending :: _ => .never

/-- Bytes that do not fit are refused, however they end. -/
theorem readBody_eq (limit : Nat) (frames : List Frame) : readBody limit frames =
    if limit < (bodyBytes frames).length then .tooLarge
    else
      match bodyEnd frames with
      | .complete => .complete (bodyBytes frames)
      | .failed message => .failed message
      | .never => .unfinished := by
  induction frames generalizing limit with
  | nil => rfl
  | cons frame frames ih =>
    cases frame with
    | failure message | pending => rfl
    | data bytes =>
      rw [readBody, bodyBytes, bodyEnd, List.length_append]
      by_cases hfirst : limit < bytes.length
      · rw [if_pos hfirst, if_pos (by omega)]
      rw [if_neg hfirst, ih]
      by_cases hrest : limit - bytes.length < (bodyBytes frames).length
      · rw [if_pos hrest, if_pos (by omega)]
        rfl
      · rw [if_neg hrest, if_neg (by omega)]
        cases bodyEnd frames <;> rfl

/-- The frames that come behind the chunks of a body with this end. -/
def BodyEnd.Stops : BodyEnd → List Frame → Prop
  | .complete, frames => frames = []
  | .failed message, frames => ∃ behind, frames = .failure message :: behind
  | .never, frames => ∃ behind, frames = .pending :: behind

/-- Chunks in front of other frames bring their bytes first. -/
theorem bodyBytes_chunks (chunks : List Bytes) (frames : List Frame) :
    bodyBytes (chunks.map .data ++ frames) = chunks.flatten ++ bodyBytes frames := by
  induction chunks with
  | nil => rfl
  | cons chunk chunks ih =>
    rw [List.map_cons, List.cons_append, bodyBytes, ih, List.flatten_cons, List.append_assoc]

theorem bodyEnd_chunks (chunks : List Bytes) (frames : List Frame) :
    bodyEnd (chunks.map .data ++ frames) = bodyEnd frames := by
  induction chunks with
  | nil => rfl
  | cons chunk chunks ih =>
    rw [List.map_cons, List.cons_append, bodyEnd, ih]

/-- A body of nothing but chunks brings their bytes, and ends. -/
theorem bodyBytes_data (chunks : List Bytes) : bodyBytes (chunks.map .data) = chunks.flatten := by
  have h := bodyBytes_chunks chunks []
  rw [List.append_nil] at h
  exact h.trans (List.append_nil _)

theorem bodyEnd_data (chunks : List Bytes) : bodyEnd (chunks.map .data) = .complete := by
  have h := bodyEnd_chunks chunks []
  rwa [List.append_nil] at h

/-- Frames that stop a body bring no bytes, and end it. -/
theorem BodyEnd.Stops.eq {ending : BodyEnd} {frames : List Frame} (h : ending.Stops frames) :
    bodyBytes frames = [] ∧ bodyEnd frames = ending := by
  cases ending with
  | complete =>
    obtain rfl : frames = [] := h
    exact ⟨rfl, rfl⟩
  | failed message | never =>
    obtain ⟨behind, rfl⟩ := h
    exact ⟨rfl, rfl⟩

/-- A body is chunks, and behind them what stops it. -/
theorem exists_chunks (frames : List Frame) :
    ∃ (chunks : List Bytes) (stop : List Frame),
      frames = chunks.map .data ++ stop ∧ (bodyEnd frames).Stops stop := by
  induction frames with
  | nil => exact ⟨[], [], rfl, rfl⟩
  | cons frame frames ih =>
    cases frame with
    | data bytes =>
      obtain ⟨chunks, stop, hframes, hstop⟩ := ih
      exact ⟨bytes :: chunks, stop, by rw [List.map_cons, List.cons_append, ← hframes], hstop⟩
    | failure message | pending => exact ⟨[], _, rfl, frames, rfl⟩

/-- How a body ends is told by the first frame that is no data. -/
theorem bodyEnd_eq_iff {frames : List Frame} {ending : BodyEnd} :
    bodyEnd frames = ending ↔
      ∃ (chunks : List Bytes) (stop : List Frame), frames = chunks.map .data ++ stop ∧
        ending.Stops stop := by
  constructor
  · rintro rfl
    exact exists_chunks frames
  · rintro ⟨chunks, stop, rfl, hstop⟩
    rw [bodyEnd_chunks]
    exact hstop.eq.2

/-! ## Limits -/

/-- Chunks at the front of the body, with nothing else between them, are larger than the limit
    together. -/
def Overflows (limit : Nat) (frames : List Frame) : Prop :=
  ∃ run : List Bytes, run.map .data <+: frames ∧ limit < run.flatten.length

/-- Of all runs of chunks at the front the longest is the largest. -/
theorem overflows_iff {limit : Nat} {frames : List Frame} :
    Overflows limit frames ↔ limit < (bodyBytes frames).length := by
  constructor
  · rintro ⟨run, ⟨behind, rfl⟩, hrun⟩
    rw [bodyBytes_chunks, List.length_append]
    exact Nat.lt_of_lt_of_le hrun (Nat.le_add_right _ _)
  · intro h
    obtain ⟨chunks, stop, hframes, hstop⟩ := exists_chunks frames
    refine ⟨chunks, ⟨stop, hframes.symm⟩, ?_⟩
    rwa [hframes, bodyBytes_chunks, hstop.eq.1, List.append_nil] at h

theorem readBody_tooLarge_iff {limit : Nat} {frames : List Frame} :
    readBody limit frames = .tooLarge ↔ Overflows limit frames := by
  rw [overflows_iff, readBody_eq]
  split
  · next h => exact iff_of_true rfl h
  · next h =>
    refine iff_of_false ?_ h
    cases bodyEnd frames <;> exact nofun

section Within

variable {limit : Nat} {frames : List Frame} (fits : ¬Overflows limit frames)

include fits

/-- A body that fits is read as it ends. -/
theorem readBody_of_fits : readBody limit frames =
    match bodyEnd frames with
    | .complete => .complete (bodyBytes frames)
    | .failed message => .failed message
    | .never => .unfinished := by
  rw [readBody_eq, if_neg (mt overflows_iff.2 fits)]

theorem readBody_failed_iff {message : String} : readBody limit frames = .failed message ↔
    ∃ (chunks : List Bytes) (behind : List Frame),
      frames = chunks.map .data ++ .failure message :: behind := by
  have hend : readBody limit frames = .failed message ↔ bodyEnd frames = .failed message := by
    rw [readBody_of_fits fits]
    cases bodyEnd frames <;> simp
  rw [hend, bodyEnd_eq_iff]
  constructor
  · rintro ⟨chunks, stop, hframes, behind, rfl⟩
    exact ⟨chunks, behind, hframes⟩
  · rintro ⟨chunks, behind, hframes⟩
    exact ⟨chunks, _, hframes, behind, rfl⟩

theorem readBody_unfinished_iff : readBody limit frames = .unfinished ↔
    ∃ (chunks : List Bytes) (behind : List Frame),
      frames = chunks.map .data ++ .pending :: behind := by
  have hend : readBody limit frames = .unfinished ↔ bodyEnd frames = .never := by
    rw [readBody_of_fits fits]
    cases bodyEnd frames <;> simp
  rw [hend, bodyEnd_eq_iff]
  constructor
  · rintro ⟨chunks, stop, hframes, behind, rfl⟩
    exact ⟨chunks, behind, hframes⟩
  · rintro ⟨chunks, behind, hframes⟩
    exact ⟨chunks, _, hframes, behind, rfl⟩

theorem readBody_complete_iff {payload : Bytes} : readBody limit frames = .complete payload ↔
    ∃ chunks : List Bytes, frames = chunks.map .data ∧ payload = chunks.flatten := by
  constructor
  · intro h
    rw [readBody_of_fits fits] at h
    obtain ⟨chunks, stop, hframes, hstop⟩ := exists_chunks frames
    cases hend : bodyEnd frames with
    | failed message | never =>
      rw [hend] at h
      cases h
    | complete =>
      rw [hend] at h hstop
      obtain rfl : stop = [] := hstop
      cases h
      rw [List.append_nil] at hframes
      exact ⟨chunks, hframes, by rw [hframes, bodyBytes_data]⟩
  · rintro ⟨chunks, hframes, rfl⟩
    rw [readBody_of_fits fits, hframes, bodyEnd_data, bodyBytes_data]

end Within

/-! ## Requests -/

/-- A service answers a request alike that brings its bytes in other pieces, whatever comes behind
    them. -/
theorem Service.serve_recut (s : Service c ε σ) (surroundings : ε) (r : Request) (world : σ)
    {chunks chunks' : List Bytes} (same : chunks.flatten = chunks'.flatten) (behind : List Frame) :
    s.serve surroundings { r with body := chunks.map .data ++ behind } world =
      s.serve surroundings { r with body := chunks'.map .data ++ behind } world := by
  have hread : readBody s.config.maxRequestBytes (chunks.map .data ++ behind) =
      readBody s.config.maxRequestBytes (chunks'.map .data ++ behind) := by
    simp only [readBody_eq, bodyBytes_chunks, bodyEnd_chunks, same]
  have hprepare : s.prepare s.nextCallId.1 { r with body := chunks.map .data ++ behind } =
      s.prepare s.nextCallId.1 { r with body := chunks'.map .data ++ behind } := by
    simp only [prepare, hread]
    rfl
  rw [serve, serve, serveAs, serveAs, hprepare]

/-- **Bodies.**  Reading a body ends in one of four ways.  It is too large just when some run of
    chunks at its front is larger than the limit.  Else, if the first frame that is no data is a
    failure, this is reported; if that frame never comes, the reading does not end; and if there is
    none, the chunks are put together.  A request whose method is served is refused, left without an
    answer, or goes on accordingly.  So a body that is just as large as the limit is taken in, and a
    service answers a request alike, and does the same, in whatever pieces the bytes of its body
    arrive. -/
theorem body_outcomes (limit : Nat) (frames : List Frame) :
    (readBody limit frames = .tooLarge ↔ Overflows limit frames) ∧
    (¬Overflows limit frames →
      (∀ message, readBody limit frames = .failed message ↔
        ∃ (chunks : List Bytes) (behind : List Frame),
          frames = chunks.map .data ++ .failure message :: behind) ∧
      (readBody limit frames = .unfinished ↔
        ∃ (chunks : List Bytes) (behind : List Frame),
          frames = chunks.map .data ++ .pending :: behind) ∧
      (∀ payload, readBody limit frames = .complete payload ↔
        ∃ chunks : List Bytes, frames = chunks.map .data ∧ payload = chunks.flatten)) ∧
    (∀ chunks : List Bytes, chunks.flatten.length = limit →
      readBody limit (chunks.map .data) = .complete chunks.flatten) ∧
    ∀ (s : Service c ε σ) (surroundings : ε) (r : Request) (world : σ),
      s.config.maxRequestBytes = limit →
      (¬(s.config.requirePost ∧ r.method ≠ .post) → r.body = frames → ∀ callId,
        (readBody limit frames = .tooLarge → s.prepare callId r = .error (.payloadTooLarge limit)) ∧
        (∀ message, readBody limit frames = .failed message →
          s.prepare callId r = .error (.badRequest ("failed to read request body: " ++ message))) ∧
        (readBody limit frames = .unfinished →
          (s.serve surroundings r world).1.result = .unfinished)) ∧
      (∀ (chunks chunks' : List Bytes) (behind : List Frame), chunks.flatten = chunks'.flatten →
        s.serve surroundings { r with body := chunks.map .data ++ behind } world =
          s.serve surroundings { r with body := chunks'.map .data ++ behind } world) := by
  refine ⟨readBody_tooLarge_iff,
    fun fits => ⟨fun _ => readBody_failed_iff fits, readBody_unfinished_iff fits,
      fun _ => readBody_complete_iff fits⟩,
    fun chunks hfull => ?_, fun s surroundings r world hlimit => ⟨?_, ?_⟩⟩
  · have fits : ¬Overflows limit (chunks.map .data) := by
      rw [overflows_iff, bodyBytes_data]
      omega
    exact (readBody_complete_iff fits).2 ⟨chunks, rfl, rfl⟩
  · intro served hframes callId
    subst hlimit hframes
    refine ⟨Service.prepare_tooLarge served, fun message => Service.prepare_failed served,
      fun hread => ?_⟩
    have hprepare : s.prepare s.nextCallId.1 r = .ok none := by
      rw [Service.prepare, if_neg served, hread]
    rw [Service.serve_of_unfinished hprepare]
    rfl
  · exact fun chunks chunks' behind same => s.serve_recut surroundings r world same behind

/-- A body that fills the limit, with an empty chunk and a failure behind it: the failure is seen.
    One byte more, and it is not.  A request with these bytes is answered like one that brings them
    at once. -/
theorem failure_seen_behind_full_body :
    let chunks : List Bytes := [Utf8.encode "ab", [], Utf8.encode "cd"]
    let config : DispatchConfig := { maxRequestBytes := 4 }
    let service : Service ⟨"Odd", .fixed "f", ["f"]⟩ Unit Unit := { config }
    let r : Request := ⟨.post, .root, .http11, [], chunks.map .data ++ [.failure "gone"], false⟩
    readBody 4 (chunks.map .data) = .complete (Utf8.encode "abcd") ∧
      readBody 4 r.body = .failed "gone" ∧
      service.prepare 1 r = .error (.badRequest "failed to read request body: gone") ∧
      readBody 4 (.data (Utf8.encode "e") :: r.body) = .tooLarge ∧
      service.serve () { r with body := chunks.map .data ++ [] } () =
        service.serve () { r with body := [Utf8.encode "abcd"].map .data ++ [] } () := by
  intro chunks config service r
  obtain ⟨-, hfits, hfull, hserve⟩ :=
    body_outcomes (c := ⟨"Odd", .fixed "f", ["f"]⟩) (ε := Unit) (σ := Unit) 4 r.body
  have fits : ¬Overflows 4 r.body := by
    rw [overflows_iff]
    decide
  have hfailed : readBody 4 r.body = .failed "gone" := ((hfits fits).1 "gone").2 ⟨chunks, [], rfl⟩
  obtain ⟨hrefused, hrecut⟩ := hserve service () r () rfl
  have larger : Overflows 4 (.data (Utf8.encode "e") :: r.body) :=
    ⟨Utf8.encode "e" :: chunks, ⟨[.failure "gone"], rfl⟩, by decide⟩
  exact ⟨hfull chunks rfl, hfailed, (hrefused (fun h => h.2 rfl) rfl 1).2.1 "gone" hfailed,
    readBody_tooLarge_iff.2 larger, hrecut chunks [Utf8.encode "abcd"] [] rfl⟩

end Switchboard
