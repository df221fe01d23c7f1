/-
  How bytes that are no text read as one.

  1. **Broken pieces** — `Broken piece rest`: no character stands in front, and `piece` is as much
     of one as the bytes have, or a single byte where they have nothing of one.  There is never a
     choice (`Broken.unique`).

  2. **One piece** — `next` finds no character exactly where a broken piece stands, and takes just
     this piece (`next_eq_none_iff`).  It stops where the next byte fits no more, and up to there
     the bytes can still be completed to a character (`exists_stop`, `exists_completion`).

  3. **Whole texts** — `Lenient s cs`: the bytes are characters and broken pieces one after the
     other, and the broken ones read as U+FFFD.  `decodeLossy` reads every byte string so, and there
     is no other way to read it so (`lenient_iff`).
-/
import Switchboard.Proofs.Text.Utf8

namespace Switchboard.Utf8

/-! ## Broken pieces -/

/-- The bytes are those that a character begins with, or all of its bytes. -/
def Begins (s : Bytes) : Prop := ∃ c, s <+: String.utf8EncodeChar c

/-- A piece that is no character, in front of other bytes. -/
structure Broken (piece rest : Bytes) : Prop where
  ne_nil : piece ≠ []
  /-- No character stands here. -/
  absent : ∀ c, ¬String.utf8EncodeChar c <+: piece ++ rest
  part : Begins piece ∨ piece.length = 1
  /-- Nor does a longer part of one. -/
  longest : ∀ longer, longer <+: piece ++ rest → Begins longer → longer.length ≤ piece.length

theorem Broken.length_le {piece rest other left : Bytes} (h : Broken piece rest)
    (h' : Broken other left)
    (hsame : piece ++ rest = other ++ left) : piece.length ≤ other.length := by
  rcases h.part with hbegins | hone
  · exact h'.longest piece (hsame ▸ List.prefix_append piece rest) hbegins
  · have hpositive : 0 < other.length := List.length_pos_iff.2 h'.ne_nil
    omega

/-- The same bytes begin with one broken piece at most. -/
theorem Broken.unique {piece rest other left : Bytes} (h : Broken piece rest)
    (h' : Broken other left)
    (hsame : piece ++ rest = other ++ left) : piece = other ∧ rest = left := by
  have hle := h.length_le h' hsame
  have hge := h'.length_le h hsame.symm
  exact List.append_inj hsame (by omega)

/-! ## One piece -/

/-- What begins a character can be completed to one that is read. -/
theorem Begins.exists_next {b : UInt8} {w : Bytes} (h : Begins (b :: w)) :
    ∃ more c, next b (w ++ more) = (some c, []) := by
  obtain ⟨c, more, hc⟩ := h
  refine ⟨more, c, next_iff.2 ?_⟩
  rw [← List.cons_append, hc, List.append_nil]

theorem begins_of_next {b : UInt8} {w more : Bytes} {c : Char}
    (h : next b (w ++ more) = (some c, [])) :
    Begins (b :: w) := by
  refine ⟨c, more, ?_⟩
  rw [List.cons_append, next_iff.1 h, List.append_nil]

/-- The range of the first tail byte is never empty: the two narrower bounds belong to different
    first bytes. -/
theorem low_le_high {b : UInt8} {l : Lead} (h : lead? b = some l) : l.low ≤ l.high := by
  have hwide : (0x80 : UInt8) ≤ 0xBF := by decide
  cases announces_of_lead? h with
  | one | two => exact hwide
  | three =>
    show (if b = 0xE0 then 0xA0 else 0x80 : UInt8) ≤ if b = 0xED then 0x9F else 0xBF
    split
    next he => rw [he]; decide
    next => split <;> decide
  | four =>
    show (if b = 0xF0 then 0x90 else 0x80 : UInt8) ≤ if b = 0xF4 then 0x8F else 0xBF
    split
    next he => rw [he]; decide
    next => split <;> decide

/-- Where no character is read, the tail bytes in front fit, and the next byte does not. -/
theorem exists_stop {n : Nat} {low high : UInt8} {bits : Nat} {s t : Bytes} (hrange : low ≤ high)
    (h : readTails n low high bits s = (none, t)) :
    ∃ p m low' high' bits', s = p ++ t ∧ low' ≤ high' ∧
      (∀ u, readTails n low high bits (p ++ u) = readTails (m + 1) low' high' bits' u) ∧
      ∀ x r, t = x :: r → ¬(low' ≤ x ∧ x ≤ high') := by
  induction n generalizing low high bits s with
  | zero => cases h
  | succ n ih =>
    cases s with
    | nil =>
      cases h
      exact ⟨[], n, low, high, bits, rfl, hrange, fun _ => rfl, nofun⟩
    | cons b s =>
      rw [readTails] at h
      split at h
      next hfits =>
        obtain ⟨p, m, low', high', bits', rfl, hrange', hrun, hstop⟩ := ih (by decide) h
        refine ⟨b :: p, m, low', high', bits', rfl, hrange', fun u => ?_, hstop⟩
        rw [List.cons_append, readTails, if_pos hfits]
        exact hrun u
      next hbreaks =>
        cases h
        refine ⟨[], n, low, high, bits, rfl, hrange, fun _ => rfl, fun x r he => ?_⟩
        cases he
        exact hbreaks

theorem exists_completion (n : Nat) {low high : UInt8} (bits : Nat) (hrange : low ≤ high) :
    ∃ u c, readTails n low high bits u = (some c, []) := by
  induction n generalizing low high bits with
  | zero => exact ⟨[], _, rfl⟩
  | succ n ih =>
    have htail : (0x80 : UInt8) ≤ 0xBF := by decide
    obtain ⟨u, c, hread⟩ := ih (bits * 64 + low.toNat % 64) htail
    refine ⟨low :: u, c, ?_⟩
    rw [readTails, if_pos ⟨UInt8.le_refl low, hrange⟩]
    exact hread

/-- Where no character is read, a broken piece stands. -/
theorem broken_of_next {b : UInt8} {s t : Bytes} (h : next b s = (none, t)) :
    ∃ p, s = p ++ t ∧ Broken (b :: p) t := by
  have habsent : ∀ c, ¬String.utf8EncodeChar c <+: b :: s := by
    rintro c ⟨r, hr⟩
    have hread := next_iff.2 hr.symm
    rw [h] at hread
    cases hread
  cases hlead : lead? b with
  | none =>
    have hnone : ∀ s', next b s' = (none, s') := by
      intro s'
      rw [next, hlead]
    rw [hnone] at h
    cases h
    refine ⟨[], rfl, List.cons_ne_nil _ _, habsent, .inr rfl, fun longer hprefix hbegins => ?_⟩
    cases longer with
    | nil => exact Nat.zero_le _
    | cons x w =>
      obtain ⟨rfl, -⟩ := List.cons_prefix_cons.1 hprefix
      obtain ⟨more, c, hread⟩ := hbegins.exists_next
      rw [hnone] at hread
      cases hread
  | some l =>
    have htails : ∀ s', next b s' = readTails l.tails l.low l.high l.bits s' := by
      intro s'
      rw [next, hlead]
    rw [htails] at h
    obtain ⟨p, m, low, high, bits, rfl, hrange, hrun, hstop⟩ := exists_stop (low_le_high hlead) h
    refine ⟨p, rfl, List.cons_ne_nil _ _, habsent, .inl ?_, fun longer hprefix hbegins => ?_⟩
    · obtain ⟨u, c, hread⟩ := exists_completion (m + 1) bits hrange
      have hnext : next b (p ++ u) = (some c, []) := by rw [htails, hrun, hread]
      exact begins_of_next hnext
    · -- A longer part of a character would have the byte that does not fit.
      by_contra hlonger
      have hpiece : b :: p <+: longer :=
        List.prefix_of_prefix_length_le (List.prefix_append (b :: p) t) hprefix (by omega)
      obtain ⟨w, rfl⟩ := hpiece
      have hrest : w <+: t := (List.prefix_append_right_inj (b :: p)).1 hprefix
      cases w with
      | nil => exact hlonger (by rw [List.append_nil])
      | cons x w =>
        obtain ⟨r, rfl⟩ := hrest
        obtain ⟨more, c, hread⟩ := Begins.exists_next (w := p ++ x :: w) hbegins
        rw [List.append_assoc, htails, hrun, List.cons_append, readTails,
          if_neg (hstop x (w ++ r) rfl)] at hread
        cases hread

/-- No character is read exactly where a broken piece stands, and this piece is passed over. -/
theorem next_eq_none_iff {b : UInt8} {s t : Bytes} :
    next b s = (none, t) ↔ ∃ p, s = p ++ t ∧ Broken (b :: p) t := by
  constructor
  · exact broken_of_next
  · rintro ⟨p, rfl, hbroken⟩
    rcases hnext : next b (p ++ t) with ⟨c | c, left⟩
    · obtain ⟨q, hq, hother⟩ := broken_of_next hnext
      obtain ⟨-, rfl⟩ := hbroken.unique hother (congrArg (b :: ·) hq)
      rfl
    · exact absurd ⟨left, (next_iff.1 hnext).symm⟩ (hbroken.absent c)

/-! ## Whole texts -/

/-- The bytes read as these characters, with U+FFFD for every broken piece. -/
inductive Lenient : Bytes → List Char → Prop where
  | nil : Lenient [] []
  | char {rest : Bytes} {cs : List Char} (c : Char) (h : Lenient rest cs) :
    Lenient (String.utf8EncodeChar c ++ rest) (c :: cs)
  | broken {piece rest : Bytes} {cs : List Char} (broken : Broken piece rest)
      (h : Lenient rest cs) :
    Lenient (piece ++ rest) ('\uFFFD' :: cs)

/-- The pieces that were found first stand in front. -/
theorem piecesOnto_append (found earlier : List (Option Char)) (s : Bytes) :
    piecesOnto (found ++ earlier) s = earlier.reverse ++ piecesOnto found s := by
  induction found, s using piecesOnto.induct with
  | case1 found => rw [piecesOnto, piecesOnto, List.reverse_append]
  | case2 found b s ih => rw [piecesOnto, piecesOnto, ← ih, List.cons_append]

theorem pieces_cons (b : UInt8) (s : Bytes) :
    pieces (b :: s) = (next b s).1 :: pieces (next b s).2 := by
  rw [pieces, piecesOnto, ← List.nil_append [(next b s).1], piecesOnto_append]
  rfl

/-- The characters that bytes read as. -/
def readLossy (s : Bytes) : List Char := (pieces s).map (·.getD '\uFFFD')

theorem decodeLossy_eq (s : Bytes) : decodeLossy s = String.ofList (readLossy s) := rfl

theorem readLossy_nil : readLossy [] = [] := by
  rw [readLossy, pieces, piecesOnto]
  rfl

theorem readLossy_cons (b : UInt8) (s : Bytes) :
    readLossy (b :: s) = (next b s).1.getD '\uFFFD' :: readLossy (next b s).2 := by
  rw [readLossy, pieces_cons, List.map_cons]
  rfl

theorem Lenient.eq_readLossy {s : Bytes} {cs : List Char} (h : Lenient s cs) :
    readLossy s = cs := by
  induction h with
  | nil => exact readLossy_nil
  | @char rest cs c h ih =>
    obtain ⟨b, t, hbytes, hnext⟩ := next_encode c rest
    rw [hbytes, List.cons_append, readLossy_cons, hnext, ih]
    rfl
  | @broken piece rest cs broken h ih =>
    cases piece with
    | nil => exact absurd rfl broken.ne_nil
    | cons b p =>
      have hnext : next b (p ++ rest) = (none, rest) := next_eq_none_iff.2 ⟨p, rfl, broken⟩
      rw [List.cons_append, readLossy_cons, hnext, ih]
      rfl

theorem lenient_readLossy : (s : Bytes) → Lenient s (readLossy s)
  | [] => by
    rw [readLossy_nil]
    exact .nil
  | b :: s => by
    have hrest := lenient_readLossy (next b s).2
    rw [readLossy_cons]
    rcases hnext : next b s with ⟨c | c, t⟩
    · rw [hnext] at hrest
      obtain ⟨p, rfl, broken⟩ := next_eq_none_iff.1 hnext
      exact .broken broken hrest
    · rw [hnext] at hrest
      rw [next_iff.1 hnext]
      exact .char c hrest
  termination_by s => s.length
  decreasing_by exact Nat.lt_succ_of_le (length_next_le b s)

/-- Bytes have one lenient reading. -/
theorem lenient_iff {s : Bytes} {text : String} : Lenient s text.toList ↔ decodeLossy s = text := by
  rw [decodeLossy_eq]
  constructor
  · intro h
    rw [h.eq_readLossy, String.ofList_toList]
  · rintro rfl
    rw [String.toList_ofList]
    exact lenient_readLossy s

end Switchboard.Utf8
