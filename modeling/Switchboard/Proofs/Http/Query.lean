/-
  What a query says.

  1. **Parts** — `Part s text`: the bytes of a name or value stand for a text.  A plus sign is a
     space, a percent sign and two hexadecimal digits are a byte, any other percent sign stands for
     itself, and bytes that are no text read leniently.

  2. **Pairs** — `Pair piece pair`: the first equals sign parts the name from the value; without one
     the value is empty.  `Pairs query pairs`: the pieces between ampersands, without the empty
     ones, in order.

  3. **Reading** — `Form.decode` finds the pairs that a query stands for, and every byte string
     stands for exactly one list of them (`pairs_iff`).  So a parameter is never lost to anything
     else in the query, and of a query with another one behind it the later one decides
     (`queryParam_union`).
-/
import Switchboard.Call.Context
import Switchboard.Proofs.Http.Form
import Switchboard.Proofs.Named
import Switchboard.Proofs.Text.Lossy

namespace Switchboard

open Http

namespace Http.Form

/-! ## Parts -/

/-- The bytes of a name or value without its escapes. -/
inductive Unescaped : Bytes → Bytes → Prop where
  | nil : Unescaped [] []
  | space {s t : Bytes} (rest : Unescaped s t) : Unescaped (0x2B :: s) (0x20 :: t)
  | escape {h l : UInt8} {m n : Nat} {s t : Bytes} (high : Json.hexDigit? h = some m)
    (low : Json.hexDigit? l = some n) (rest : Unescaped s t) :
    Unescaped (0x25 :: h :: l :: s) (UInt8.ofNat (m * 16 + n) :: t)
  /-- A percent sign that no two hexadecimal digits follow. -/
  | percent {s t : Bytes}
    (malformed : ∀ h l s', s = h :: l :: s' → Json.hexDigit? h = none ∨ Json.hexDigit? l = none)
    (rest : Unescaped s t) : Unescaped (0x25 :: s) (0x25 :: t)
  | same {b : UInt8} {s t : Bytes} (hspace : b ≠ 0x2B) (hpercent : b ≠ 0x25)
      (rest : Unescaped s t) :
    Unescaped (b :: s) (b :: t)

theorem escapedByte?_eq_some {h l b : UInt8} :
    escapedByte? h l = some b ↔
      ∃ m n, Json.hexDigit? h = some m ∧ Json.hexDigit? l = some n ∧
        UInt8.ofNat (m * 16 + n) = b := by
  unfold escapedByte?
  cases Json.hexDigit? h with
  | none => exact ⟨nofun, nofun⟩
  | some m =>
    cases Json.hexDigit? l with
    | none => exact ⟨nofun, nofun⟩
    | some n =>
      refine ⟨fun he => ⟨m, n, rfl, rfl, Option.some.inj he⟩, ?_⟩
      rintro ⟨m', n', hm, hn, he⟩
      cases hm
      cases hn
      exact congrArg some he

theorem escapedByte?_eq_none {h l : UInt8} :
    escapedByte? h l = none ↔ Json.hexDigit? h = none ∨ Json.hexDigit? l = none := by
  unfold escapedByte?
  cases Json.hexDigit? h with
  | none => exact ⟨fun _ => .inl rfl, fun _ => rfl⟩
  | some m =>
    cases Json.hexDigit? l with
    | none => exact ⟨fun _ => .inr rfl, fun _ => rfl⟩
    | some n => exact ⟨nofun, nofun⟩

/-- The bytes that were done first stand in front. -/
theorem unescapeOnto_append (done earlier s : Bytes) :
    unescapeOnto (done ++ earlier) s = earlier.reverse ++ unescapeOnto done s := by
  induction done, s using unescapeOnto.induct with
  | case1 done => rw [unescapeOnto, unescapeOnto, List.reverse_append]
  | case2 done h l s b hb ih =>
    rw [unescapeOnto, unescapeOnto, hb]
    exact ih
  | case3 done h l s hnone ih =>
    rw [unescapeOnto, unescapeOnto, hnone]
    exact ih
  | case4 done b s hother ih =>
    rw [unescapeOnto, unescapeOnto]
    · exact ih
    · exact hother
    · exact hother

theorem unescape_nil : unescape [] = [] := by
  rw [unescape, unescapeOnto, List.reverse_nil]

theorem unescape_escape {h l b : UInt8} (hb : escapedByte? h l = some b) (s : Bytes) :
    unescape (0x25 :: h :: l :: s) = b :: unescape s := by
  rw [unescape, unescapeOnto, hb]
  exact unescapeOnto_append [] [b] s

/-- A byte with which no escape begins. -/
theorem unescape_cons {b : UInt8} {s : Bytes}
    (hplain : b = 0x25 → ∀ h l s', s = h :: l :: s' → escapedByte? h l = none) :
    unescape (b :: s) = (if b = 0x2B then 0x20 else b) :: unescape s := by
  have hdone : (if b = 0x2B then 0x20 else b) :: unescape s =
      unescapeOnto [if b = 0x2B then 0x20 else b] s :=
    (unescapeOnto_append [] [if b = 0x2B then 0x20 else b] s).symm
  rw [unescape, hdone]
  by_cases hb : b = 0x25
  · subst hb
    rcases s with _ | ⟨h, _ | ⟨l, s⟩⟩
    · rw [unescapeOnto, unescapeOnto, unescapeOnto]
      intro h l s' _ hs
      cases hs
    · rw [unescapeOnto]
      intro h l s' _ hs
      cases hs
    · rw [unescapeOnto, hplain rfl h l s rfl]
      rfl
  · rw [unescapeOnto]
    intro h l s' he _
    exact hb he

/-- Every name or value has its bytes without escapes. -/
theorem unescaped_unescape : (s : Bytes) → Unescaped s (unescape s)
  | [] => by
    rw [unescape_nil]
    exact .nil
  | b :: s => by
    by_cases hescape : ∃ h l s' x, b = 0x25 ∧ s = h :: l :: s' ∧ escapedByte? h l = some x
    · obtain ⟨h, l, s', x, rfl, rfl, hx⟩ := hescape
      have hrest := unescaped_unescape s'
      rw [unescape_escape hx]
      obtain ⟨m, n, hm, hn, rfl⟩ := escapedByte?_eq_some.1 hx
      exact .escape hm hn hrest
    · have hplain : b = 0x25 → ∀ h l s', s = h :: l :: s' → escapedByte? h l = none := by
        intro hb h l s' hs
        rw [Option.eq_none_iff_forall_ne_some]
        intro x hx
        exact hescape ⟨h, l, s', x, hb, hs, hx⟩
      have hrest := unescaped_unescape s
      rw [unescape_cons hplain]
      by_cases hspace : b = 0x2B
      · subst hspace
        rw [if_pos rfl]
        exact .space hrest
      · rw [if_neg hspace]
        by_cases hpercent : b = 0x25
        · subst hpercent
          exact .percent (fun h l s' hs => escapedByte?_eq_none.1 (hplain rfl h l s' hs)) hrest
        · exact .same hspace hpercent hrest
  termination_by s => s.length

/-- And no others. -/
theorem Unescaped.unescape_eq {s t : Bytes} (h : Unescaped s t) : unescape s = t := by
  induction h with
  | nil => exact unescape_nil
  | space rest ih =>
    rw [unescape_cons (by intro he; cases he), if_pos rfl, ih]
  | escape high low rest ih =>
    rw [unescape_escape (escapedByte?_eq_some.2 ⟨_, _, high, low, rfl⟩), ih]
  | percent malformed rest ih =>
    rw [unescape_cons fun _ h l s' hs => escapedByte?_eq_none.2 (malformed h l s' hs),
      if_neg (by decide), ih]
  | same hspace hpercent rest ih =>
    rw [unescape_cons (fun he => absurd he hpercent), if_neg hspace, ih]

/-- The bytes of a name or value stand for a text. -/
def Part (s : Bytes) (text : String) : Prop := ∃ t, Unescaped s t ∧ Utf8.Lenient t text.toList

theorem part_iff {s : Bytes} {text : String} : Part s text ↔ decodePart s = text := by
  rw [decodePart, ← Utf8.lenient_iff]
  constructor
  · rintro ⟨t, ht, htext⟩
    rw [ht.unescape_eq]
    exact htext
  · intro h
    exact ⟨unescape s, unescaped_unescape s, h⟩

/-! ## Pairs -/

/-- A piece of a query stands for a name and a value. -/
inductive Pair : Bytes → String × String → Prop where
  | assigned {name value : Bytes} {n v : String} (hfirst : 0x3D ∉ name) (hname : Part name n)
    (hvalue : Part value v) : Pair (name ++ 0x3D :: value) (n, v)
  /-- A piece without an equals sign. -/
  | bare {name : Bytes} {n : String} (hnone : 0x3D ∉ name) (hname : Part name n) : Pair name (n, "")

/-- A query stands for its pairs. -/
def Pairs (query : Bytes) (pairs : Named String) : Prop :=
  ∃ between : List Bytes, query = [0x26].intercalate between ∧ (∀ piece ∈ between, 0x26 ∉ piece) ∧
    List.Forall₂ Pair (between.filter (· ≠ [])) pairs

/-- A piece stands for one pair. -/
theorem pair_iff {piece : Bytes} {pair : String × String} :
    Pair piece pair ↔ decodePiece piece = pair := by
  constructor
  · rintro (⟨hfirst, hname, hvalue⟩ | ⟨hnone, hname⟩)
    · rw [decodePiece_assigned hfirst, part_iff.1 hname, part_iff.1 hvalue]
    · rw [decodePiece_bare hnone, part_iff.1 hname]
  · rintro rfl
    by_cases hequals : 0x3D ∈ piece
    · obtain ⟨name, value, rfl, hfirst⟩ := List.eq_append_cons_of_mem hequals
      rw [decodePiece_assigned hfirst]
      exact .assigned hfirst (part_iff.2 rfl) (part_iff.2 rfl)
    · rw [decodePiece_bare hequals]
      exact .bare hequals (part_iff.2 rfl)

/-- No ampersand is left in a piece. -/
theorem not_mem_of_mem_pieces {s piece : Bytes} (h : piece ∈ pieces s) : 0x26 ∉ piece := by
  rw [pieces] at h
  induction s generalizing piece with
  | nil =>
    rw [List.splitOn_nil, List.mem_singleton] at h
    rw [h]
    exact List.not_mem_nil
  | cons b s ih =>
    rw [List.splitOn_cons_eq_if_modifyHead] at h
    split at h
    · rcases List.mem_cons.1 h with rfl | h
      · exact List.not_mem_nil
      · exact ih h
    next hb =>
      cases hs : List.splitOn 0x26 s with
      | nil => exact absurd hs (List.splitOn_ne_nil _ _)
      | cons first later =>
        rw [hs, List.modifyHead_cons] at h
        rcases List.mem_cons.1 h with rfl | h
        · intro hmem
          rcases List.mem_cons.1 hmem with rfl | hmem
          · exact hb (beq_self_eq_true _)
          · exact ih (hs ▸ List.mem_cons_self) hmem
        · exact ih (hs ▸ List.mem_cons_of_mem _ h)

/-! ## Reading -/

/-- Every query stands for one list of pairs. -/
theorem pairs_iff {query : String} {pairs : Named String} :
    Pairs (Utf8.encode query) pairs ↔ decode query = pairs := by
  have hall : ∀ {between : List Bytes} {pairs : Named String},
      List.Forall₂ Pair between pairs ↔ between.map decodePiece = pairs := by
    intro between pairs
    have hpair : Pair = fun piece pair => decodePiece piece = pair := by
      funext piece pair
      exact propext pair_iff
    rw [hpair, ← List.forall₂_map_left_iff (R := Eq), List.forall₂_eq_eq_eq]
  rw [decode]
  constructor
  · rintro ⟨between, hquery, hfree, hpairs⟩
    rw [← hall, hquery, pieces]
    rcases between with _ | ⟨piece, between⟩
    · exact hpairs
    · rw [List.splitOn_intercalate _ hfree (List.cons_ne_nil _ _)]
      exact hpairs
  · intro h
    refine ⟨pieces (Utf8.encode query), (List.intercalate_splitOn _).symm,
      fun piece hpiece => ?_, hall.2 h⟩
    exact not_mem_of_mem_pieces hpiece

end Http.Form

/-! ## Parameters -/

/-- The same call with another query. -/
def CallContext.asking (context : CallContext) (query : String) : CallContext :=
  { context with uri := { context.uri with query := some query } }

/-- **Queries.**  Of two queries joined by an ampersand, the second decides about a parameter if it
    has it, and the first if not.  What a query says is never in doubt: whatever its text is, it
    stands for one list of pairs, and a parameter has the value of the last pair of its name. -/
theorem queryParam_union (context : CallContext) :
    (∀ first second name : String,
      (context.asking (first ++ "&" ++ second)).queryParam name =
        ((context.asking second).queryParam name).or ((context.asking first).queryParam name)) ∧
    ∃ pairs : Named String,
      (∀ others, Form.Pairs (Utf8.encode (context.uri.query.getD "")) others ↔ others = pairs) ∧
      ∀ name, context.queryParam name = pairs.last? name := by
  refine ⟨fun first second name => ?_, Form.decode (context.uri.query.getD ""),
    fun others => ?_, fun name => rfl⟩
  · show (Form.decode (first ++ "&" ++ second)).last? name = _
    rw [Form.decode_append]
    exact Named.last?_append _ _ _
  · rw [Form.pairs_iff]
    exact eq_comm

/-- A repeated name, an empty piece, an escape and a byte that are none, and a piece without a
    value. -/
example : Form.decode "a=1&&b%zz=%FF+&a" = [("a", "1"), ("b%zz", "\uFFFD "), ("a", "")] := by cbv

end Switchboard
