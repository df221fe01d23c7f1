/-
  Readings taken apart.

  A loop over readers ends because the bytes do, which a proof about it would have to repeat.  Here
  every loop that has come to an end is written down as a derivation, one constructor for each way
  round, so that what follows about readings is induction over these:

    * `ScalarRead`   the five kinds of scalars;
    * `Elements`     what stands behind an element of a list;
    * `Entries`      what stands behind a member of an object;
    * `LayerRead`    a value of any shape.

  For each of them a reading gives a value just when there is a derivation (`ScalarRead.of_scalar?`
  and `ScalarRead.scalar?`, `reads_list_iff`, `reads_object_iff`, `reads_layer_iff`).
-/
import Switchboard.Proofs.Json.Numeral
import Switchboard.Proofs.Json.Text

namespace Switchboard.Json

variable {α β σ : Type} {m n : Nat}

/-! ## Strings -/

theorem reads_text_iff {s rest : Bytes} {t : String} :
    Reads (text s) t rest ↔ ∃ r, skipBlanks s = quote :: r ∧ Reads (textBody r) t rest := by
  constructor
  · intro h
    rw [text] at h
    obtain ⟨b, r, hr, hs, h⟩ := h.of_first
    split at h
    · next hb => exact ⟨r, hb ▸ hs, (reads_within_iff _).1 h⟩
    · exact absurd h not_reads_error
  · rintro ⟨r, hs, h⟩
    rw [text]
    refine .first hs fun _ => ?_
    rw [if_pos rfl]
    exact h.within _

/-! ## Scalars -/

theorem reads_word_iff {w s : Bytes} {h : s.length < n} {rest : Bytes} :
    Reads (word w s h) () rest ↔ s = w ++ rest := by
  induction w generalizing s with
  | nil =>
    rw [word, reads_ok_iff]
    exact ⟨fun h => h.2, fun h => ⟨rfl, h⟩⟩
  | cons b w ih =>
    cases s with
    | nil =>
      rw [word]
      exact ⟨fun h => absurd h not_reads_error, nofun⟩
    | cons c s =>
      rw [word, List.cons_append, List.cons.injEq]
      split
      next hc => rw [ih, and_iff_right hc]
      next hc => exact ⟨fun h => absurd h not_reads_error, fun h => absurd h.1 hc⟩

theorem reads_number_iff {s rest : Bytes} {v : Number} :
    Reads (number s) v rest ↔
      ∃ x, Reads (numeral .unfinishedValue s) x rest ∧ x.value rest = .ok v := by
  constructor
  · intro h
    rw [number] at h
    obtain ⟨x, hx, h⟩ := h.of_bind
    cases hv : x.value.value x.rest with
    | error f =>
      rw [hv] at h
      exact absurd h not_reads_error
    | ok u =>
      rw [hv] at h
      obtain ⟨rfl, rfl⟩ := reads_ok_iff.1 h
      exact ⟨x.value, hx, hv⟩
  · rintro ⟨x, hx, hv⟩
    refine hx.bind fun hlt => ?_
    dsimp only
    rw [hv]
    exact .intro hlt

/-- From this first byte on this scalar is read. -/
inductive ScalarRead : UInt8 → Bytes → Scalar → Bytes → Prop where
  | null (rest : Bytes) : ScalarRead 0x6E (nullTail ++ rest) .null rest
  | true (rest : Bytes) : ScalarRead 0x74 (trueTail ++ rest) (.boolean true) rest
  | false (rest : Bytes) : ScalarRead 0x66 (falseTail ++ rest) (.boolean false) rest
  | text {s rest : Bytes} {t : String} (h : Reads (textBody s) t rest) :
      ScalarRead quote s (.text t) rest
  | number {b : UInt8} {s rest : Bytes} {x : Number} (hb : b = minus ∨ isDigit b = true)
      (h : Reads (number (b :: s)) x rest) : ScalarRead b s (.number x) rest

theorem reads_ofWord_iff {x y : Scalar} {w s : Bytes} {h : s.length < n} {rest : Bytes} :
    Reads (Scalar.ofWord x w s h) y rest ↔ s = w ++ rest ∧ x = y := by
  rw [Scalar.ofWord, reads_map_iff]
  constructor
  · rintro ⟨_, rfl, h⟩
    exact ⟨reads_word_iff.1 h, rfl⟩
  · rintro ⟨h, rfl⟩
    exact ⟨(), rfl, reads_word_iff.2 h⟩

theorem ScalarRead.of_scalar? {b : UInt8} {s rest : Bytes} {x : Scalar}
    {reading : Reading Scalar (s.length + 1)} (hsome : scalar? b s = some reading)
    (h : Reads reading x rest) : ScalarRead b s x rest := by
  unfold scalar? at hsome
  dsimp only at hsome
  -- The first bytes in the order in which they are tried.
  split at hsome
  · next hb =>
    cases hsome
    obtain ⟨rfl, rfl⟩ := reads_ofWord_iff.1 h
    exact hb ▸ .null rest
  split at hsome
  · next hb =>
    cases hsome
    obtain ⟨rfl, rfl⟩ := reads_ofWord_iff.1 h
    exact hb ▸ .true rest
  split at hsome
  · next hb =>
    cases hsome
    obtain ⟨rfl, rfl⟩ := reads_ofWord_iff.1 h
    exact hb ▸ .false rest
  split at hsome
  · next hb =>
    cases hsome
    obtain ⟨t, rfl, hread⟩ := (reads_map_within_iff _).1 h
    exact hb ▸ .text hread
  split at hsome
  · next hb =>
    cases hsome
    obtain ⟨y, rfl, hread⟩ := reads_map_iff.1 h
    exact .number hb hread
  · cases hsome

/-- A numeral begins with no other byte. -/
theorem ne_of_leads {b c : UInt8} (hb : b = minus ∨ isDigit b = true) (hc : c ≠ minus)
    (hd : isDigit c = false) : b ≠ c := by
  rcases hb with rfl | hb
  · exact hc.symm
  · exact ne_of_isDigit hb hd

theorem ScalarRead.scalar? {b : UInt8} {s rest : Bytes} {x : Scalar} (h : ScalarRead b s x rest) :
    ∃ reading, Json.scalar? b s = some reading ∧ Reads reading x rest := by
  cases h with
  | null => exact ⟨_, rfl, reads_ofWord_iff.2 ⟨rfl, rfl⟩⟩
  | true => exact ⟨_, rfl, reads_ofWord_iff.2 ⟨rfl, rfl⟩⟩
  | false => exact ⟨_, rfl, reads_ofWord_iff.2 ⟨rfl, rfl⟩⟩
  | text h => exact ⟨_, rfl, (reads_map_within_iff _).2 ⟨_, rfl, h⟩⟩
  | number hb h =>
    refine ⟨_, ?_, reads_map_iff.2 ⟨_, rfl, h⟩⟩
    unfold Json.scalar?
    dsimp only
    rw [if_neg (ne_of_leads hb (by decide) rfl), if_neg (ne_of_leads hb (by decide) rfl),
      if_neg (ne_of_leads hb (by decide) rfl), if_neg (ne_of_leads hb (by decide) rfl), if_pos hb]

/-- An integer within the bounds is read where its numeral stands. -/
theorem reads_integer_iff {low high z : Int} {expected : String} {s rest : Bytes} :
    Reads (integer low high expected s) z rest ↔
      (low ≤ z ∧ z ≤ high) ∧ ∃ b r, skipBlanks s = b :: r ∧
        ScalarRead b r (.number (.integer z)) rest := by
  constructor
  · intro h
    rw [integer] at h
    obtain ⟨b, r, hr, hs, h⟩ := h.of_first
    split at h
    next hb =>
      obtain ⟨x, hx, h⟩ := h.of_bind
      split at h
      next w hw =>
        split at h
        next hbounds =>
          obtain ⟨rfl, rfl⟩ := reads_ok_iff.1 h
          rw [hw] at hx
          exact ⟨hbounds, b, r, hs, .number hb hx⟩
        next => exact absurd h not_reads_error
      next => exact absurd h not_reads_error
    next => exact absurd h not_reads_error
  · rintro ⟨hbounds, b, r, hs, hscalar⟩
    cases hscalar with
    | number hb hx =>
      rw [integer]
      refine .first hs fun _ => ?_
      rw [if_pos hb]
      refine hx.bind fun _ => ?_
      dsimp only
      rw [if_pos hbounds]
      exact .intro _

/-! ## Lists -/

/-- Behind an element these others are read, up to the closing bracket. -/
inductive Elements (item : Reader α) : Bytes → List α → Bytes → Prop where
  | done {s rest : Bytes} (hs : skipBlanks s = closeList :: rest) : Elements item s [] rest
  | next {s r u t rest : Bytes} {b : UInt8} {x : α} {xs : List α} (hs : skipBlanks s = comma :: r)
      (hr : skipBlanks r = b :: u) (hb : b ≠ closeList) (hx : Reads (item r) x t)
      (others : Elements item t xs rest) : Elements item s (x :: xs) rest

variable {item : Reader α}

theorem exists_elements (found : List α) (s : Bytes) (hn : s.length ≤ n)
    {ys : List α} {rest : Bytes} (h : Reads (listOnto item found s hn) ys rest) :
    ∃ xs, ys = found.reverse ++ xs ∧ Elements item s xs rest := by
  rw [listOnto] at h
  obtain ⟨b, r, hr, hs, h⟩ := h.of_first
  split at h
  · next hb =>
    subst hb
    obtain ⟨rfl, rfl⟩ := reads_ok_iff.1 h
    exact ⟨[], by rw [List.append_nil], .done hs⟩
  split at h
  · next hb =>
    subst hb
    obtain ⟨c, u, -, hr, h⟩ := h.of_first
    split at h
    · exact absurd h not_reads_error
    · next hc =>
      obtain ⟨x, hx, h⟩ := h.of_bind
      have := x.shorter
      obtain ⟨xs, hys, hxs⟩ := exists_elements (x.value :: found) x.rest _ h
      refine ⟨x.value :: xs, ?_, .next hs hr hc hx hxs⟩
      rw [hys, List.reverse_cons, List.append_assoc, List.singleton_append]
  · exact absurd h not_reads_error
  termination_by s.length

theorem Elements.reads {s rest : Bytes} {xs : List α}
    (hxs : Elements item s xs rest) (found : List α)
    (hn : s.length ≤ n) : Reads (listOnto item found s hn) (found.reverse ++ xs) rest := by
  induction hxs generalizing found n with
  | done hs =>
    rw [listOnto, List.append_nil]
    refine .first hs fun _ => ?_
    rw [if_pos rfl]
    exact .intro _
  | @next s r u t rest b x xs hs hr hb hx others ih =>
    rw [listOnto]
    refine .first hs fun _ => ?_
    rw [if_neg (by decide), if_pos rfl]
    refine .first hr fun _ => ?_
    rw [if_neg hb]
    have hfound : found.reverse ++ x :: xs = (x :: found).reverse ++ xs := by
      rw [List.reverse_cons, List.append_assoc, List.singleton_append]
    rw [hfound]
    exact hx.bind fun _ => ih (x :: found) _

/-- A list is empty, or it has a first element and others behind it. -/
theorem reads_list_iff {s rest : Bytes} {xs : List α} :
    Reads (list item s) xs rest ↔
      (skipBlanks s = closeList :: rest ∧ xs = []) ∨
      (∃ b r x t ys, skipBlanks s = b :: r ∧ b ≠ closeList ∧ Reads (item s) x t ∧
        Elements item t ys rest ∧ xs = x :: ys) := by
  constructor
  · intro h
    rw [list] at h
    obtain ⟨b, r, hr, hs, h⟩ := h.of_first
    split at h
    · next hb =>
      subst hb
      obtain ⟨rfl, rfl⟩ := reads_ok_iff.1 h
      exact .inl ⟨hs, rfl⟩
    · next hb =>
      obtain ⟨x, hx, h⟩ := h.of_bind
      obtain ⟨ys, hxs, hys⟩ := exists_elements [x.value] x.rest _ h
      exact .inr ⟨b, r, x.value, x.rest, ys, hs, hb, hx, hys, hxs⟩
  · rintro (⟨hs, rfl⟩ | ⟨b, r, x, t, ys, hs, hb, hx, hys, rfl⟩)
    · rw [list]
      refine .first hs fun _ => ?_
      rw [if_pos rfl]
      exact .intro _
    · rw [list]
      refine .first hs fun _ => ?_
      rw [if_neg hb]
      exact hx.bind fun _ => hys.reads [x] _

/-! ## Objects -/

theorem reads_colonSign_iff {s rest : Bytes} :
    Reads (colonSign s) () rest ↔ skipBlanks s = colon :: rest := by
  constructor
  · intro h
    rw [colonSign] at h
    obtain ⟨b, r, hr, hs, h⟩ := h.of_first
    split at h
    · next hb =>
      subst hb
      obtain ⟨-, rfl⟩ := reads_ok_iff.1 h
      exact hs
    · exact absurd h not_reads_error
  · intro hs
    rw [colonSign]
    refine .first hs fun _ => ?_
    rw [if_pos rfl]
    exact .intro _

theorem reads_afterColon_iff {value : Reader α} {s rest : Bytes} {a : α} :
    Reads (afterColon value s) a rest ↔
      ∃ r, skipBlanks s = colon :: r ∧ Reads (value r) a rest := by
  constructor
  · intro h
    rw [afterColon] at h
    obtain ⟨c, hc, h⟩ := h.of_bind
    obtain ⟨v, hv, h⟩ := h.of_bind
    obtain ⟨rfl, rfl⟩ := reads_ok_iff.1 h
    exact ⟨c.rest, reads_colonSign_iff.1 hc, hv⟩
  · rintro ⟨r, hs, h⟩
    refine (reads_colonSign_iff.2 hs).bind fun hs => h.bind fun hrest => ?_
    exact ⟨_, rfl⟩

theorem reads_afterColon_at_iff {value : Reader α} {s r rest : Bytes} {a : α}
    (hs : skipBlanks s = colon :: r) :
    Reads (afterColon value s) a rest ↔ Reads (value r) a rest := by
  rw [reads_afterColon_iff]
  constructor
  · rintro ⟨r', hs', h⟩
    obtain rfl := (List.cons.inj (hs.symm.trans hs')).2
    exact h
  · exact fun h => ⟨r, hs, h⟩

theorem reads_keyed_iff {member : σ → String → Reader σ} {state next : σ} {s rest : Bytes} :
    Reads (keyed member state s) next rest ↔
      ∃ key r, Reads (textBody s) key r ∧ Reads (member state key r) next rest := by
  constructor
  · intro h
    rw [keyed] at h
    obtain ⟨key, hkey, h⟩ := h.of_bind
    obtain ⟨x, hx, h⟩ := h.of_bind
    obtain ⟨rfl, rfl⟩ := reads_ok_iff.1 h
    exact ⟨key.value, key.rest, hkey, hx⟩
  · rintro ⟨key, r, hkey, hx⟩
    refine hkey.bind fun _ => hx.bind fun _ => ?_
    exact ⟨_, rfl⟩

/-- Behind a member others lead from one state to another, up to the closing brace. -/
inductive Entries (member : σ → String → Reader σ) : σ → Bytes → σ → Bytes → Prop where
  | done {state : σ} {s rest : Bytes} (hs : skipBlanks s = closeObject :: rest) :
      Entries member state s state rest
  | next {state next last : σ} {s r u t rest : Bytes} (hs : skipBlanks s = comma :: r)
      (hr : skipBlanks r = quote :: u) (hx : Reads (keyed member state u) next t)
      (others : Entries member next t last rest) : Entries member state s last rest

variable {member : σ → String → Reader σ}

theorem entries_of_reads (state : σ) (s : Bytes) (hn : s.length ≤ n) {last : σ} {rest : Bytes}
    (h : Reads (objectOnto member state s hn) last rest) : Entries member state s last rest := by
  rw [objectOnto] at h
  obtain ⟨b, r, hr, hs, h⟩ := h.of_first
  split at h
  · next hb =>
    subst hb
    obtain ⟨rfl, rfl⟩ := reads_ok_iff.1 h
    exact .done hs
  split at h
  · next hb =>
    subst hb
    obtain ⟨c, u, hu, hr, h⟩ := h.of_first
    split at h
    · next hc =>
      subst hc
      obtain ⟨x, hx, h⟩ := h.of_bind
      have := x.shorter
      exact .next hs hr hx (entries_of_reads x.value x.rest _ h)
    split at h
    · exact absurd h not_reads_error
    · exact absurd h not_reads_error
  · exact absurd h not_reads_error
  termination_by s.length

theorem Entries.reads {state last : σ} {s rest : Bytes} (h : Entries member state s last rest)
    (hn : s.length ≤ n) : Reads (objectOnto member state s hn) last rest := by
  induction h generalizing n with
  | done hs =>
    rw [objectOnto]
    refine .first hs fun _ => ?_
    rw [if_pos rfl]
    exact .intro _
  | next hs hr hx others ih =>
    rw [objectOnto]
    refine .first hs fun _ => ?_
    rw [if_neg (by decide), if_pos rfl]
    refine .first hr fun _ => ?_
    rw [if_pos rfl]
    exact hx.bind fun _ => ih _

/-- An object is empty, or it has a first member and others behind it. -/
theorem reads_object_iff {state last : σ} {s rest : Bytes} :
    Reads (object member state s) last rest ↔
      (skipBlanks s = closeObject :: rest ∧ last = state) ∨
      (∃ r next t, skipBlanks s = quote :: r ∧ Reads (keyed member state r) next t ∧
        Entries member next t last rest) := by
  constructor
  · intro h
    rw [object] at h
    obtain ⟨b, r, hr, hs, h⟩ := h.of_first
    split at h
    · next hb =>
      subst hb
      obtain ⟨rfl, rfl⟩ := reads_ok_iff.1 h
      exact .inl ⟨hs, rfl⟩
    split at h
    · next hb =>
      subst hb
      obtain ⟨x, hx, h⟩ := h.of_bind
      exact .inr ⟨r, x.value, x.rest, hs, hx, entries_of_reads _ _ _ h⟩
    · exact absurd h not_reads_error
  · rintro (⟨hs, rfl⟩ | ⟨r, next, t, hs, hx, h⟩)
    · rw [object]
      refine .first hs fun _ => ?_
      rw [if_pos rfl]
      exact .intro _
    · rw [object]
      refine .first hs fun _ => ?_
      rw [if_neg (by decide), if_pos rfl]
      exact hx.bind fun _ => h.reads _

/-! ## Values -/

/-- A value is read: a scalar, or a list or an object where these may be. -/
inductive LayerRead (item : Option (Reader Value)) : Bytes → Value → Bytes → Prop where
  | scalar {s r rest : Bytes} {b : UInt8} {x : Scalar} (hs : skipBlanks s = b :: r)
      (h : ScalarRead b r x rest) : LayerRead item s x.toValue rest
  | list {s r rest : Bytes} {inner : Reader Value} {xs : List Value}
      (hs : skipBlanks s = openList :: r)
      (hitem : item = some inner) (h : Reads (Json.list inner r) xs rest) :
      LayerRead item s (.list xs) rest
  | object {s r rest : Bytes} {inner : Reader Value} {ms : Named Value}
      (hs : skipBlanks s = openObject :: r) (hitem : item = some inner)
      (h : Reads (members inner r) ms rest) : LayerRead item s (.object ms) rest

theorem reads_layer_iff {item : Option (Reader Value)} {s rest : Bytes} {v : Value} :
    Reads (layer item s) v rest ↔ LayerRead item s v rest := by
  constructor
  · intro h
    rw [layer] at h
    obtain ⟨b, r, hr, hs, h⟩ := h.of_first
    split at h
    · next reading hscalar =>
      obtain ⟨x, rfl, hx⟩ := (reads_map_within_iff _).1 h
      exact .scalar hs (.of_scalar? hscalar hx)
    · next hscalar =>
      split at h
      · next hb =>
        split at h
        · exact absurd h not_reads_error
        · next inner =>
          split at h
          · next hb =>
            obtain ⟨xs, rfl, hxs⟩ := (reads_map_within_iff _).1 h
            exact .list (hb ▸ hs) rfl hxs
          · next hne =>
            obtain ⟨ms, rfl, hms⟩ := (reads_map_within_iff _).1 h
            exact .object (hb.resolve_left hne ▸ hs) rfl hms
      · exact absurd h not_reads_error
  · intro h
    rw [layer]
    cases h with
    | scalar hs hx =>
      refine .first hs fun _ => ?_
      obtain ⟨reading, hscalar, hread⟩ := hx.scalar?
      rw [hscalar]
      exact (reads_map_within_iff _).2 ⟨_, rfl, hread⟩
    | list hs hitem hxs =>
      subst hitem
      exact .first hs fun _ => (reads_map_within_iff _).2 ⟨_, rfl, hxs⟩
    | object hs hitem hms =>
      subst hitem
      exact .first hs fun _ => (reads_map_within_iff _).2 ⟨_, rfl, hms⟩

/-! ## Documents -/

/-- A document is a value with nothing but blanks behind it. -/
theorem document_iff {reader : Reader α} {s : Bytes} {a : α} :
    document reader s = .ok a ↔ ∃ rest, Reads (reader s) a rest ∧ skipBlanks rest = [] := by
  constructor
  · intro h
    rw [document] at h
    cases hread : reader s with
    | error e =>
      rw [hread] at h
      cases h
    | ok x =>
      rw [hread] at h
      dsimp only [bind, Except.bind] at h
      cases hrest : skipBlanks x.rest with
      | nil =>
        rw [hrest] at h
        cases h
        exact ⟨x.rest, reads_ok_iff.2 ⟨rfl, rfl⟩, hrest⟩
      | cons b r =>
        rw [hrest] at h
        cases h
  · rintro ⟨rest, ⟨hs, hread⟩, hrest⟩
    rw [document, hread]
    dsimp only [bind, Except.bind]
    rw [hrest]
    rfl

end Switchboard.Json
