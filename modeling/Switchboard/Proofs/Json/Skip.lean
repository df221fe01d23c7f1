/-
  Texts of values are passed over.

  Passing over a value asks less than reading it: the depth is not counted, a number may be too
  large, and a string may hold lone surrogates and broken characters.

  1. **Strings and scalars** — `TextPassed` and `ScalarPassed` say what is passed over.  The halves
     of a surrogate pair are passed over one by one, and a character of several bytes byte by byte.

  2. **The machine** — `Passage place outer s rest`: from a place, with the brackets `outer` open,
     it comes through `s` to `rest`, one constructor for each step it takes (`reads_skip_iff`).

  3. **Values** — the machine comes through the text of any value, whatever its depth, by induction
     on the depth and over the elements and members (`Written.skips`).  So whatever is read is
     passed over (`reads_skip`).
-/
import Switchboard.Json.Skip
import Switchboard.Proofs.Json.Extension

namespace Switchboard.Json

variable {n : Nat}

/-! ## Strings -/

/-- A string is passed over from behind its opening quote. -/
inductive TextPassed : Bytes → Bytes → Prop where
  | done (rest : Bytes) : TextPassed (quote :: rest) rest
  | short {b : UInt8} {c : Char} {s rest : Bytes} (h : shortEscape? b = some c)
      (others : TextPassed s rest) :
      TextPassed (backslash :: b :: s) rest
  | numbered {w x y z : UInt8} {k : Nat} {s rest : Bytes} (h : fourHex? w x y z = some k)
      (others : TextPassed s rest) : TextPassed (backslash :: 0x75 :: w :: x :: y :: z :: s) rest
  | plain {b : UInt8} {s rest : Bytes} (hquote : b ≠ quote) (hbackslash : b ≠ backslash)
      (hcontrol : ¬b < 0x20)
      (others : TextPassed s rest) : TextPassed (b :: s) rest

theorem reads_skipEscape_iff {s t : Bytes} : Reads (skipEscape s) () t ↔
    (∃ b c, shortEscape? b = some c ∧ s = b :: t) ∨
    (∃ w x y z k, fourHex? w x y z = some k ∧ s = 0x75 :: w :: x :: y :: z :: t) := by
  have hnone : shortEscape? 0x75 = none := by decide
  constructor
  · intro h
    cases s with
    | nil => exact absurd h not_reads_error
    | cons b s =>
      rw [skipEscape] at h
      split at h
      next c hc =>
        obtain ⟨-, rfl⟩ := reads_ok_iff.1 h
        exact .inl ⟨b, c, hc, rfl⟩
      next =>
      split at h
      next hb =>
        cases hread : numberedEscape s with
        | error f =>
          rw [hread] at h
          exact absurd h not_reads_error
        | ok k =>
          rw [hread] at h
          obtain ⟨-, rfl⟩ := reads_ok_iff.1 h
          obtain ⟨w, x, y, z, hk, hs⟩ := reads_numberedEscape_iff.1 ⟨k.shorter, hread⟩
          exact .inr ⟨w, x, y, z, k.value, hk, by rw [hb]; exact congrArg (0x75 :: ·) hs⟩
      next => exact absurd h not_reads_error
  · rintro (⟨b, c, hc, rfl⟩ | ⟨w, x, y, z, k, hk, rfl⟩)
    · rw [skipEscape, hc]
      exact .intro _
    · obtain ⟨hs, hread⟩ := reads_numberedEscape_iff.2 ⟨w, x, y, z, hk, rfl⟩
      rw [skipEscape, hnone]
      dsimp only
      rw [if_pos rfl, hread]
      exact .intro _

theorem textPassed_of_reads (s : Bytes) (hn : s.length ≤ n) {rest : Bytes}
    (h : Reads (skipTextWithin s hn) () rest) : TextPassed s rest := by
  match s with
  | [] =>
    rw [skipTextWithin] at h
    exact absurd h not_reads_error
  | b :: s =>
    rw [skipTextWithin] at h
    split at h
    next hquote =>
      obtain ⟨-, rfl⟩ := reads_ok_iff.1 h
      exact hquote ▸ .done s
    next hquote =>
    split at h
    next hbackslash =>
      obtain ⟨e, he, h⟩ := h.of_bind
      have := e.shorter
      have others := textPassed_of_reads e.rest _ h
      rw [hbackslash]
      rcases reads_skipEscape_iff.1 he with ⟨c, d, hc, hs⟩ | ⟨w, x, y, z, k, hk, hs⟩
      · exact congrArg (backslash :: ·) hs ▸ .short hc others
      · exact congrArg (backslash :: ·) hs ▸ .numbered hk others
    next hbackslash =>
    split at h
    · exact absurd h not_reads_error
    next hcontrol => exact .plain hquote hbackslash hcontrol (textPassed_of_reads s _ h)
  termination_by s.length
  decreasing_by all_goals
    simp only [List.length_cons]
    omega

theorem TextPassed.reads {s rest : Bytes} (h : TextPassed s rest) (hn : s.length ≤ n) :
    Reads (skipTextWithin s hn) () rest := by
  induction h generalizing n with
  | done rest =>
    rw [skipTextWithin, if_pos rfl]
    exact .intro _
  | short h others ih =>
    rw [skipTextWithin, if_neg (by decide), if_pos rfl]
    exact (reads_skipEscape_iff.2 (.inl ⟨_, _, h, rfl⟩)).bind fun _ => ih _
  | numbered h others ih =>
    rw [skipTextWithin, if_neg (by decide), if_pos rfl]
    exact (reads_skipEscape_iff.2 (.inr ⟨_, _, _, _, _, h, rfl⟩)).bind fun _ => ih _
  | plain hquote hbackslash hcontrol others ih =>
    rw [skipTextWithin, if_neg hquote, if_neg hbackslash, if_neg hcontrol]
    exact ih _

theorem reads_skipText_iff {s rest : Bytes} : Reads (skipText s) () rest ↔ TextPassed s rest :=
  ⟨textPassed_of_reads s _, fun h => h.reads _⟩

theorem TextPassed.append {s rest : Bytes} (h : TextPassed s rest) (more : Bytes) :
    TextPassed (s ++ more) (rest ++ more) := by
  induction h with
  | done rest => exact .done _
  | short h others ih => exact .short h ih
  | numbered h others ih => exact .numbered h ih
  | plain hquote hbackslash hcontrol others ih => exact .plain hquote hbackslash hcontrol ih

/-- Bytes above ASCII are passed over. -/
theorem TextPassed.above {bytes t rest : Bytes} (h : ∀ b ∈ bytes, 0x80 ≤ b.toNat)
    (ht : TextPassed t rest) :
    TextPassed (bytes ++ t) rest := by
  induction bytes with
  | nil => exact ht
  | cons b bytes ih =>
    obtain ⟨hb, hbytes⟩ := List.forall_mem_cons.1 h
    refine .plain ?_ ?_ (Utf8.not_lt_of_toNat_le (Nat.le_trans (by decide) hb)) (ih hbytes)
    · rintro rfl
      exact absurd hb (by decide)
    · rintro rfl
      exact absurd hb (by decide)

/-- The text of a character is passed over. -/
theorem CharacterText.passed {c : Char} {text t rest : Bytes} (h : CharacterText c text)
    (ht : TextPassed t rest) :
    TextPassed (text ++ t) rest := by
  cases h with
  | plain hquote hbackslash hcontrol =>
    obtain ⟨b, u, hbu, hfirst⟩ := Utf8.first_byte c
    rcases hfirst with ⟨-, -, rfl⟩ | ⟨habove, -⟩
    · obtain ⟨hquote, hbackslash, hcontrol⟩ :=
        (first_byte_free_iff hbu).2 ⟨hquote, hbackslash, hcontrol⟩
      rw [hbu]
      exact .plain hquote hbackslash hcontrol ht
    · exact .above (Utf8.le_of_mem_utf8EncodeChar habove) ht
  | escaped he =>
    cases he with
    | short h => exact .short h ht
    | numbered h => exact .numbered h ht
    | pair h _ h' _ => exact .numbered h (.numbered h' ht)

/-- A string is passed over up to its closing quote. -/
theorem CharactersText.passed {cs : List Char} {s rest : Bytes} (h : CharactersText cs s rest) :
    TextPassed s rest := by
  induction h with
  | done rest => exact .done rest
  | next hc others ih => exact hc.passed ih

/-! ## Scalars -/

/-- The scalar that begins with this byte is passed over. -/
inductive ScalarPassed : UInt8 → Bytes → Bytes → Prop where
  | null (rest : Bytes) : ScalarPassed 0x6E (nullTail ++ rest) rest
  | true (rest : Bytes) : ScalarPassed 0x74 (trueTail ++ rest) rest
  | false (rest : Bytes) : ScalarPassed 0x66 (falseTail ++ rest) rest
  | text {s rest : Bytes} (h : TextPassed s rest) : ScalarPassed quote s rest
  | number {b : UInt8} {x : Numeral} {s text rest : Bytes} (h : NumeralText x text)
      (hs : b :: s = text ++ rest)
      (hend : x.EndsBefore rest) : ScalarPassed b s rest

theorem reads_skipNumber_iff {s rest : Bytes} :
    Reads (skipNumber s) () rest ↔
      ∃ x text, NumeralText x text ∧ s = text ++ rest ∧ x.EndsBefore rest := by
  constructor
  · intro h
    obtain ⟨x, -, hx⟩ := reads_map_iff.1 h
    exact ⟨x, reads_numeral_iff.1 hx⟩
  · rintro ⟨x, h⟩
    exact (reads_numeral_iff.2 h).map fun _ => ()

theorem skipScalar?_iff {b : UInt8} {s rest : Bytes} :
    (∃ reading, skipScalar? b s = some reading ∧ Reads reading () rest) ↔
      ScalarPassed b s rest := by
  constructor
  · rintro ⟨reading, hsome, h⟩
    unfold skipScalar? at hsome
    dsimp only at hsome
    -- The first bytes in the order in which they are tried.
    split at hsome
    next hb =>
      cases hsome
      obtain rfl := reads_word_iff.1 h
      exact hb ▸ .null rest
    split at hsome
    next hb =>
      cases hsome
      obtain rfl := reads_word_iff.1 h
      exact hb ▸ .true rest
    split at hsome
    next hb =>
      cases hsome
      obtain rfl := reads_word_iff.1 h
      exact hb ▸ .false rest
    split at hsome
    next hb =>
      cases hsome
      exact hb ▸ .text (reads_skipText_iff.1 ((reads_within_iff _).1 h))
    split at hsome
    next =>
      cases hsome
      obtain ⟨x, text, htext, hs, hend⟩ := reads_skipNumber_iff.1 h
      exact .number htext hs hend
    · cases hsome
  · intro h
    cases h with
    | null => exact ⟨_, rfl, reads_word_iff.2 rfl⟩
    | true => exact ⟨_, rfl, reads_word_iff.2 rfl⟩
    | false => exact ⟨_, rfl, reads_word_iff.2 rfl⟩
    | text h => exact ⟨_, rfl, (reads_skipText_iff.2 h).within _⟩
    | @number _ x _ text _ htext hs hend =>
      have hread := reads_skipNumber_iff.2 ⟨x, text, htext, hs, hend⟩
      obtain ⟨c, t, rfl, hb⟩ := htext.leads
      obtain ⟨rfl, -⟩ := List.cons.inj hs
      refine ⟨_, ?_, hread⟩
      unfold skipScalar?
      dsimp only
      rw [if_neg (ne_of_leads hb (by decide) rfl), if_neg (ne_of_leads hb (by decide) rfl),
        if_neg (ne_of_leads hb (by decide) rfl), if_neg (ne_of_leads hb (by decide) rfl), if_pos hb]

theorem ScalarPassed.append {b : UInt8} {s rest more : Bytes} (h : ScalarPassed b s rest)
    (hmore : rest = [] → EndsNumeral more) : ScalarPassed b (s ++ more) (rest ++ more) := by
  cases h with
  | null => exact .null _
  | true => exact .true _
  | false => exact .false _
  | text h => exact .text (h.append more)
  | number h hs hend =>
    refine .number h ?_ (hend.append hmore)
    rw [← List.cons_append, hs, List.append_assoc]

/-- A key and its colon are passed over. -/
theorem reads_skipKey_iff {s rest : Bytes} :
    Reads (skipKey s) () rest ↔ ∃ t, TextPassed s t ∧ skipBlanks t = colon :: rest := by
  constructor
  · intro h
    rw [skipKey] at h
    obtain ⟨k, hk, h⟩ := h.of_bind
    obtain ⟨c, hc, h⟩ := h.of_bind
    obtain ⟨-, rfl⟩ := reads_ok_iff.1 h
    exact ⟨k.rest, reads_skipText_iff.1 hk, reads_colonSign_iff.1 hc⟩
  · rintro ⟨t, ht, hs⟩
    rw [skipKey]
    refine (reads_skipText_iff.2 ht).bind fun _ => (reads_colonSign_iff.2 hs).bind fun _ => ?_
    exact ⟨_, rfl⟩

/-! ## The machine -/

/-- The machine comes through `s` to `rest`, from a place on, or from behind a complete value;
    `outer` are the brackets that are open. -/
inductive Passage : Option Place → List Bracket → Bytes → Bytes → Prop where
  | done (s : Bytes) : Passage none [] s s
  | resume {bracket : Bracket} {outer : List Bracket} {s rest : Bytes}
      (h : Passage (some (.after bracket)) outer s rest) : Passage none (bracket :: outer) s rest
  | scalar {outer : List Bracket} {b : UInt8} {s r t rest : Bytes} (hs : skipBlanks s = b :: r)
      (hscalar : ScalarPassed b r t) (h : Passage none outer t rest) :
      Passage (some .value) outer s rest
  | opening {bracket : Bracket} {outer : List Bracket} {b : UInt8} {s r rest : Bytes}
      (hs : skipBlanks s = b :: r)
      (hb : Bracket.ofByte? b = some bracket) (h : Passage (some (.opened bracket)) outer r rest) :
      Passage (some .value) outer s rest
  | empty {bracket : Bracket} {outer : List Bracket} {s r rest : Bytes}
      (hs : skipBlanks s = bracket.close :: r)
      (h : Passage none outer r rest) : Passage (some (.opened bracket)) outer s rest
  | inside {bracket : Bracket} {outer : List Bracket} {b : UInt8} {s r rest : Bytes}
      (hs : skipBlanks s = b :: r)
      (hb : b ≠ bracket.close) (h : Passage (some bracket.inside) (bracket :: outer) s rest) :
      Passage (some (.opened bracket)) outer s rest
  | comma {bracket : Bracket} {outer : List Bracket} {s r rest : Bytes}
      (hs : skipBlanks s = Json.comma :: r)
      (h : Passage (some bracket.inside) (bracket :: outer) r rest) :
      Passage (some (.after bracket)) outer s rest
  | close {bracket : Bracket} {outer : List Bracket} {s r rest : Bytes}
      (hs : skipBlanks s = bracket.close :: r)
      (h : Passage none outer r rest) : Passage (some (.after bracket)) outer s rest
  | key {outer : List Bracket} {s r t u rest : Bytes} (hs : skipBlanks s = quote :: r)
      (hkey : TextPassed r t)
      (ht : skipBlanks t = colon :: u) (h : Passage (some .value) outer u rest) :
      Passage (some .key) outer s rest

/-- What is left to do behind a complete value. -/
theorem Passage.of_completed {outer : List Bracket} {s rest : Bytes} {hs : s.length < n}
    {go : Bracket → List Bracket → Reading Unit n} (h : Reads (completed outer s hs go) () rest)
    (hgo : ∀ bracket outer', outer = bracket :: outer' → Reads (go bracket outer') () rest →
      Passage (some (.after bracket)) outer' s rest) : Passage none outer s rest := by
  cases outer with
  | nil =>
    obtain ⟨-, rfl⟩ := reads_ok_iff.1 h
    exact .done s
  | cons bracket outer => exact .resume (hgo bracket outer rfl h)

theorem passage_of_reads (place : Place) (outer : List Bracket) (s : Bytes)
    (hn : s.length ≤ n) {rest : Bytes}
    (h : Reads (skipFrom place outer s hn) () rest) : Passage (some place) outer s rest := by
  match place with
  | .value =>
    rw [skipFrom] at h
    obtain ⟨b, r, hr, hs, h⟩ := h.of_first
    split at h
    next reading hscalar =>
      obtain ⟨x, hx, h⟩ := h.of_bind
      have := x.shorter
      exact .scalar hs (skipScalar?_iff.1 ⟨reading, hscalar, hx⟩)
        (.of_completed h fun bracket outer' _ h => passage_of_reads _ outer' x.rest _ h)
    next hscalar =>
      split at h
      next bracket hb => exact .opening hs hb (passage_of_reads _ outer r _ h)
      next => exact absurd h not_reads_error
  | .opened bracket =>
    rw [skipFrom] at h
    obtain ⟨b, r, hr, hs, h⟩ := h.of_first
    split at h
    next hb =>
      subst hb
      exact .empty hs (.of_completed h fun bracket' outer' _ h => passage_of_reads _ outer' r _ h)
    next hb => exact .inside hs hb (passage_of_reads _ (bracket :: outer) s hn h)
  | .after bracket =>
    rw [skipFrom] at h
    obtain ⟨b, r, hr, hs, h⟩ := h.of_first
    split at h
    next hb =>
      subst hb
      exact .comma hs (passage_of_reads _ (bracket :: outer) r _ h)
    split at h
    next hb =>
      subst hb
      exact .close hs (.of_completed h fun bracket' outer' _ h => passage_of_reads _ outer' r _ h)
    next => exact absurd h not_reads_error
  | .key =>
    rw [skipFrom] at h
    obtain ⟨b, r, hr, hs, h⟩ := h.of_first
    split at h
    next hb =>
      subst hb
      obtain ⟨k, hk, h⟩ := h.of_bind
      have := k.shorter
      obtain ⟨t, hkey, ht⟩ := reads_skipKey_iff.1 hk
      exact .key hs hkey ht (passage_of_reads _ outer k.rest _ h)
    next => exact absurd h not_reads_error
  termination_by (s.length, place.weight)
  decreasing_by all_goals
    first
    | exact Prod.Lex.left _ _ (by omega)
    | exact Prod.Lex.right _ (bracket.weight_inside ▸ Nat.one_pos)

/-- So the machine runs from there on. -/
def Passage.Runs (place : Option Place) (outer : List Bracket) (s rest : Bytes) : Prop :=
  ∀ {n : Nat} (hn : s.length ≤ n),
    match place with
    | some place => Reads (skipFrom place outer s hn) () rest
    | none => ∀ hs : s.length < n,
      Reads (completed outer s hs fun bracket outer => skipFrom (.after bracket) outer s hn) () rest

theorem Passage.reads {place : Option Place} {outer : List Bracket} {s rest : Bytes}
    (h : Passage place outer s rest) : Passage.Runs place outer s rest := by
  induction h with
  | done s =>
    intro n hn hs
    exact .intro hs
  | resume h ih =>
    intro n hn hs
    exact ih hn
  | scalar hs hscalar h ih =>
    intro n hn
    obtain ⟨reading, hscalar, hread⟩ := skipScalar?_iff.2 hscalar
    show Reads (skipFrom _ _ _ _) _ _
    rw [skipFrom]
    refine .first hs fun _ => ?_
    rw [hscalar]
    exact hread.bind fun _ => ih _ _
  | @opening bracket outer b s r rest hs hb h ih =>
    intro n hn
    have hscalar : skipScalar? b r = none := by
      unfold Bracket.ofByte? at hb
      split at hb
      · next hlist => rw [hlist]; rfl
      split at hb
      · next hobject => rw [hobject]; rfl
      · cases hb
    show Reads (skipFrom _ _ _ _) _ _
    rw [skipFrom]
    refine .first hs fun _ => ?_
    rw [hscalar, hb]
    exact ih _
  | empty hs h ih =>
    intro n hn
    show Reads (skipFrom _ _ _ _) _ _
    rw [skipFrom]
    refine .first hs fun _ => ?_
    rw [if_pos rfl]
    exact ih _ _
  | inside hs hb h ih =>
    intro n hn
    show Reads (skipFrom _ _ _ _) _ _
    rw [skipFrom]
    refine .first hs fun _ => ?_
    rw [if_neg hb]
    exact ih _
  | comma hs h ih =>
    intro n hn
    show Reads (skipFrom _ _ _ _) _ _
    rw [skipFrom]
    refine .first hs fun _ => ?_
    rw [if_pos rfl]
    exact ih _
  | @close bracket outer s r rest hs h ih =>
    intro n hn
    have hclose : bracket.close ≠ Json.comma := by cases bracket <;> decide
    show Reads (skipFrom _ _ _ _) _ _
    rw [skipFrom]
    refine .first hs fun _ => ?_
    rw [if_neg hclose, if_pos rfl]
    exact ih _ _
  | key hs hkey ht h ih =>
    intro n hn
    show Reads (skipFrom _ _ _ _) _ _
    rw [skipFrom]
    refine .first hs fun _ => ?_
    rw [if_pos rfl]
    exact (reads_skipKey_iff.2 ⟨_, hkey, ht⟩).bind fun _ => ih _

theorem reads_skip_iff {s rest : Bytes} :
    Reads (skip s) () rest ↔ Passage (some .value) [] s rest :=
  ⟨passage_of_reads .value [] s _, fun h => h.reads _⟩

/-- At the end of the bytes the machine is done, or a bracket is open. -/
theorem Passage.eq_nil {outer : List Bracket} {rest : Bytes} (h : Passage none outer [] rest) :
    rest = [] := by
  cases h with
  | done => rfl
  | resume h =>
    cases h with
    | comma hs | close hs => exact absurd rfl (ne_nil_of_skipBlanks hs)

/-- What the machine comes through it comes through with more bytes behind. -/
theorem Passage.append {place : Option Place} {outer : List Bracket} {s rest more : Bytes}
    (h : Passage place outer s rest) (hmore : rest = [] → EndsNumeral more) :
    Passage place outer (s ++ more) (rest ++ more) := by
  induction h with
  | done s => exact .done _
  | resume h ih => exact .resume (ih hmore)
  | scalar hs hscalar h ih =>
    refine .scalar (skipBlanks_append hs more) (hscalar.append fun ht => ?_) (ih hmore)
    subst ht
    exact hmore h.eq_nil
  | opening hs hb h ih => exact .opening (skipBlanks_append hs more) hb (ih hmore)
  | empty hs h ih => exact .empty (skipBlanks_append hs more) (ih hmore)
  | inside hs hb h ih => exact .inside (skipBlanks_append hs more) hb (ih hmore)
  | comma hs h ih => exact .comma (skipBlanks_append hs more) (ih hmore)
  | close hs h ih => exact .close (skipBlanks_append hs more) (ih hmore)
  | key hs hkey ht h ih =>
    exact .key (skipBlanks_append hs more) (hkey.append more) (skipBlanks_append ht more) (ih hmore)

theorem extends_skip : Extends skip := by
  intro s u rest h more hmore
  exact reads_skip_iff.2 ((reads_skip_iff.1 h).append hmore)

/-! ## Values -/

/-- The machine comes through texts of values. -/
def Passable (text : Tree → Bytes → Bytes → Prop) : Prop :=
  ∀ {tree s t}, text tree s t → tree.EndsBefore t → ∀ {outer rest}, Passage none outer t rest →
    Passage (some .value) outer s rest

section Texts

variable {text : Tree → Bytes → Bytes → Prop} (htext : Passable text)
  (hopens : ∀ {tree s rest}, text tree s rest → ∃ b r, skipBlanks s = b :: r ∧ b ≠ closeList)
  {outer : List Bracket} {s t rest : Bytes}

include htext

theorem ItemsText.passage {items : List Tree} (h : ItemsText text items s t)
    (hrest : Passage none outer t rest) :
    Passage (some (.after .list)) outer s rest := by
  induction h with
  | done hs => exact .close hs hrest
  | next hs h others ih =>
    exact .comma hs (htext h (others.endsNumeral.endsTree _) (.resume (ih hrest)))

include hopens in
theorem ListText.passage {items : List Tree} (h : ListText text items s t)
    (hrest : Passage none outer t rest) :
    Passage (some (.opened .list)) outer s rest := by
  cases h with
  | empty hs => exact .empty hs hrest
  | items h others =>
    obtain ⟨b, r, hs, hb⟩ := hopens h
    exact .inside hs hb
      (htext h (others.endsNumeral.endsTree _) (.resume (others.passage htext hrest)))

theorem MemberText.passage {name : String} {tree : Tree} (h : MemberText text name tree s t)
    (hend : tree.EndsBefore t) (hrest : Passage none outer t rest) :
    Passage (some .key) outer s rest := by
  obtain ⟨hs, hname, ht, h⟩ := h
  exact .key hs hname.passed ht (htext h hend hrest)

theorem MembersText.passage {members : List (String × Tree)} (h : MembersText text members s t)
    (hrest : Passage none outer t rest) : Passage (some (.after .object)) outer s rest := by
  induction h with
  | done hs => exact .close hs hrest
  | next hs h others ih =>
    exact .comma hs (h.passage htext (others.endsNumeral.endsTree _) (.resume (ih hrest)))

theorem ObjectText.passage {members : List (String × Tree)} (h : ObjectText text members s t)
    (hrest : Passage none outer t rest) : Passage (some (.opened .object)) outer s rest := by
  cases h with
  | empty hs => exact .empty hs hrest
  | members h others =>
    have hmember :=
      h.passage htext (others.endsNumeral.endsTree _) (.resume (others.passage htext hrest))
    obtain ⟨hs, -, -, -⟩ := h
    exact .inside hs (by decide) hmember

end Texts

theorem passable_layer {item : Option (Tree → Bytes → Bytes → Prop)}
    (hitem : ∀ inner ∈ item, Passable inner ∧
      ∀ {tree s rest}, inner tree s rest → ∃ b r, skipBlanks s = b :: r ∧ b ≠ closeList) :
    Passable (LayerText item) := by
  intro tree s t h hend outer rest hrest
  cases h with
  | null hs =>
    rw [encode_null] at hs
    exact .scalar hs (.null t) hrest
  | true hs =>
    rw [encode_true] at hs
    exact .scalar hs (.true t) hrest
  | false hs =>
    rw [encode_false] at hs
    exact .scalar hs (.false t) hrest
  | number hs h =>
    obtain ⟨b, u, rfl, -⟩ := h.leads
    exact .scalar hs (.number h rfl hend) hrest
  | text hs h => exact .scalar hs (.text h.passed) hrest
  | list hinner hs h =>
    exact .opening hs rfl (h.passage (hitem _ hinner).1 (hitem _ hinner).2 hrest)
  | object hinner hs h => exact .opening hs rfl (h.passage (hitem _ hinner).1 hrest)

theorem passable_written (depth : Nat) : Passable (Written depth) := by
  induction depth with
  | zero =>
    show Passable (LayerText none)
    refine passable_layer fun inner hinner => ?_
    cases hinner
  | succ depth ih =>
    refine passable_layer fun inner hinner => ?_
    cases hinner
    exact ⟨ih, Written.opens⟩

/-- The text of a value is passed over, whatever its depth. -/
theorem Written.skips {depth : Nat} {tree : Tree} {s rest : Bytes} (h : Written depth tree s rest)
    (hend : tree.EndsBefore rest) : Reads (skip s) () rest :=
  reads_skip_iff.2 (passable_written depth h hend (.done rest))

/-- Whatever is read as a value is passed over. -/
theorem reads_skip {depth : Nat} {s rest : Bytes} {v : Value} (h : Reads (value depth s) v rest) :
    Reads (skip s) () rest := by
  obtain ⟨tree, htext, -, hend⟩ := (reads_value_iff depth).1 h
  exact htext.skips hend

end Switchboard.Json
