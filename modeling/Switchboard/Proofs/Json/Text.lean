/-
  Strings are read where the grammar says.

  1. **Escapes** — a reader of escapes reads a character where one of its texts stands
     (`reads_escape_iff`).

  2. **Characters** — the first byte of a character tells whether it is free to stand for itself.

  3. **Strings** — `reads_textBody_iff`: behind the opening quote a text is read just where texts of
     its characters stand one after another, up to the closing quote.

  4. **Writing** — a written character is one of its texts (`characterText_escapeBytes`), so a
     written text reads back.
-/
import Switchboard.Proofs.Json.Grammar
import Switchboard.Proofs.Json.Reads

namespace Switchboard.Json

variable {n : Nat} {chars : List Char} {s t rest : Bytes} {text : String}

/-! ## Escapes -/

theorem reads_numberedEscape_iff {k : Nat} :
    Reads (numberedEscape s) k t ↔ ∃ w x y z, fourHex? w x y z = some k ∧
      s = w :: x :: y :: z :: t := by
  constructor
  · intro h
    match s with
    | w :: x :: y :: z :: r =>
      rw [numberedEscape] at h
      split at h
      next j hj =>
        obtain ⟨rfl, rfl⟩ := reads_ok_iff.1 h
        exact ⟨w, x, y, z, hj, rfl⟩
      next => exact absurd h not_reads_error
    | [] | [_] | [_, _] | [_, _, _] => exact absurd h not_reads_error
  · rintro ⟨w, x, y, z, hk, rfl⟩
    rw [numberedEscape, hk]
    exact .intro _

theorem reads_lowHalf_iff {high : Nat} {c : Char} :
    Reads (lowHalf high s) c t ↔ ∃ w x y z low, fourHex? w x y z = some low ∧
      isLowSurrogate low = true ∧
      c = joinSurrogates high low ∧ s = backslash :: 0x75 :: w :: x :: y :: z :: t := by
  constructor
  · intro h
    match s with
    | [] | [_] => exact absurd h not_reads_error
    | b :: d :: r =>
      rw [lowHalf] at h
      split at h
      · exact absurd h not_reads_error
      next hb =>
      split at h
      · exact absurd h not_reads_error
      next hd =>
      obtain ⟨low, hlow, h⟩ := h.of_bind
      split at h
      next hl =>
        obtain ⟨hc, rfl⟩ := reads_ok_iff.1 h
        dsimp only at hc
        obtain ⟨w, x, y, z, hk, hr⟩ := reads_numberedEscape_iff.1 hlow
        rw [Decidable.not_not.1 hb, Decidable.not_not.1 hd]
        exact ⟨w, x, y, z, low.value, hk, hl, hc.symm, congrArg (backslash :: 0x75 :: ·) hr⟩
      next => exact absurd h not_reads_error
  · rintro ⟨w, x, y, z, low, hk, hl, hc, rfl⟩
    rw [lowHalf, if_neg (by decide), if_neg (by decide)]
    refine (reads_numberedEscape_iff.2 ⟨w, x, y, z, hk, rfl⟩).bind fun _ => ?_
    dsimp only
    rw [if_pos hl, ← hc]
    exact .intro _

theorem hexDigit?_lt {b : UInt8} {k : Nat} (h : hexDigit? b = some k) : k < 16 := by
  unfold hexDigit? at h
  split at h
  next hb =>
    obtain rfl := Option.some.inj h
    have hb' : b.toNat ≤ 57 := UInt8.le_iff_toNat_le.1 hb.2
    omega
  split at h
  next hb =>
    obtain rfl := Option.some.inj h
    have hb' : b.toNat ≤ 70 := UInt8.le_iff_toNat_le.1 hb.2
    omega
  split at h
  next hb =>
    obtain rfl := Option.some.inj h
    have hb' : b.toNat ≤ 102 := UInt8.le_iff_toNat_le.1 hb.2
    omega
  · cases h

theorem fourHex?_lt {w x y z : UInt8} {k : Nat} (h : fourHex? w x y z = some k) : k < 0x10000 := by
  simp only [fourHex?, Option.bind_eq_bind, Option.bind_eq_some_iff, Option.pure_def,
    Option.some.injEq] at h
  obtain ⟨a, ha, b, hb, c, hc, d, hd, rfl⟩ := h
  have := hexDigit?_lt ha
  have := hexDigit?_lt hb
  have := hexDigit?_lt hc
  have := hexDigit?_lt hd
  omega

/-- No character is a surrogate. -/
theorem not_surrogate (c : Char) :
    isLowSurrogate c.toNat = false ∧ isHighSurrogate c.toNat = false := by
  have hvalid : c.toNat < 0xD800 ∨ 0xDFFF < c.toNat ∧ c.toNat < 0x110000 := c.valid
  constructor
  · rw [isLowSurrogate, Bool.and_eq_false_iff, decide_eq_false_iff_not, decide_eq_false_iff_not]
    omega
  · rw [isHighSurrogate, Bool.and_eq_false_iff, decide_eq_false_iff_not, decide_eq_false_iff_not]
    omega

/-- Four digits that spell no surrogate spell a character. -/
theorem toNat_ofNat_of_fourHex? {w x y z : UInt8} {k : Nat} (hk : fourHex? w x y z = some k)
    (hl : isLowSurrogate k = false) (hh : isHighSurrogate k = false) :
    (Char.ofNat k).toNat = k := by
  have hlt := fourHex?_lt hk
  rw [isLowSurrogate, Bool.and_eq_false_iff, decide_eq_false_iff_not, decide_eq_false_iff_not] at hl
  rw [isHighSurrogate, Bool.and_eq_false_iff, decide_eq_false_iff_not,
    decide_eq_false_iff_not] at hh
  exact Utf8.val_ofNat (by omega)

theorem reads_numberedChar_iff {c : Char} :
    Reads (numberedChar s) c t ↔ ∃ text, EscapeText c (0x75 :: text) ∧ s = text ++ t := by
  have hshort : shortEscape? 0x75 = none := by decide
  constructor
  · intro h
    rw [numberedChar] at h
    obtain ⟨k, hk, h⟩ := h.of_bind
    obtain ⟨w, x, y, z, hfour, hs⟩ := reads_numberedEscape_iff.1 hk
    split at h
    · exact absurd h not_reads_error
    next hl =>
    split at h
    next hh =>
      obtain ⟨d, hd, h⟩ := h.of_bind
      obtain ⟨rfl, rfl⟩ := reads_ok_iff.1 h
      obtain ⟨w', x', y', z', low, hfour', hlow, hc, hrest⟩ := reads_lowHalf_iff.1 hd
      refine ⟨[w, x, y, z, backslash, 0x75, w', x', y', z'], ?_,
        hs.trans (congrArg (w :: x :: y :: z :: ·) hrest)⟩
      show EscapeText d.value _
      rw [hc]
      exact .pair hfour hh hfour' hlow
    next hh =>
      obtain ⟨rfl, rfl⟩ := reads_ok_iff.1 h
      refine ⟨[w, x, y, z], .numbered ?_, hs⟩
      show _ = some (Char.ofNat k.value).toNat
      rw [toNat_ofNat_of_fourHex? hfour (Bool.eq_false_of_not_eq_true hl)
        (Bool.eq_false_of_not_eq_true hh), hfour]
  · rintro ⟨text, htext, rfl⟩
    rw [numberedChar]
    cases htext with
    | short h => exact absurd (hshort.symm.trans h) nofun
    | @numbered w x y z _ h =>
      refine (reads_numberedEscape_iff.2 ⟨w, x, y, z, h, rfl⟩).bind fun _ => ?_
      rw [(not_surrogate c).1, (not_surrogate c).2]
      exact reads_ok_iff.2 ⟨c.ofNat_toNat, rfl⟩
    | @pair w x y z w' x' y' z' high low h hhigh h' hlow =>
      refine (reads_numberedEscape_iff.2 ⟨w, x, y, z, h, rfl⟩).bind fun _ => ?_
      have hl : isLowSurrogate high = false := by
        rw [isHighSurrogate, Bool.and_eq_true, decide_eq_true_iff, decide_eq_true_iff] at hhigh
        rw [isLowSurrogate, Bool.and_eq_false_iff, decide_eq_false_iff_not, decide_eq_false_iff_not]
        omega
      rw [hl, hhigh]
      generalize hc : joinSurrogates high low = c
      have hread : Reads (lowHalf high (backslash :: 0x75 :: w' :: x' :: y' :: z' :: t)) c t :=
        reads_lowHalf_iff.2 ⟨w', x', y', z', low, h', hlow, hc.symm, rfl⟩
      exact hread.bind fun _ => .intro _

/-- Behind a backslash a character is read where one of its escapes stands. -/
theorem reads_escape_iff {c : Char} :
    Reads (escape s) c t ↔ ∃ text, EscapeText c text ∧ s = text ++ t := by
  constructor
  · intro h
    match s with
    | [] => exact absurd h not_reads_error
    | b :: s =>
      rw [escape] at h
      split at h
      next d hd =>
        obtain ⟨rfl, rfl⟩ := reads_ok_iff.1 h
        exact ⟨[b], .short hd, rfl⟩
      next =>
        split at h
        next hb =>
          obtain ⟨text, htext, rfl⟩ := reads_numberedChar_iff.1 ((reads_within_iff _).1 h)
          exact ⟨0x75 :: text, htext, by rw [hb, List.cons_append]⟩
        next => exact absurd h not_reads_error
  · rintro ⟨text, htext, rfl⟩
    cases htext with
    | short h =>
      rw [List.singleton_append, escape, h]
      exact .intro _
    | numbered h => exact (reads_numberedChar_iff.2 ⟨_, .numbered h, rfl⟩).within _
    | pair h hhigh h' hlow =>
      exact (reads_numberedChar_iff.2 ⟨_, .pair h hhigh h' hlow, rfl⟩).within _

/-! ## Characters -/

/-- The first byte of a character is a byte of ASCII just when it is that character. -/
theorem first_byte_eq_iff {c d : Char} {b : UInt8} (h : String.utf8EncodeChar c = b :: t)
    (hd : d.toNat ≤ 0x7F) :
    b = UInt8.ofNat d.toNat ↔ c = d := by
  have hbyte : (UInt8.ofNat d.toNat).toNat = d.toNat := Utf8.toNat_byte (by omega)
  obtain ⟨b', t', hbt, hfirst⟩ := Utf8.first_byte c
  obtain ⟨rfl, -⟩ := List.cons.inj (h.symm.trans hbt)
  constructor
  · rintro rfl
    rcases hfirst with ⟨hc, hb, -⟩ | ⟨-, hb⟩
    · have := congrArg UInt8.toNat hb
      rw [hbyte, Utf8.toNat_byte (by omega)] at this
      exact Char.toNat_inj.1 this.symm
    · omega
  · rintro rfl
    rcases hfirst with ⟨-, hb, -⟩ | ⟨hc, -⟩
    · exact hb
    · omega

theorem first_byte_lt_iff {c : Char} {b : UInt8} (h : String.utf8EncodeChar c = b :: t) :
    b < 0x20 ↔ c < ' ' := by
  have hc : c < ' ' ↔ c.toNat < 32 := Iff.rfl
  have hb : b < 0x20 ↔ b.toNat < 32 := UInt8.lt_iff_toNat_lt
  obtain ⟨b', t', hbt, hfirst⟩ := Utf8.first_byte c
  obtain ⟨rfl, -⟩ := List.cons.inj (h.symm.trans hbt)
  rw [hc, hb]
  rcases hfirst with ⟨hascii, rfl, -⟩ | ⟨hascii, hb⟩
  · rw [Utf8.toNat_byte (by omega)]
  · omega

/-- The first byte of a character is free to stand in a string just when the character is. -/
theorem first_byte_free_iff {c : Char} {b : UInt8} (h : String.utf8EncodeChar c = b :: t) :
    b ≠ quote ∧ b ≠ backslash ∧ ¬b < 0x20 ↔ c ≠ '"' ∧ c ≠ '\\' ∧ ¬c < ' ' := by
  have hquote : b = quote ↔ c = '"' := first_byte_eq_iff (d := '"') h (by decide)
  have hbackslash : b = backslash ↔ c = '\\' := first_byte_eq_iff (d := '\\') h (by decide)
  rw [Ne, Ne, Ne, Ne, hquote, hbackslash, first_byte_lt_iff h]

/-! ## Strings -/

/-- Broken text is refused in the end. -/
theorem not_reads_broken {unread : Nat} (chars : List Char) (s : Bytes)
    (h : s.length ≤ n) {text : String}
    {rest : Bytes} : ¬Reads (textOnto (some unread) chars s h) text rest := by
  match s with
  | [] =>
    rw [textOnto]
    exact not_reads_error
  | b :: s =>
    rw [textOnto]
    split
    · exact not_reads_error
    split
    · intro hread
      obtain ⟨c, -, hread⟩ := hread.of_bind
      have := c.shorter
      exact not_reads_broken (c.value :: chars) c.rest _ hread
    split
    · exact not_reads_error
    have := Utf8.length_next_le b s
    dsimp only
    split
    · exact not_reads_broken _ (Utf8.next b s).2 _
    · exact not_reads_broken chars (Utf8.next b s).2 _
  termination_by s.length
  decreasing_by all_goals
    simp only [List.length_cons]
    omega

theorem exists_charactersText (chars : List Char) (s : Bytes) (h : s.length ≤ n)
    {text : String} {rest : Bytes} (hread : Reads (textOnto none chars s h) text rest) :
    ∃ cs, text = String.ofList (chars.reverse ++ cs) ∧ CharactersText cs s rest := by
  match s with
  | [] =>
    rw [textOnto] at hread
    exact absurd hread not_reads_error
  | b :: s =>
    rw [textOnto] at hread
    split at hread
    next hquote =>
      subst hquote
      obtain ⟨rfl, rfl⟩ := reads_ok_iff.1 hread
      exact ⟨[], by rw [List.append_nil], .done _⟩
    next hquote =>
      split at hread
      next hbackslash =>
        subst hbackslash
        obtain ⟨c, hc, hread⟩ := hread.of_bind
        have := c.shorter
        obtain ⟨cs, htext, hcs⟩ := exists_charactersText (c.value :: chars) c.rest _ hread
        obtain ⟨e, he, hs⟩ := reads_escape_iff.1 hc
        refine ⟨c.value :: cs, ?_, ?_⟩
        · rw [htext, List.reverse_cons, List.append_assoc, List.singleton_append]
        · have hnext := CharactersText.next (.escaped he) hcs
          rwa [List.cons_append, ← hs] at hnext
      next hbackslash =>
        split at hread
        next => exact absurd hread not_reads_error
        next hcontrol =>
          have := Utf8.length_next_le b s
          dsimp only at hread
          split at hread
          next c hc =>
            obtain ⟨cs, htext, hcs⟩ := exists_charactersText (c :: chars) (Utf8.next b s).2 _ hread
            refine ⟨c :: cs, ?_, ?_⟩
            · rw [htext, List.reverse_cons, List.append_assoc, List.singleton_append]
            · have hbytes : b :: s = String.utf8EncodeChar c ++ (Utf8.next b s).2 :=
                Utf8.next_iff.1 (by rw [← hc])
              obtain ⟨b', t, hbt, -⟩ := Utf8.first_byte c
              obtain ⟨rfl, -⟩ : b = b' ∧ s = t ++ (Utf8.next b s).2 := by
                rw [hbt, List.cons_append] at hbytes
                exact List.cons.inj hbytes
              obtain ⟨hquote, hbackslash, hcontrol⟩ :=
                (first_byte_free_iff hbt).1 ⟨hquote, hbackslash, hcontrol⟩
              rw [hbytes]
              exact .next (.plain hquote hbackslash hcontrol) hcs
          next => exact absurd hread (not_reads_broken chars _ _)
  termination_by s.length
  decreasing_by all_goals
    simp only [List.length_cons]
    omega

theorem CharactersText.reads {s rest : Bytes} {cs : List Char} (h : CharactersText cs s rest)
    (chars : List Char) (hn : s.length ≤ n) :
    Reads (textOnto none chars s hn) (String.ofList (chars.reverse ++ cs)) rest := by
  induction h generalizing chars with
  | done rest =>
    rw [textOnto, if_pos rfl, List.append_nil]
    exact .intro _
  | @next c cs text s rest hc others ih =>
    have hothers := fun hn => ih (c :: chars) hn
    rw [List.reverse_cons, List.append_assoc, List.singleton_append] at hothers
    cases hc with
    | escaped he =>
      show Reads (textOnto none chars (backslash :: (_ ++ s)) hn) _ _
      rw [textOnto, if_neg (by decide), if_pos rfl]
      exact (reads_escape_iff.2 ⟨_, he, rfl⟩).bind fun _ => hothers _
    | plain hquote hbackslash hcontrol =>
      obtain ⟨b, t, hbt, hnext⟩ := Utf8.next_encode c s
      obtain ⟨hquote, hbackslash, hcontrol⟩ :=
        (first_byte_free_iff hbt).2 ⟨hquote, hbackslash, hcontrol⟩
      -- The bound is about the bytes, so it goes along when they are rewritten.
      revert hn
      rw [hbt]
      intro hn
      show Reads (textOnto none chars (b :: (t ++ s)) hn) _ _
      rw [textOnto, if_neg hquote, if_neg hbackslash, if_neg hcontrol]
      simp only [hnext]
      exact hothers _

/-- A text is read behind an opening quote where texts of its characters stand up to the closing
    one. -/
theorem reads_textBody_iff : Reads (textBody s) text rest ↔ CharactersText text.toList s rest := by
  constructor
  · intro h
    obtain ⟨cs, rfl, hcs⟩ := exists_charactersText [] s (length_le s) h
    rwa [List.reverse_nil, List.nil_append, String.toList_ofList]
  · intro h
    have hread := h.reads [] (length_le s)
    rwa [List.reverse_nil, List.nil_append, String.ofList_toList] at hread

/-! ## Writing -/

/-- The bytes of one character of a written text. -/
def escapeBytes (c : Char) : Bytes := (escapeChar c).flatMap String.utf8EncodeChar

/-- The two digits of a control character spell its number. -/
theorem fourHex?_control : ∀ k < 32, fourHex? 0x30 0x30 (UInt8.ofNat (Nat.digitChar (k / 16)).toNat)
    (UInt8.ofNat (Nat.digitChar (k % 16)).toNat) = some k := by
  decide

theorem utf8EncodeChar_digitChar {k : Nat} (hk : k < 16) :
    String.utf8EncodeChar (Nat.digitChar k) = [UInt8.ofNat (Nat.digitChar k).toNat] := by
  have h : ∀ k < 16, (Nat.digitChar k).toNat ≤ 0x7F := by decide
  exact Utf8.utf8EncodeChar_ascii (h k hk)

/-- A character is written as one of its texts. -/
theorem characterText_escapeBytes (c : Char) : CharacterText c (escapeBytes c) := by
  have hshort : ∀ {b}, shortEscape? b = some c → escapeBytes c = [backslash, b] →
      CharacterText c (escapeBytes c) :=
    fun hb he => he ▸ .escaped (.short hb)
  rw [escapeBytes, escapeChar] at hshort ⊢
  -- First the seven characters with an escape of one letter, in the order in which they are tried.
  by_cases h1 : c = '"'
  · exact hshort (b := quote) (by rw [h1]; decide) (by rw [if_pos h1]; decide)
  by_cases h2 : c = '\\'
  · exact hshort (b := backslash) (by rw [h2]; decide) (by rw [if_neg h1, if_pos h2]; decide)
  by_cases h3 : c = '\x08'
  · exact hshort (b := 0x62) (by rw [h3]; decide) (by rw [if_neg h1, if_neg h2, if_pos h3]; decide)
  by_cases h4 : c = '\x0c'
  · exact hshort (b := 0x66) (by rw [h4]; decide)
      (by rw [if_neg h1, if_neg h2, if_neg h3, if_pos h4]; decide)
  by_cases h5 : c = '\n'
  · refine hshort (b := 0x6E) (by rw [h5]; decide) ?_
    rw [if_neg h1, if_neg h2, if_neg h3, if_neg h4, if_pos h5]
    decide
  by_cases h6 : c = '\r'
  · refine hshort (b := 0x72) (by rw [h6]; decide) ?_
    rw [if_neg h1, if_neg h2, if_neg h3, if_neg h4, if_neg h5, if_pos h6]
    decide
  by_cases h7 : c = '\t'
  · refine hshort (b := 0x74) (by rw [h7]; decide) ?_
    rw [if_neg h1, if_neg h2, if_neg h3, if_neg h4, if_neg h5, if_neg h6, if_pos h7]
    decide
  rw [if_neg h1, if_neg h2, if_neg h3, if_neg h4, if_neg h5, if_neg h6, if_neg h7]
  by_cases h8 : c < ' '
  -- The other control characters fit two digits.
  · have hk : c.toNat < 32 := h8
    rw [if_pos h8]
    simp only [List.flatMap_cons, List.flatMap_nil,
      utf8EncodeChar_digitChar (k := c.toNat / 16) (by omega),
      utf8EncodeChar_digitChar (k := c.toNat % 16) (by omega)]
    exact .escaped (.numbered (fourHex?_control c.toNat hk))
  · rw [if_neg h8, List.flatMap_singleton]
    exact .plain h1 h2 h8

theorem charactersText_escapeBytes (cs : List Char) (s : Bytes) :
    CharactersText cs (cs.flatMap escapeBytes ++ quote :: s) s := by
  induction cs with
  | nil => exact .done s
  | cons c cs ih =>
    rw [List.flatMap_cons, List.append_assoc]
    exact .next (characterText_escapeBytes c) ih

theorem encode_writeText (t : String) :
    Utf8.encode (writeText t) = quote :: (t.toList.flatMap escapeBytes ++ [quote]) := by
  rw [writeText, Utf8.encode_ofList]
  simp only [List.cons_append, List.flatMap_cons, List.flatMap_append, List.flatMap_assoc]
  rfl

/-- A written text reads back behind its opening quote. -/
theorem reads_textBody (t : String) (s : Bytes) :
    Reads (textBody (t.toList.flatMap escapeBytes ++ quote :: s)) t s :=
  reads_textBody_iff.2 (charactersText_escapeBytes t.toList s)

theorem opens_writeText (t : String) : Opens (Utf8.encode (writeText t)) :=
  ⟨_, _, encode_writeText t, rfl, by decide⟩

/-- A written text reads back. -/
theorem reads_text (t : String) (s : Bytes) :
    Reads (Json.text (Utf8.encode (writeText t) ++ s)) t s := by
  rw [encode_writeText, List.cons_append, List.append_assoc, List.singleton_append, Json.text]
  refine .byte (by decide) fun h => ?_
  rw [if_pos rfl]
  exact (reads_textBody t s).within _

/-- Strings are faithful. -/
theorem Codec.faithful_text : Codec.text.Faithful := by
  intro t
  have hwrite : Codec.text.write t = .ok (writeText t) := by rw [Codec.text]
  have hread : Codec.text.read = Json.text := by rw [Codec.text]
  refine ⟨writeText t, hwrite, opens_writeText t, fun rest _ => ?_⟩
  rw [hread]
  exact reads_text t rest

end Switchboard.Json
