/-
  Numbers are read where the grammar says, and integers come back from their decimal digits.

  1. **Decimals** — `decimal n` is the digits of a number as bytes.  `digitsValue_decimal`,
     `isDigit_of_mem_decimal` and `decimal_leads` are what a reader of numerals asks of digits:
     their value, that they are digits, and that the first of several is no zero.

  2. **Numerals** — digits, fractions, exponents and numerals are each read just where one of their
     texts stands and nothing behind goes on with it (`reads_numeral_iff`).

  3. **Integers** — a numeral is an integer just when it spells one
     (`Numeral.integer?_eq_some_iff`), and one within the 64-bit ranges reads back (`reads_number`).
-/
import Switchboard.Proofs.Json.Grammar
import Switchboard.Proofs.Json.Reads

namespace Switchboard.Json

open Switchboard.Number

/-! ## Decimal digits -/

/-- The decimal digits of a number. -/
def decimal (n : Nat) : Bytes := Utf8.encode n.repr

/-- The byte of a digit. -/
def digitByte (k : Nat) : UInt8 := UInt8.ofNat (0x30 + k)

theorem utf8EncodeChar_digit :
    ∀ k < 10, String.utf8EncodeChar (Nat.digitChar k) = [digitByte k] := by
  have h : ∀ k < 10, (Nat.digitChar k).toNat = 0x30 + k := by decide
  intro k hk
  rw [Utf8.utf8EncodeChar_ascii (by rw [h k hk]; omega), h k hk, digitByte]

theorem decimal_lt {n : Nat} (h : n < 10) : decimal n = [digitByte n] := by
  rw [decimal, Nat.repr_eq_ofList_toDigits, Utf8.encode_ofList, Nat.toDigits_of_lt_base h,
    List.flatMap_singleton, utf8EncodeChar_digit n h]

theorem decimal_append {m k : Nat} (hm : 0 < m) (hk : k < 10) :
    decimal (10 * m + k) = decimal m ++ [digitByte k] := by
  rw [← decimal_lt hk]
  simp only [decimal, Nat.repr_eq_ofList_toDigits, Utf8.encode_ofList]
  rw [← Nat.toDigits_append_toDigits (by decide) hm hk, List.flatMap_append]

theorem isDigit_digitByte : ∀ k < 10, isDigit (digitByte k) = true := by decide

theorem digit_digitByte : ∀ k < 10, digit (digitByte k) = k := by decide

theorem isDigit_of_mem_decimal {n : Nat} {b : UInt8} (h : b ∈ decimal n) : isDigit b = true := by
  -- The induction takes off the last digit.
  induction n using Nat.base_induction 10 (by decide) with
  | single k hk =>
    rw [decimal_lt hk, List.mem_singleton] at h
    rw [h]
    exact isDigit_digitByte k hk
  | digit m k hk hm ih =>
    rw [decimal_append hm hk, List.mem_append, List.mem_singleton] at h
    rcases h with h | rfl
    · exact ih h
    · exact isDigit_digitByte k hk

/-- The digits of a number spell it. -/
theorem digitsValue_decimal (n : Nat) : digitsValue (decimal n) = n := by
  induction n using Nat.base_induction 10 (by decide) with
  | single k hk =>
    rw [decimal_lt hk]
    show 0 * 10 + digit (digitByte k) = k
    rw [digit_digitByte k hk]
    omega
  | digit m k hk hm ih =>
    rw [digitsValue] at ih ⊢
    rw [decimal_append hm hk, List.foldl_append, ih]
    show m * 10 + digit (digitByte k) = 10 * m + k
    rw [digit_digitByte k hk]
    omega

theorem ne_of_isDigit {b c : UInt8} (h : isDigit b = true) (hc : isDigit c = false) : b ≠ c := by
  rintro rfl
  rw [h] at hc
  cases hc

/-- Digits begin with a zero only where that is all. -/
theorem decimal_leads (n : Nat) :
    ∃ b t, decimal n = b :: t ∧ isDigit b = true ∧ (0 < n → b ≠ 0x30) ∧ (n = 0 → t = []) := by
  have hzero : ∀ k < 10, 0 < k → digitByte k ≠ 0x30 := by decide
  induction n using Nat.base_induction 10 (by decide) with
  | single k hk => exact ⟨_, _, decimal_lt hk, isDigit_digitByte k hk, hzero k hk, fun _ => rfl⟩
  | digit m k hk hm ih =>
    obtain ⟨b, t, hbt, hb, hlead, -⟩ := ih
    refine ⟨b, t ++ [digitByte k], ?_, hb, fun _ => hlead hm, fun h => by omega⟩
    rw [decimal_append hm hk, hbt, List.cons_append]

/-! ## Reading numbers -/

section Reading

variable {n : Nat} {ended : Cause} {s rest : Bytes}

/-- Bytes with no digit in front. -/
def EndsDigits (rest : Bytes) : Prop := ∀ b ∈ rest.head?, isDigit b = false

/-- Bytes with nothing in front with which the number could go on. -/
structure Numeral.EndsBefore (x : Numeral) (rest : Bytes) : Prop where
  digits : EndsDigits rest
  exponent : x.exponent = none → ∀ b ∈ rest.head?, b ≠ 0x65 ∧ b ≠ 0x45
  fraction : x.fraction = [] → x.exponent = none → ∀ b ∈ rest.head?, b ≠ 0x2E

theorem EndsNumeral.endsBefore (h : EndsNumeral rest) (x : Numeral) : x.EndsBefore rest :=
  ⟨fun b hb => (h b hb).1, fun _ b hb => (h b hb).2.2, fun _ _ b hb => (h b hb).2.1⟩

/-- Digits, fraction and exponent begin with a digit. -/
theorem UnsignedText.leads {x : Numeral} {text : Bytes} (h : UnsignedText x text) :
    ∃ b t, text = b :: t ∧ isDigit b = true := by
  obtain ⟨hwhole, -, -⟩ := h
  obtain ⟨b, t, hbt⟩ := List.exists_cons_of_ne_nil hwhole.nonempty
  rw [hbt]
  exact ⟨b, _, List.cons_append, hwhole.digit b (hbt ▸ List.mem_cons_self)⟩

theorem reads_digits_iff {place : Cause → Bytes → Fault} {ds : Bytes} :
    Reads (digits ended place s) ds rest ↔ Digits ds ∧ s = ds ++ rest ∧ EndsDigits rest := by
  constructor
  · intro h
    cases s with
    | nil => exact absurd h not_reads_error
    | cons b s =>
      rw [digits] at h
      split at h
      next hb =>
        obtain ⟨rfl, rfl⟩ := reads_ok_iff.1 h
        refine ⟨⟨List.cons_ne_nil _ _,
          List.forall_mem_cons.2 ⟨hb, fun c hc => List.mem_takeWhile_imp hc⟩⟩, ?_, ?_⟩
        · rw [List.cons_append, List.takeWhile_append_dropWhile]
        · intro c hc
          have hstop := List.head?_dropWhile_not isDigit s
          rw [Option.mem_def.1 hc] at hstop
          simpa using hstop
      next => exact absurd h not_reads_error
  · rintro ⟨⟨hne, hds⟩, rfl, hrest⟩
    obtain ⟨b, t, rfl⟩ := List.exists_cons_of_ne_nil hne
    obtain ⟨hb, ht⟩ := List.forall_mem_cons.1 hds
    have hstop : rest.takeWhile isDigit = [] ∧ rest.dropWhile isDigit = rest := by
      cases rest with
      | nil => exact ⟨rfl, rfl⟩
      | cons c rest => rw [List.takeWhile_cons, List.dropWhile_cons, hrest c rfl]; exact ⟨rfl, rfl⟩
    rw [List.cons_append, digits, if_pos hb]
    refine reads_ok_iff.2 ⟨?_, ?_⟩
    · show b :: (t ++ rest).takeWhile isDigit = b :: t
      rw [List.takeWhile_append_of_pos ht, hstop.1, List.append_nil]
    · show (t ++ rest).dropWhile isDigit = rest
      rw [List.dropWhile_append_of_pos ht, hstop.2]

theorem reads_wholeDigits_iff {ds : Bytes} :
    Reads (wholeDigits ended s) ds rest ↔ WholeDigits ds ∧ s = ds ++ rest ∧ EndsDigits rest := by
  constructor
  · intro h
    rw [wholeDigits] at h
    obtain ⟨d, hd, h⟩ := h.of_bind
    split at h
    next => exact absurd h not_reads_error
    next hlead =>
      obtain ⟨rfl, rfl⟩ := reads_ok_iff.1 h
      obtain ⟨hds, hs, hrest⟩ := reads_digits_iff.1 hd
      refine ⟨⟨hds, fun t ht => ?_⟩, hs, hrest⟩
      cases t with
      | nil => rfl
      | cons c u => exact absurd ht (hlead c u)
  · rintro ⟨⟨hds, hzero⟩, hs, hrest⟩
    refine (reads_digits_iff.2 ⟨hds, hs, hrest⟩).bind fun hlt => ?_
    split
    next c u he => exact absurd (hzero _ he) (List.cons_ne_nil c u)
    next => exact .intro hlt

theorem reads_fractionDigits_iff {ds : Bytes} {hn : s.length < n} :
    Reads (fractionDigits ended s hn) ds rest ↔ ∃ text, FractionText ds text ∧ s = text ++ rest ∧
      (ds = [] → ∀ b ∈ rest.head?, b ≠ 0x2E) ∧ (ds ≠ [] → EndsDigits rest) := by
  constructor
  · intro h
    cases s with
    | nil =>
      obtain ⟨rfl, rfl⟩ := reads_ok_iff.1 h
      exact ⟨[], .absent, rfl, fun _ => nofun, fun h => absurd rfl h⟩
    | cons b s =>
      rw [fractionDigits] at h
      split at h
      next hb =>
        obtain ⟨hds, rfl, hrest⟩ := reads_digits_iff.1 ((reads_within_iff _).1 h)
        exact ⟨0x2E :: ds, .digits hds,
          by rw [hb, List.cons_append], fun h => absurd h hds.nonempty, fun _ => hrest⟩
      next hb =>
        obtain ⟨rfl, rfl⟩ := reads_ok_iff.1 h
        exact ⟨[], .absent, rfl, fun _ c hc => Option.some.inj hc ▸ hb, fun h => absurd rfl h⟩
  · rintro ⟨text, htext, rfl, hpoint, hdigits⟩
    cases htext with
    | absent =>
      cases rest with
      | nil => exact .intro hn
      | cons b rest =>
        show Reads (fractionDigits ended (b :: rest) hn) _ _
        rw [fractionDigits, if_neg (hpoint rfl b rfl)]
        exact .intro hn
    | digits hds =>
      show Reads (fractionDigits ended (0x2E :: (ds ++ rest)) hn) _ _
      rw [fractionDigits, if_pos rfl]
      exact (reads_digits_iff.2 ⟨hds, rfl, hdigits hds.nonempty⟩).within _

theorem exponentSign_iff {negative : Bool} {ds : Bytes} (hds : Digits ds) :
    exponentSign s = (negative, ds ++ rest) ↔
      ∃ sign, SignText negative sign ∧ s = sign ++ (ds ++ rest) := by
  obtain ⟨d, t, rfl⟩ := List.exists_cons_of_ne_nil hds.nonempty
  have hd : isDigit d = true := hds.digit d List.mem_cons_self
  constructor
  · intro h
    cases s with
    | nil => cases h
    | cons b s =>
      rw [exponentSign] at h
      split at h
      next hb =>
        cases h
        exact ⟨[0x2B], .plus, by rw [hb, List.singleton_append]⟩
      split at h
      next hb =>
        cases h
        exact ⟨[minus], .minus, by rw [hb, List.singleton_append]⟩
      next =>
        rw [Prod.mk.injEq] at h
        exact ⟨[], h.1 ▸ .absent, h.2⟩
  · rintro ⟨sign, hsign, rfl⟩
    cases hsign with
    | absent =>
      rw [List.nil_append, List.cons_append, exponentSign, if_neg (ne_of_isDigit hd rfl),
        if_neg (ne_of_isDigit hd rfl)]
    | plus | minus => rfl

theorem reads_exponentDigits_iff {e : Option (Bool × Bytes)} {hn : s.length < n} :
    Reads (exponentDigits ended s hn) e rest ↔ ∃ text, ExponentText e text ∧ s = text ++ rest ∧
      (e = none → ∀ b ∈ rest.head?, b ≠ 0x65 ∧ b ≠ 0x45) ∧ (e ≠ none → EndsDigits rest) := by
  constructor
  · intro h
    cases s with
    | nil =>
      obtain ⟨rfl, rfl⟩ := reads_ok_iff.1 h
      exact ⟨[], .absent, rfl, fun _ => nofun, fun h => absurd rfl h⟩
    | cons b s =>
      rw [exponentDigits] at h
      split at h
      next hb =>
        obtain ⟨d, hd, h⟩ := h.of_bind
        obtain ⟨rfl, rfl⟩ := reads_ok_iff.1 h
        obtain ⟨hds, hs, hrest⟩ := reads_digits_iff.1 hd
        obtain ⟨sign, hsign, hs⟩ := (exponentSign_iff hds).1 (Prod.ext rfl hs)
        refine ⟨b :: (sign ++ d.value), .digits hb hsign hds, ?_, nofun, fun _ => hrest⟩
        rw [List.cons_append, List.append_assoc, ← hs]
      next hb =>
        obtain ⟨rfl, rfl⟩ := reads_ok_iff.1 h
        exact ⟨[], .absent, rfl, fun _ c hc => Option.some.inj hc ▸ not_or.1 hb,
          fun h => absurd rfl h⟩
  · rintro ⟨text, htext, rfl, hletter, hdigits⟩
    cases htext with
    | absent =>
      cases rest with
      | nil => exact .intro hn
      | cons b rest =>
        show Reads (exponentDigits ended (b :: rest) hn) _ _
        rw [exponentDigits, if_neg (not_or.2 (hletter rfl b rfl))]
        exact .intro hn
    | @digits letter negative sign ds hb hsign hds =>
      show Reads (exponentDigits ended (letter :: (sign ++ ds ++ rest)) hn) _ _
      have hs : exponentSign (sign ++ ds ++ rest) = (negative, ds ++ rest) :=
        (exponentSign_iff hds).2 ⟨sign, hsign, List.append_assoc _ _ _⟩
      have hread : Reads (digits ended .past (exponentSign (sign ++ ds ++ rest)).2) ds rest :=
        reads_digits_iff.2 ⟨hds, congrArg Prod.snd hs, hdigits nofun⟩
      rw [exponentDigits, if_pos hb]
      refine hread.bind fun _ => reads_ok_iff.2 ⟨?_, rfl⟩
      show some ((exponentSign (sign ++ ds ++ rest)).1, ds) = _
      rw [hs]

/-- A number ends where its parts do, and a part that is absent has nothing in front with which it
    could begin. -/
theorem endsBefore_iff {x : Numeral} {fraction exponent : Bytes}
    (hfraction : FractionText x.fraction fraction) (hexponent : ExponentText x.exponent exponent) :
    x.EndsBefore rest ↔ EndsDigits (fraction ++ (exponent ++ rest)) ∧
      ((x.fraction = [] → ∀ b ∈ (exponent ++ rest).head?, b ≠ 0x2E) ∧
        (x.fraction ≠ [] → EndsDigits (exponent ++ rest))) ∧
      ((x.exponent = none → ∀ b ∈ rest.head?, b ≠ 0x65 ∧ b ≠ 0x45) ∧
        (x.exponent ≠ none → EndsDigits rest)) := by
  have hpoint : ∀ t : Bytes, EndsDigits (0x2E :: t) := by
    rintro t b hb
    cases hb
    rfl
  obtain ⟨negative, whole, fr, ex⟩ := x
  dsimp only at *
  cases hexponent with
  | absent =>
    cases hfraction with
    | absent =>
      exact ⟨fun h => ⟨h.1, ⟨fun _ => h.3 rfl rfl, fun h => absurd rfl h⟩,
          h.2, fun h => absurd rfl h⟩,
        fun ⟨h, ⟨hp, _⟩, hl, _⟩ => ⟨h, hl, fun hf _ => hp hf⟩⟩
    | digits hds =>
      exact ⟨fun h => ⟨hpoint _, ⟨fun hf => absurd hf hds.nonempty, fun _ => h.1⟩,
          h.2, fun h => absurd rfl h⟩,
        fun ⟨_, ⟨_, hd⟩, hl, _⟩ => ⟨hd hds.nonempty, hl, fun hf => absurd hf hds.nonempty⟩⟩
  | @digits letter negative' sign ds hletter =>
    have hne : letter ≠ 0x2E ∧ isDigit letter = false := by rcases hletter with rfl | rfl <;> decide
    have hend : ∀ t : Bytes, EndsDigits (letter :: t) := by
      rintro t b hb
      cases hb
      exact hne.2
    have hsome : (some (negative', ds) : Option (Bool × Bytes)) ≠ none := nofun
    refine ⟨fun h => ⟨?_, ⟨fun _ b hb => Option.some.inj hb ▸ hne.1, fun _ => hend _⟩,
        nofun, fun _ => h.1⟩,
      fun ⟨_, _, _, hd⟩ => ⟨hd hsome, nofun, nofun⟩⟩
    cases hfraction with
    | absent => exact hend _
    | digits => exact hpoint _

theorem reads_unsignedNumeral_iff {negative : Bool} {x : Numeral} :
    Reads (unsignedNumeral ended negative s) x rest ↔
      x.negative = negative ∧ ∃ text, UnsignedText x text ∧
        s = text ++ rest ∧ x.EndsBefore rest := by
  constructor
  · intro h
    rw [unsignedNumeral] at h
    obtain ⟨whole, hwhole, h⟩ := h.of_bind
    obtain ⟨fraction, hfraction, h⟩ := h.of_bind
    obtain ⟨exponent, hexponent, h⟩ := h.of_bind
    obtain ⟨rfl, rfl⟩ := reads_ok_iff.1 h
    obtain ⟨hwhole, hs, hend⟩ := reads_wholeDigits_iff.1 hwhole
    obtain ⟨f, hf, hs', hfend⟩ := reads_fractionDigits_iff.1 hfraction
    obtain ⟨e, he, hs'', heend⟩ := reads_exponentDigits_iff.1 hexponent
    rw [hs'] at hend
    rw [hs''] at hs' hend hfend
    refine ⟨rfl, _, .intro hwhole hf he, ?_, (endsBefore_iff hf he).2 ⟨hend, hfend, heend⟩⟩
    rw [List.append_assoc, List.append_assoc, ← hs', ← hs]
  · rintro ⟨rfl, text, ⟨hwhole, hf, he⟩, rfl, hend⟩
    obtain ⟨hend, hfend, heend⟩ := (endsBefore_iff hf he).1 hend
    rw [List.append_assoc, List.append_assoc, unsignedNumeral]
    refine (reads_wholeDigits_iff.2 ⟨hwhole, rfl, hend⟩).bind fun hw => ?_
    refine (reads_fractionDigits_iff.2 ⟨_, hf, rfl, hfend⟩).bind fun hf => ?_
    refine (reads_exponentDigits_iff.2 ⟨_, he, rfl, heend⟩).bind fun he => ?_
    exact .intro he

/-- A numeral is read where one of its texts stands and could not go on, whatever the cause for one
    that breaks off. -/
theorem reads_numeral_iff {x : Numeral} :
    Reads (numeral ended s) x rest ↔
      ∃ text, NumeralText x text ∧ s = text ++ rest ∧ x.EndsBefore rest := by
  constructor
  · intro h
    cases s with
    | nil => exact absurd h not_reads_error
    | cons b s =>
      rw [numeral] at h
      split at h
      next hb =>
        obtain ⟨hsign, text, htext, rfl, hend⟩ :=
          reads_unsignedNumeral_iff.1 ((reads_within_iff _).1 h)
        exact ⟨minus :: text, .negative hsign htext, by rw [hb, List.cons_append], hend⟩
      next =>
        obtain ⟨hsign, text, htext, hs, hend⟩ := reads_unsignedNumeral_iff.1 h
        exact ⟨text, .positive hsign htext, hs, hend⟩
  · rintro ⟨text, htext, rfl, hend⟩
    cases htext with
    | negative hsign htext =>
      rw [List.cons_append, numeral, if_pos rfl]
      exact (reads_unsignedNumeral_iff.2 ⟨hsign, _, htext, rfl, hend⟩).within _
    | positive hsign htext =>
      obtain ⟨b, t, hbt, hb⟩ := htext.leads
      have hread : Reads (unsignedNumeral ended false (text ++ rest)) x rest :=
        reads_unsignedNumeral_iff.2 ⟨hsign, text, htext, rfl, hend⟩
      subst hbt
      rw [List.cons_append, numeral, if_neg (ne_of_isDigit hb rfl)]
      exact hread

/-- A text of a numeral is read in front of anything that is no part of one. -/
theorem reads_numeral {x : Numeral} {text : Bytes} (h : NumeralText x text)
    (hrest : EndsNumeral rest) :
    Reads (numeral ended (text ++ rest)) x rest :=
  reads_numeral_iff.2 ⟨text, h, rfl, hrest.endsBefore x⟩

end Reading

/-! ## The value of digits -/

/-- Digits are all taken in when the number they end with is within the limit. -/
theorem absorb_eq {limit : Nat} (ds : Bytes) (k : Nat)
    (h : ds.foldl (fun n b => n * 10 + digit b) k ≤ limit) :
    absorb limit k ds = (ds.foldl (fun n b => n * 10 + digit b) k, []) := by
  -- On the way the number never falls, so every step is within the limit too.
  have grows : ∀ (ds : Bytes) (k : Nat), k ≤ ds.foldl (fun n b => n * 10 + digit b) k := by
    intro ds
    induction ds with
    | nil => exact fun k => Nat.le_refl k
    | cons b ds ih => exact fun k => Nat.le_trans (by omega) (ih (k * 10 + digit b))
  induction ds generalizing k with
  | nil => rfl
  | cons b ds ih =>
    rw [List.foldl_cons] at h ⊢
    rw [absorb, if_pos (Nat.le_trans (grows ds _) h)]
    exact ih _ h

/-- Only then. -/
theorem eq_of_absorb {limit : Nat} {ds : Bytes} {k n : Nat} (hk : k ≤ limit)
    (h : absorb limit k ds = (n, [])) :
    ds.foldl (fun n b => n * 10 + digit b) k = n ∧ n ≤ limit := by
  induction ds generalizing k with
  | nil =>
    obtain ⟨rfl, -⟩ := Prod.mk.inj h
    exact ⟨rfl, hk⟩
  | cons b ds ih =>
    rw [absorb] at h
    split at h
    next hb => exact ih hb h
    next => exact absurd (Prod.mk.inj h).2 (List.cons_ne_nil b ds)

theorem absorb_eq_iff {limit : Nat} {ds : Bytes} {n : Nat} :
    absorb limit 0 ds = (n, []) ↔ digitsValue ds = n ∧ n ≤ limit := by
  constructor
  · exact eq_of_absorb (Nat.zero_le limit)
  · rintro ⟨rfl, h⟩
    exact absorb_eq ds 0 h

/-- A spelling stands for an integer where it spells one that fits 64 bits, unsigned or signed. -/
theorem Numeral.integer?_eq_some_iff {x : Numeral} {z : Int} :
    x.integer? = some z ↔ x.Spells z ∧ -(maxSigned64 : Int) - 1 ≤ z ∧ z ≤ maxUnsigned64 := by
  have hs : maxSigned64 = 9223372036854775807 := by decide
  have hu : maxUnsigned64 = 18446744073709551615 := by decide
  rw [integer?]
  by_cases hparts : x.fraction ≠ [] ∨ x.exponent.isSome
  · rw [if_pos hparts]
    refine ⟨nofun, fun ⟨h, _⟩ => ?_⟩
    rw [h.fraction, h.exponent] at hparts
    exact absurd hparts (by decide)
  rw [if_neg hparts]
  obtain ⟨hf, he⟩ := not_or.1 hparts
  replace hf := Decidable.not_not.1 hf
  replace he : x.exponent = none := by simpa using he
  constructor
  · intro h
    split at h
    next n hn =>
      obtain ⟨rfl, hn⟩ := absorb_eq_iff.1 hn
      split at h
      next hsign =>
        cases h
        exact ⟨⟨hf, he, fun h => absurd (hsign.symm.trans h) (by decide), by rw [hsign]; rfl⟩,
          by omega, by omega⟩
      next hsign =>
        replace hsign := Bool.eq_true_of_not_eq_false hsign
        split at h
        next hbounds =>
          cases h
          exact ⟨⟨hf, he, fun _ => Nat.ne_of_gt hbounds.1, by rw [hsign]; rfl⟩, by omega, by omega⟩
        next => cases h
    next => cases h
  · rintro ⟨⟨-, -, hnonzero, hvalue⟩, hlow, hhigh⟩
    have hfits : digitsValue x.whole ≤ maxUnsigned64 := by
      split at hvalue <;> omega
    simp only [absorb_eq_iff.2 ⟨rfl, hfits⟩]
    cases hsign : x.negative with
    | false =>
      rw [hsign] at hvalue
      rw [if_pos rfl, hvalue]
      rfl
    | true =>
      rw [hsign] at hvalue hnonzero
      replace hvalue : z = -(digitsValue x.whole : Int) := hvalue
      have hpos := Nat.pos_of_ne_zero (hnonzero rfl)
      rw [if_neg (by decide), if_pos ⟨hpos, by omega⟩, hvalue]

/-- What a spelling stands for does not depend on what comes behind. -/
theorem Numeral.value_eq_ok {x : Numeral} {rest : Bytes} {v : Number} (h : x.value rest = .ok v)
    (rest' : Bytes) : x.value rest' = .ok v := by
  rw [value] at h ⊢
  cases hz : x.integer? with
  | some z =>
    rw [hz] at h
    exact h
  | none =>
    rw [hz] at h
    simp only [float] at h ⊢
    split at h
    next e he =>
      split at h
      next m hm => exact h
      next => cases h
    next negative left he =>
      split at h
      next => cases h
      next hz =>
        rw [if_neg hz]
        exact h

/-! ## Integers -/

/-- How an integer is written: its digits, behind a minus if it is negative. -/
theorem encode_toString (z : Int) : Utf8.encode (toString z) =
    if 0 ≤ z then decimal z.natAbs else minus :: decimal z.natAbs := by
  cases z with
  | ofNat k =>
    rw [if_pos (show 0 ≤ Int.ofNat k from Int.natCast_nonneg k)]
    rfl
  | negSucc k =>
    rw [if_neg (by omega)]
    show Utf8.encode ("-" ++ (k + 1).repr) = _
    rw [Utf8.encode_append]
    rfl

/-- A written integer begins with a minus or a digit. -/
theorem encode_toString_leads (z : Int) : ∃ b t, Utf8.encode (toString z) = b :: t ∧
    (b = minus ∨ isDigit b = true) := by
  obtain ⟨b, t, hbt, hb, -⟩ := decimal_leads z.natAbs
  rw [encode_toString, hbt]
  split
  · exact ⟨b, t, rfl, .inr hb⟩
  · exact ⟨minus, b :: t, rfl, .inl rfl⟩

/-- A written integer is a numeral that spells it. -/
theorem exists_numeralText (z : Int) :
    ∃ x, NumeralText x (Utf8.encode (toString z)) ∧ x.Spells z := by
  have hunsigned : ∀ negative,
      UnsignedText ⟨negative, decimal z.natAbs, [], none⟩ (decimal z.natAbs) := by
    intro negative
    obtain ⟨b, t, hbt, -, hpos, hzero⟩ := decimal_leads z.natAbs
    have hne : decimal z.natAbs ≠ [] := hbt ▸ List.cons_ne_nil b t
    have hwhole : WholeDigits (decimal z.natAbs) := by
      refine ⟨⟨hne, fun b hb => isDigit_of_mem_decimal hb⟩, fun u hu => ?_⟩
      -- Digits that begin with a zero are those of zero.
      obtain ⟨rfl, rfl⟩ := List.cons.inj (hbt.symm.trans hu)
      rcases Nat.eq_zero_or_pos z.natAbs with h0 | h0
      · exact hzero h0
      · exact absurd rfl (hpos h0)
    have h :=
      UnsignedText.intro (x := ⟨negative, decimal z.natAbs, [], none⟩) hwhole .absent .absent
    rwa [List.append_nil, List.append_nil] at h
  rw [encode_toString]
  split
  next hz =>
    refine ⟨_, .positive rfl (hunsigned false), rfl, rfl, nofun, ?_⟩
    rw [digitsValue_decimal]
    show z = (z.natAbs : Int)
    omega
  next hz =>
    refine ⟨_, .negative rfl (hunsigned true), rfl, rfl, fun _ => ?_, ?_⟩
    · rw [digitsValue_decimal]
      omega
    · rw [digitsValue_decimal]
      show z = -(z.natAbs : Int)
      omega

/-- An integer within the 64-bit ranges reads back. -/
theorem reads_number {z : Int} (hl : -(maxSigned64 : Int) - 1 ≤ z) (hh : z ≤ maxUnsigned64)
    {rest : Bytes} (h : EndsNumeral rest) :
    Reads (number (Utf8.encode (toString z) ++ rest)) (.integer z) rest := by
  obtain ⟨x, htext, hx⟩ := exists_numeralText z
  refine (reads_numeral htext h).bind fun hn => ?_
  rw [Numeral.value, Numeral.integer?_eq_some_iff.2 ⟨hx, hl, hh⟩]
  exact .intro hn

theorem isBlank_of_leads {b : UInt8} (h : b = minus ∨ isDigit b = true) :
    isBlank b = false ∧ b ≠ closeList := by
  rcases h with rfl | h
  · decide
  · refine ⟨?_, ne_of_isDigit h rfl⟩
    rw [isBlank, beq_false_of_ne (ne_of_isDigit h rfl), beq_false_of_ne (ne_of_isDigit h rfl),
      beq_false_of_ne (ne_of_isDigit h rfl), beq_false_of_ne (ne_of_isDigit h rfl)]
    rfl

/-- An integer within the bounds of its type reads back. -/
theorem reads_integer {low high z : Int} (expected : String) (hlow : -(maxSigned64 : Int) - 1 ≤ low)
    (hhigh : high ≤ maxUnsigned64) (hl : low ≤ z) (hh : z ≤ high) {rest : Bytes}
    (h : EndsNumeral rest) :
    Reads (integer low high expected (Utf8.encode (toString z) ++ rest)) z rest := by
  have hread := reads_number (Int.le_trans hlow hl) (Int.le_trans hh hhigh) h
  obtain ⟨b, t, hbt, hlead⟩ := encode_toString_leads z
  revert hread
  rw [hbt, List.cons_append, integer]
  intro hread
  refine .byte (isBlank_of_leads hlead).1 fun _ => ?_
  rw [if_pos hlead]
  refine hread.bind fun hn => ?_
  dsimp only
  rw [if_pos ⟨hl, hh⟩]
  exact .intro hn

/-- Signed 64-bit integers are faithful. -/
theorem Codec.faithful_int64 : Codec.int64.Faithful := by
  intro z
  have hl : -(maxSigned64 : Int) - 1 ≤ z.toInt := z.minValue_le_toInt
  have hh : z.toInt ≤ maxSigned64 := z.toInt_le
  refine ⟨toString z.toInt, rfl, ?_, fun rest h => ?_⟩
  · obtain ⟨b, t, hbt, hlead⟩ := encode_toString_leads z.toInt
    exact ⟨b, t, hbt, isBlank_of_leads hlead⟩
  · have hread := (reads_integer "i64" (Int.le_refl _) (by decide) hl hh h).map Int64.ofInt
    rw [Int64.ofInt_toInt] at hread
    exact hread

end Switchboard.Json
