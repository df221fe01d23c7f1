/-
  What a reading gives, without its bound.

  A reading carries a proof that bytes were used up.  `Reads r a rest` forgets it: the reading `r`
  gives the value `a` and leaves `rest`.  One lemma for each way in which readers are built says how
  this passes from the parts to the whole:

    * `Reads.map`, `Reads.within`, `Reads.bind`  the plumbing between readers;
    * `Reads.first`, `Reads.byte`  a reader that looks at the first byte that is no blank;
    * `Reads.document` a reader of a whole document.

  `reads_map_iff`, `Reads.of_bind`, `Reads.of_first` and their like go back from the whole to the
  parts.  The last section says when a codec is faithful: what it writes reads back, whatever comes
  behind.
-/
import Switchboard.Json.Codec
import Switchboard.Proofs.Text.Utf8

namespace Switchboard.Json

variable {α β : Type} {m n : Nat}

/-! ## Readings -/

/-- The reading gives `a` and leaves `rest`. -/
def Reads (reading : Reading α n) (a : α) (rest : Bytes) : Prop := ∃ h, reading = .ok ⟨a, rest, h⟩

theorem Reads.intro {a : α} {rest : Bytes} (h : rest.length < n) :
    Reads (.ok ⟨a, rest, h⟩ : Reading α n) a rest := ⟨h, rfl⟩

theorem Reads.map {r : Reading α n} {a : α} {rest : Bytes} (f : α → β) (hr : Reads r a rest) :
    Reads (Except.map (Read.map f) r) (f a) rest := by
  obtain ⟨h, rfl⟩ := hr
  exact ⟨h, rfl⟩

theorem Reads.within {r : Reading α m} {a : α} {rest : Bytes} (hr : Reads r a rest) (h : m ≤ n) :
    Reads (Except.map (Read.within · h) r) a rest := by
  obtain ⟨hm, rfl⟩ := hr
  exact ⟨Nat.lt_of_lt_of_le hm h, rfl⟩

theorem Reads.bind {r : Reading α m} {a : α} {s rest : Bytes}
    {next : Read α m → Reading β n} {b : β}
    (hr : Reads r a s) (hnext : ∀ h, Reads (next ⟨a, s, h⟩) b rest) :
    Reads (r >>= next) b rest := by
  obtain ⟨h, rfl⟩ := hr
  exact hnext h

/-! ## First bytes -/

/-- A text that begins with neither a blank nor a closing bracket, as every value does. -/
def Opens (s : Bytes) : Prop := ∃ b t, s = b :: t ∧ isBlank b = false ∧ b ≠ closeList

theorem skipBlanks_cons {b : UInt8} (h : isBlank b = false) (s : Bytes) :
    skipBlanks (b :: s) = b :: s := by
  rw [skipBlanks, List.dropWhile_cons, h]
  rfl

theorem Reads.first {ended : Cause} {s r : Bytes} {b : UInt8}
    {go : (b : UInt8) → (r : Bytes) → r.length < s.length → Reading α n} {a : α} {rest : Bytes}
    (hs : skipBlanks s = b :: r) (hgo : ∀ h, Reads (go b r h) a rest) :
    Reads (withFirst ended s go) a rest := by
  rw [withFirst_cons hs]
  exact hgo _

theorem Reads.byte {ended : Cause} {r : Bytes} {b : UInt8}
    {go : (c : UInt8) → (t : Bytes) → t.length < (b :: r).length → Reading α n}
    {a : α} {rest : Bytes} (hb : isBlank b = false) (hgo : ∀ h, Reads (go b r h) a rest) :
    Reads (withFirst ended (b :: r) go) a rest :=
  .first (skipBlanks_cons hb r) hgo

/-- A document is read when its reader reads it to the end. -/
theorem Reads.document {reader : Reader α} {s : Bytes} {a : α} (h : Reads (reader s) a []) :
    document reader s = .ok a := by
  obtain ⟨_, h⟩ := h
  rw [Json.document, h]
  rfl

/-! ## Readings taken apart -/

theorem not_reads_error {f : Fault} {a : α} {rest : Bytes} :
    ¬Reads (.error f : Reading α n) a rest := by
  rintro ⟨_, h⟩
  cases h

theorem reads_ok_iff {x : Read α n} {a : α} {rest : Bytes} :
    Reads (.ok x : Reading α n) a rest ↔ x.value = a ∧ x.rest = rest := by
  constructor
  · rintro ⟨_, h⟩
    cases h
    exact ⟨rfl, rfl⟩
  · rintro ⟨rfl, rfl⟩
    exact ⟨x.shorter, rfl⟩

/-- A reading gives one value. -/
theorem Reads.unique {r : Reading α n} {a b : α} {s t : Bytes}
    (ha : Reads r a s) (hb : Reads r b t) :
    a = b ∧ s = t := by
  obtain ⟨_, rfl⟩ := ha
  exact reads_ok_iff.1 hb

theorem reads_map_iff {r : Reading α n} {f : α → β} {b : β} {rest : Bytes} :
    Reads (Except.map (Read.map f) r) b rest ↔ ∃ a, f a = b ∧ Reads r a rest := by
  constructor
  · intro h
    cases r with
    | error e => exact absurd h not_reads_error
    | ok x =>
      obtain ⟨rfl, rfl⟩ := reads_ok_iff.1 h
      exact ⟨x.value, rfl, reads_ok_iff.2 ⟨rfl, rfl⟩⟩
  · rintro ⟨a, rfl, h⟩
    exact h.map f

theorem reads_within_iff {r : Reading α m} (hmn : m ≤ n) {a : α} {rest : Bytes} :
    Reads (Except.map (Read.within · hmn) r) a rest ↔ Reads r a rest := by
  constructor
  · intro h
    cases r with
    | error e => exact absurd h not_reads_error
    | ok x =>
      obtain ⟨rfl, rfl⟩ := reads_ok_iff.1 h
      exact reads_ok_iff.2 ⟨rfl, rfl⟩
  · exact fun h => h.within hmn

/-- Both at once. -/
theorem reads_map_within_iff {r : Reading α m} {f : α → β} (hmn : m ≤ n) {b : β} {rest : Bytes} :
    Reads (Except.map (fun x => (Read.map f x).within hmn) r) b rest ↔
      ∃ a, f a = b ∧ Reads r a rest := by
  rw [← reads_map_iff (f := f), ← reads_within_iff hmn]
  cases r <;> rfl

/-- What two readers give one after another comes from both. -/
theorem Reads.of_bind {r : Reading α m} {next : Read α m → Reading β n} {b : β} {rest : Bytes}
    (h : Reads (r >>= next) b rest) :
    ∃ x : Read α m, Reads r x.value x.rest ∧ Reads (next x) b rest := by
  cases r with
  | error e => exact absurd h not_reads_error
  | ok x => exact ⟨x, reads_ok_iff.2 ⟨rfl, rfl⟩, h⟩

/-- A reader that looks at the first byte has found one. -/
theorem Reads.of_first {ended : Cause} {s : Bytes}
    {go : (b : UInt8) → (r : Bytes) → r.length < s.length → Reading α n} {a : α} {rest : Bytes}
    (h : Reads (withFirst ended s go) a rest) :
    ∃ b r, ∃ hr : r.length < s.length, skipBlanks s = b :: r ∧ Reads (go b r hr) a rest := by
  cases hs : skipBlanks s with
  | nil =>
    rw [withFirst_nil hs] at h
    exact absurd h not_reads_error
  | cons b r =>
    rw [withFirst_cons hs] at h
    exact ⟨b, r, length_lt_of_skipBlanks hs, rfl, h⟩

/-! ## Faithful codecs -/

/-- Bytes that do not go on with a numeral in front of them. -/
def EndsNumeral (rest : Bytes) : Prop :=
  ∀ b ∈ rest.head?, isDigit b = false ∧ b ≠ 0x2E ∧ b ≠ 0x65 ∧ b ≠ 0x45

theorem endsNumeral_nil : EndsNumeral [] := nofun

theorem endsNumeral_cons {b : UInt8} (s : Bytes)
    (h : isDigit b = false ∧ b ≠ 0x2E ∧ b ≠ 0x65 ∧ b ≠ 0x45) : EndsNumeral (b :: s) := by
  intro b' hb'
  cases hb'
  exact h

/-- What is written of `a` reads back, with anything behind it that is no part of a numeral. -/
def Codec.WritesBack (c : Codec α) (a : α) (text : String) : Prop :=
  c.write a = .ok text ∧ Opens (Utf8.encode text) ∧
    ∀ rest, EndsNumeral rest → Reads (c.read (Utf8.encode text ++ rest)) a rest

/-- Every value is written, and what is written reads back. -/
def Codec.Faithful (c : Codec α) : Prop := ∀ a, ∃ text, c.WritesBack a text

/-- A faithful codec gives a document for every value, which is the document of that value. -/
theorem Codec.Faithful.decode_encode {c : Codec α} (hc : c.Faithful) (a : α) :
    ∃ s, c.encode a = .ok s ∧ c.decode s = .ok a := by
  obtain ⟨text, hwrite, -, hread⟩ := hc a
  refine ⟨Utf8.encode text, by rw [encode, hwrite]; rfl, ?_⟩
  have h := hread [] endsNumeral_nil
  rw [List.append_nil] at h
  exact h.document

end Switchboard.Json
