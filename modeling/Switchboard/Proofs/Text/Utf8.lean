/-
  Texts come back from their bytes.

    * `next_encode`   the bytes of a character, with anything behind them, read as that character;
    * `next_iff`  and nothing else reads as it;
    * `le_of_mem_utf8EncodeChar`  the bytes of a character that is not ASCII lie above ASCII;
    * `encode_append`, `encode_ofList`  the bytes of a text are those of its parts in order;
    * `decodeLossy_encode`  the bytes of a text read as this text, and nothing in them is broken.

  The bytes are compared as numbers: a code point `Leads` with one first byte and has its other bits
  in its `tailBytes`, and the bounds that the first byte puts on the second are exactly those that
  leave out the code points of the other ranges.
-/
import Mathlib
import Switchboard.Text.Utf8

namespace Switchboard.Utf8

/-! ## Bytes of texts -/

@[simp] theorem encode_append (s t : String) : encode (s ++ t) = encode s ++ encode t := by
  rw [encode, encode, encode, String.toList_append, List.flatMap_append]

theorem encode_ofList (cs : List Char) :
    encode (String.ofList cs) = cs.flatMap String.utf8EncodeChar := by
  rw [encode, String.toList_ofList]

/-- The byte of an ASCII character is its number. -/
theorem utf8EncodeChar_ascii {c : Char} (h : c.toNat ≤ 0x7F) :
    String.utf8EncodeChar c = [UInt8.ofNat c.toNat] := by
  rw [String.utf8EncodeChar]
  exact if_pos h

/-! ## First bytes -/

theorem not_lt_of_toNat_le {b k : UInt8} (h : k.toNat ≤ b.toNat) : ¬b < k :=
  UInt8.not_lt.2 (UInt8.le_iff_toNat_le.2 h)

theorem toNat_le_of_not_lt {b k : UInt8} (h : ¬b < k) : k.toNat ≤ b.toNat :=
  UInt8.le_iff_toNat_le.1 (UInt8.not_lt.1 h)

/-- What a first byte announces, by the range it lies in. -/
inductive Announces (b : UInt8) : Lead → Prop where
  | one (hh : b.toNat < 0x80) : Announces b ⟨0, 0x80, 0xBF, b.toNat⟩
  | two (hl : 0xC2 ≤ b.toNat) (hh : b.toNat < 0xE0) : Announces b ⟨1, 0x80, 0xBF, b.toNat - 0xC0⟩
  | three (hl : 0xE0 ≤ b.toNat) (hh : b.toNat < 0xF0) :
      Announces b ⟨2, if b = 0xE0 then 0xA0 else 0x80, if b = 0xED then 0x9F else 0xBF,
        b.toNat - 0xE0⟩
  | four (hl : 0xF0 ≤ b.toNat) (hh : b.toNat < 0xF5) :
      Announces b ⟨3, if b = 0xF0 then 0x90 else 0x80, if b = 0xF4 then 0x8F else 0xBF,
        b.toNat - 0xF0⟩

theorem announces_of_lead? {b : UInt8} {l : Lead} (h : lead? b = some l) : Announces b l := by
  rw [lead?] at h
  split at h
  next h1 =>
    cases h
    exact .one (UInt8.lt_iff_toNat_lt.1 h1)
  split at h
  · cases h
  split at h
  next h2 h3 =>
    cases h
    exact .two (toNat_le_of_not_lt h2) (UInt8.lt_iff_toNat_lt.1 h3)
  split at h
  next h3 h4 =>
    cases h
    exact .three (toNat_le_of_not_lt h3) (UInt8.lt_iff_toNat_lt.1 h4)
  split at h
  next h4 h5 =>
    cases h
    exact .four (toNat_le_of_not_lt h4) (UInt8.lt_iff_toNat_lt.1 h5)
  · cases h

theorem lead?_of_announces {b : UInt8} {l : Lead} (h : Announces b l) : lead? b = some l := by
  cases h with
  | one hh =>
    have h1 : b < 0x80 := UInt8.lt_iff_toNat_lt.2 hh
    rw [lead?, if_pos h1]
  | two hl hh =>
    have h1 : ¬b < 0x80 := not_lt_of_toNat_le (Nat.le_trans (by decide) hl)
    have h2 : ¬b < 0xC2 := not_lt_of_toNat_le hl
    have h3 : b < 0xE0 := UInt8.lt_iff_toNat_lt.2 hh
    rw [lead?, if_neg h1, if_neg h2, if_pos h3]
  | three hl hh =>
    have h1 : ¬b < 0x80 := not_lt_of_toNat_le (Nat.le_trans (by decide) hl)
    have h2 : ¬b < 0xC2 := not_lt_of_toNat_le (Nat.le_trans (by decide) hl)
    have h3 : ¬b < 0xE0 := not_lt_of_toNat_le hl
    have h4 : b < 0xF0 := UInt8.lt_iff_toNat_lt.2 hh
    rw [lead?, if_neg h1, if_neg h2, if_neg h3, if_pos h4]
  | four hl hh =>
    have h1 : ¬b < 0x80 := not_lt_of_toNat_le (Nat.le_trans (by decide) hl)
    have h2 : ¬b < 0xC2 := not_lt_of_toNat_le (Nat.le_trans (by decide) hl)
    have h3 : ¬b < 0xE0 := not_lt_of_toNat_le (Nat.le_trans (by decide) hl)
    have h4 : ¬b < 0xF0 := not_lt_of_toNat_le hl
    have h5 : b < 0xF5 := UInt8.lt_iff_toNat_lt.2 hh
    rw [lead?, if_neg h1, if_neg h2, if_neg h3, if_neg h4, if_pos h5]

/-- The byte of a number that fits one. -/
theorem toNat_byte {n : Nat} (h : n < 256) : (UInt8.ofNat n).toNat = n := UInt8.toNat_ofNat_of_lt' h

/-- A lower bound that is higher behind one first byte. -/
theorem low_le_iff {b k narrow wide : UInt8} {x : Nat} (hwide : wide.toNat ≤ narrow.toNat) :
    (if b = k then narrow else wide).toNat ≤ x ↔
      wide.toNat ≤ x ∧ (b.toNat = k.toNat → narrow.toNat ≤ x) := by
  split
  next hb => exact ⟨fun h => ⟨Nat.le_trans hwide h, fun _ => h⟩, fun h => h.2 (congrArg _ hb)⟩
  next hb => exact ⟨fun h => ⟨h, fun he => absurd (UInt8.toNat_inj.1 he) hb⟩, And.left⟩

/-- An upper bound that is lower behind one first byte. -/
theorem le_high_iff {b k narrow wide : UInt8} {x : Nat} (hwide : narrow.toNat ≤ wide.toNat) :
    x ≤ (if b = k then narrow else wide).toNat ↔
      x ≤ wide.toNat ∧ (b.toNat = k.toNat → x ≤ narrow.toNat) := by
  split
  next hb => exact ⟨fun h => ⟨Nat.le_trans h hwide, fun _ => h⟩, fun h => h.2 (congrArg _ hb)⟩
  next hb => exact ⟨fun h => ⟨h, fun he => absurd (UInt8.toNat_inj.1 he) hb⟩, And.left⟩

/-! ## Tail bytes -/

/-- The last `n` bytes of the longer characters: each has six bits of the code point. -/
def tailBytes : (n : Nat) → (v : Nat) → Bytes
  | 0, _ => []
  | n + 1, v => UInt8.ofNat (v / 64 ^ n % 64 + 128) :: tailBytes n v

/-- The bits of some tail bytes are those of the first and those of the others. -/
theorem tail_bits (n v : Nat) : v % 64 ^ (n + 1) = v / 64 ^ n % 64 * 64 ^ n + v % 64 ^ n := by
  rw [Nat.pow_succ, Nat.mod_mul, Nat.mul_comm, Nat.add_comm]

/-- Tail bytes have no other bits. -/
theorem tailBytes_congr {n v w : Nat} (h : v % 64 ^ n = w % 64 ^ n) :
    tailBytes n v = tailBytes n w := by
  induction n with
  | zero => rfl
  | succ n ih =>
    have hfirst : v / 64 ^ n % 64 = w / 64 ^ n % 64 := by
      rw [← Nat.mod_mul_right_div_self, ← Nat.mod_mul_right_div_self, ← Nat.pow_succ, h]
    have hrest : v % 64 ^ n = w % 64 ^ n := by
      rw [tail_bits, tail_bits, hfirst] at h
      exact Nat.add_left_cancel h
    rw [tailBytes, tailBytes, hfirst, ih hrest]

theorem le_of_mem_tailBytes {n v : Nat} {b : UInt8} (h : b ∈ tailBytes n v) : 0x80 ≤ b.toNat := by
  induction n with
  | zero => cases h
  | succ n ih =>
    rcases List.mem_cons.1 h with rfl | h
    · rw [toNat_byte (by omega)]
      exact Nat.le_add_left _ _
    · exact ih h

/-- Tail bytes are read where the first of them fits its range; the others always do. -/
theorem readTails_tailBytes {n : Nat} {low high : UInt8} {bits v : Nat} (s : Bytes)
    (hfirst : ∀ m,
      n = m + 1 → low.toNat ≤ v / 64 ^ m % 64 + 128 ∧ v / 64 ^ m % 64 + 128 ≤ high.toNat) :
    readTails n low high bits (tailBytes n v ++ s) =
      (some (Char.ofNat (bits * 64 ^ n + v % 64 ^ n)), s) := by
  induction n generalizing low high bits with
  | zero =>
    rw [Nat.pow_zero, Nat.mod_one, Nat.mul_one]
    rfl
  | succ n ih =>
    obtain ⟨hl, hh⟩ := hfirst n rfl
    have hbyte : (UInt8.ofNat (v / 64 ^ n % 64 + 128)).toNat = v / 64 ^ n % 64 + 128 :=
      toNat_byte (by omega)
    have hfits : low ≤ UInt8.ofNat (v / 64 ^ n % 64 + 128) ∧
        UInt8.ofNat (v / 64 ^ n % 64 + 128) ≤ high := by
      rw [UInt8.le_iff_toNat_le, UInt8.le_iff_toNat_le, hbyte]
      exact ⟨hl, hh⟩
    have hwide : ∀ m, n = m + 1 → (0x80 : UInt8).toNat ≤ v / 64 ^ m % 64 + 128 ∧
        v / 64 ^ m % 64 + 128 ≤ (0xBF : UInt8).toNat := by
      intro m _
      refine ⟨Nat.le_add_left _ _, ?_⟩
      show _ ≤ 191
      omega
    have hbits : (v / 64 ^ n % 64 + 128) % 64 = v / 64 ^ n % 64 := by omega
    rw [tailBytes, List.cons_append, readTails, if_pos hfits, ih hwide, hbyte, hbits, tail_bits]
    congr 3
    ring

/-- What has been read as tail bytes are the tail bytes of their value. -/
theorem exists_tailBytes {n : Nat} {low high : UInt8} {bits : Nat} {s t : Bytes} {c : Char}
    (hlow : 0x80 ≤ low.toNat) (hhigh : high.toNat ≤ 0xBF)
    (h : readTails n low high bits s = (some c, t)) :
    ∃ v < 64 ^ n, s = tailBytes n v ++ t ∧ Char.ofNat (bits * 64 ^ n + v) = c ∧
      ∀ m, n = m + 1 → low.toNat ≤ v / 64 ^ m + 128 ∧ v / 64 ^ m + 128 ≤ high.toNat := by
  induction n generalizing low high bits s with
  | zero =>
    cases h
    exact ⟨0, Nat.one_pos, rfl, by rw [Nat.pow_zero, Nat.mul_one, Nat.add_zero], nofun⟩
  | succ n ih =>
    cases s with
    | nil => cases h
    | cons b r =>
      rw [readTails] at h
      split at h
      next hfits =>
        rw [UInt8.le_iff_toNat_le, UInt8.le_iff_toNat_le] at hfits
        obtain ⟨w, hw, rfl, rfl, -⟩ := ih (by decide) (by decide) h
        have hpositive : 0 < 64 ^ n := Nat.pow_pos (by decide)
        have hfirst : (b.toNat % 64 * 64 ^ n + w) / 64 ^ n = b.toNat % 64 := by
          rw [Nat.add_comm, Nat.add_mul_div_right _ _ hpositive, Nat.div_eq_of_lt hw, Nat.zero_add]
        refine ⟨b.toNat % 64 * 64 ^ n + w, ?_, ?_, ?_, ?_⟩
        · have hsix : b.toNat % 64 + 1 ≤ 64 := by omega
          have hle : (b.toNat % 64 + 1) * 64 ^ n ≤ 64 * 64 ^ n := Nat.mul_le_mul_right _ hsix
          rw [Nat.add_mul, Nat.one_mul] at hle
          rw [Nat.pow_succ, Nat.mul_comm (64 ^ n) 64]
          omega
        · have hbyte : UInt8.ofNat (b.toNat % 64 % 64 + 128) = b := by
            have hvalue : b.toNat % 64 % 64 + 128 = b.toNat := by omega
            rw [hvalue, UInt8.ofNat_toNat]
          have hrest : tailBytes n (b.toNat % 64 * 64 ^ n + w) = tailBytes n w :=
            tailBytes_congr (Nat.mul_add_mod_self_right ..)
          rw [tailBytes, hfirst, hbyte, hrest, List.cons_append]
        · congr 1
          rw [Nat.pow_succ]
          ring
        · intro m hm
          cases hm
          rw [hfirst]
          exact ⟨by omega, by omega⟩
      next => cases h

/-! ## Bytes of characters -/

/-- The first byte of the bytes of a code point, as a number, and how many tail bytes are behind
    it. -/
inductive Leads (v : Nat) : (tails first : Nat) → Prop where
  | one (hh : v ≤ 0x7F) : Leads v 0 v
  | two (hl : 0x7F < v) (hh : v ≤ 0x7FF) : Leads v 1 (v / 64 ^ 1 + 192)
  | three (hl : 0x7FF < v) (hh : v ≤ 0xFFFF) : Leads v 2 (v / 64 ^ 2 + 224)
  | four (hl : 0xFFFF < v) : Leads v 3 (v / 64 ^ 3 + 240)

theorem exists_leads (v : Nat) : ∃ n first, Leads v n first := by
  by_cases h1 : v ≤ 0x7F
  · exact ⟨_, _, .one h1⟩
  by_cases h2 : v ≤ 0x7FF
  · exact ⟨_, _, .two (Nat.lt_of_not_le h1) h2⟩
  by_cases h3 : v ≤ 0xFFFF
  · exact ⟨_, _, .three (Nat.lt_of_not_le h2) h3⟩
  · exact ⟨_, _, .four (Nat.lt_of_not_le h3)⟩

/-- The code points of characters. -/
theorem codePoint_valid (c : Char) :
    c.val.toNat < 0xD800 ∨ 0xDFFF < c.val.toNat ∧ c.val.toNat < 0x110000 := c.valid

theorem utf8EncodeChar_of_leads {c : Char} {n first : Nat} (h : Leads c.val.toNat n first) :
    String.utf8EncodeChar c = UInt8.ofNat first :: tailBytes n c.val.toNat := by
  have hvalid := codePoint_valid c
  rw [String.utf8EncodeChar]
  generalize c.val.toNat = v at *
  cases h with
  | one hh => exact if_pos hh
  | two hl hh =>
    have hfirst : v / 64 ^ 1 = v / 64 % 32 := by omega
    rw [hfirst, tailBytes, Nat.pow_zero, Nat.div_one]
    exact (if_neg (by omega)).trans (if_pos hh)
  | three hl hh =>
    have hfirst : v / 64 ^ 2 = v / 4096 % 16 := by omega
    rw [hfirst, tailBytes, tailBytes, Nat.pow_one, Nat.pow_zero, Nat.div_one]
    exact (if_neg (by omega)).trans ((if_neg (by omega)).trans (if_pos hh))
  | four hl =>
    have hfirst : v / 64 ^ 3 = v / 262144 % 8 := by omega
    rw [hfirst, tailBytes, tailBytes, tailBytes, Nat.pow_one, Nat.pow_zero, Nat.div_one]
    exact (if_neg (by omega)).trans ((if_neg (by omega)).trans (if_neg (by omega)))

/-- Every byte of a character that is not ASCII lies above ASCII. -/
theorem le_of_mem_utf8EncodeChar {c : Char} (h : 0x7F < c.toNat) :
    ∀ b ∈ String.utf8EncodeChar c, 0x80 ≤ b.toNat := by
  intro b hb
  have hvalid := codePoint_valid c
  replace h : 0x7F < c.val.toNat := h
  obtain ⟨n, first, hleads⟩ := exists_leads c.val.toNat
  have hfirst : 0x80 ≤ first ∧ first < 256 := by cases hleads <;> omega
  rw [utf8EncodeChar_of_leads hleads] at hb
  rcases List.mem_cons.1 hb with rfl | hb
  · rw [toNat_byte hfirst.2]
    exact hfirst.1
  · exact le_of_mem_tailBytes hb

/-- A character has a first byte: the character itself if it is ASCII, and else one above ASCII. -/
theorem first_byte (c : Char) : ∃ b t, String.utf8EncodeChar c = b :: t ∧
    (c.toNat ≤ 0x7F ∧ b = UInt8.ofNat c.toNat ∧ t = [] ∨ 0x7F < c.toNat ∧ 0x80 ≤ b.toNat) := by
  by_cases h : c.toNat ≤ 0x7F
  · exact ⟨_, _, utf8EncodeChar_ascii h, .inl ⟨h, rfl, rfl⟩⟩
  · obtain ⟨b, t, hbt⟩ := List.exists_cons_of_ne_nil (String.utf8EncodeChar_ne_nil (c := c))
    have hb := le_of_mem_utf8EncodeChar (Nat.lt_of_not_le h) b (hbt ▸ List.mem_cons_self)
    exact ⟨b, t, hbt, .inr ⟨Nat.lt_of_not_le h, hb⟩⟩

/-- Where the first byte announces the high bits of a code point, and the first tail byte fits the
    range that it announces, this code point is read. -/
theorem next_of_lead {b low high : UInt8} {n v : Nat}
    (hlead : lead? b = some ⟨n + 1, low, high, v / 64 ^ (n + 1)⟩)
    (hlow : low.toNat ≤ v / 64 ^ n % 64 + 128)
    (hhigh : v / 64 ^ n % 64 + 128 ≤ high.toNat) (s : Bytes) :
    next b (tailBytes (n + 1) v ++ s) = (some (Char.ofNat v), s) := by
  have hfirst : ∀ m, n + 1 = m + 1 →
      low.toNat ≤ v / 64 ^ m % 64 + 128 ∧ v / 64 ^ m % 64 + 128 ≤ high.toNat := by
    intro m hm
    cases hm
    exact ⟨hlow, hhigh⟩
  rw [next, hlead]
  refine (readTails_tailBytes s hfirst).trans ?_
  rw [Nat.div_add_mod']

/-- The bytes of a code point read as it.  The narrower ranges of the first tail byte leave out only
    the shorter characters, the surrogates and the values above the largest. -/
theorem next_of_leads {v n first : Nat} (h : Leads v n first)
    (hvalid : v < 0xD800 ∨ 0xDFFF < v ∧ v < 0x110000) (s : Bytes) :
    next (UInt8.ofNat first) (tailBytes n v ++ s) = (some (Char.ofNat v), s) := by
  have hbyte : (UInt8.ofNat first).toNat = first := toNat_byte (by cases h <;> omega)
  generalize UInt8.ofNat first = b at hbyte ⊢
  cases h with
  | one hh =>
    have hascii : Announces b _ := .one (by omega)
    rw [next, lead?_of_announces hascii, hbyte]
    rfl
  | two hl hh =>
    have hlead := lead?_of_announces (Announces.two (b := b) (by omega) (by omega))
    rw [hbyte, Nat.add_sub_cancel] at hlead
    refine next_of_lead hlead (Nat.le_add_left _ _) ?_ s
    show _ ≤ 191
    omega
  | three hl hh =>
    have hlead := lead?_of_announces (Announces.three (b := b) (by omega) (by omega))
    rw [hbyte, Nat.add_sub_cancel] at hlead
    refine next_of_lead hlead ((low_le_iff (by decide)).2 ?_) ((le_high_iff (by decide)).2 ?_) s
    · show 128 ≤ _ ∧ (b.toNat = 224 → 160 ≤ _)
      omega
    · show _ ≤ 191 ∧ (b.toNat = 237 → _ ≤ 159)
      omega
  | four hl =>
    have hlead := lead?_of_announces (Announces.four (b := b) (by omega) (by omega))
    rw [hbyte, Nat.add_sub_cancel] at hlead
    refine next_of_lead hlead ((low_le_iff (by decide)).2 ?_) ((le_high_iff (by decide)).2 ?_) s
    · show 128 ≤ _ ∧ (b.toNat = 240 → 144 ≤ _)
      omega
    · show _ ≤ 191 ∧ (b.toNat = 244 → _ ≤ 143)
      omega

/-- **Characters come back.**  The bytes of a character, with anything behind them, read as it. -/
theorem next_encode (c : Char) (s : Bytes) :
    ∃ b t, String.utf8EncodeChar c = b :: t ∧ next b (t ++ s) = (some c, s) := by
  obtain ⟨n, first, hleads⟩ := exists_leads c.val.toNat
  refine ⟨_, _, utf8EncodeChar_of_leads hleads, ?_⟩
  rw [next_of_leads hleads (codePoint_valid c)]
  exact Prod.ext (congrArg some (Char.ofNat_toNat c)) rfl

/-! ## Characters from their bytes -/

/-- The number of a character whose number is a character. -/
theorem val_ofNat {v : Nat} (h : v < 0xD800 ∨ 0xDFFF < v ∧ v < 0x110000) :
    (Char.ofNat v).val.toNat = v := by
  have hvalid : v.isValidChar := h
  show (Char.ofNat v).toNat = v
  rw [Char.toNat_ofNat, if_pos hvalid]

/-- A first byte and tail bytes whose value it leads are the bytes of a character. -/
theorem encode_of_leads {b : UInt8} {n bits v first : Nat}
    (hleads : Leads (bits * 64 ^ n + v) n first) (hfirst : first = b.toNat)
    (hvalid : bits * 64 ^ n + v < 0xD800 ∨ 0xDFFF < bits * 64 ^ n + v ∧
      bits * 64 ^ n + v < 0x110000)
    (t : Bytes) :
    b :: (tailBytes n v ++ t) = String.utf8EncodeChar (Char.ofNat (bits * 64 ^ n + v)) ++ t := by
  have hcode := val_ofNat hvalid
  have htails : tailBytes n (bits * 64 ^ n + v) = tailBytes n v :=
    tailBytes_congr (Nat.mul_add_mod_self_right ..)
  rw [utf8EncodeChar_of_leads (hcode.symm ▸ hleads), hfirst, hcode, UInt8.ofNat_toNat,
    htails, List.cons_append]

/-- What is read as a character are its bytes. -/
theorem encode_of_next {b : UInt8} {s t : Bytes} {c : Char} (h : next b s = (some c, t)) :
    b :: s = String.utf8EncodeChar c ++ t := by
  rw [next] at h
  split at h
  next l hlead =>
    -- One case for each number of tail bytes; the ranges of the bytes are the range of the code
    -- point.
    cases announces_of_lead? hlead with
    | one hh =>
      cases h
      have hv : (Char.ofNat b.toNat).toNat = b.toNat := val_ofNat (by omega)
      show _ = String.utf8EncodeChar (Char.ofNat b.toNat) ++ s
      rw [utf8EncodeChar_ascii (by omega), hv, UInt8.ofNat_toNat, List.singleton_append]
    | two hl hh =>
      dsimp only at h
      obtain ⟨v, hv, rfl, rfl, -⟩ := exists_tailBytes (by decide) (by decide) h
      have hleads : Leads ((b.toNat - 192) * 64 ^ 1 + v) 1 _ := .two (by omega) (by omega)
      exact encode_of_leads hleads (by omega) (by omega) t
    | three hl hh =>
      dsimp only at h
      obtain ⟨v, hv, rfl, rfl, hrange⟩ :=
        exists_tailBytes (by split <;> decide) (by split <;> decide) h
      obtain ⟨hlow, hhigh⟩ := hrange 1 rfl
      replace hlow : 128 ≤ _ ∧ (b.toNat = 224 → 160 ≤ _) := (low_le_iff (by decide)).1 hlow
      replace hhigh : _ ≤ 191 ∧ (b.toNat = 237 → _ ≤ 159) := (le_high_iff (by decide)).1 hhigh
      have hleads : Leads ((b.toNat - 224) * 64 ^ 2 + v) 2 _ := .three (by omega) (by omega)
      exact encode_of_leads hleads (by omega) (by omega) t
    | four hl hh =>
      dsimp only at h
      obtain ⟨v, hv, rfl, rfl, hrange⟩ :=
        exists_tailBytes (by split <;> decide) (by split <;> decide) h
      obtain ⟨hlow, hhigh⟩ := hrange 2 rfl
      replace hlow : 128 ≤ _ ∧ (b.toNat = 240 → 144 ≤ _) := (low_le_iff (by decide)).1 hlow
      replace hhigh : _ ≤ 191 ∧ (b.toNat = 244 → _ ≤ 143) := (le_high_iff (by decide)).1 hhigh
      have hleads : Leads ((b.toNat - 240) * 64 ^ 3 + v) 3 _ := .four (by omega)
      exact encode_of_leads hleads (by omega) (by omega) t
  next => cases h

/-- A character is read where its bytes stand, and only there. -/
theorem next_iff {b : UInt8} {s t : Bytes} {c : Char} :
    next b s = (some c, t) ↔ b :: s = String.utf8EncodeChar c ++ t := by
  constructor
  · exact encode_of_next
  · intro h
    obtain ⟨b', t', hbytes, hnext⟩ := next_encode c t
    rw [hbytes, List.cons_append] at h
    obtain ⟨rfl, rfl⟩ := List.cons.inj h
    exact hnext

/-! ## Whole texts -/

theorem piecesOnto_encode (found : List (Option Char)) (cs : List Char) :
    piecesOnto found (cs.flatMap String.utf8EncodeChar) = found.reverse ++ cs.map some := by
  induction cs generalizing found with
  | nil =>
    rw [List.flatMap_nil, piecesOnto, List.map_nil, List.append_nil]
  | cons c cs ih =>
    obtain ⟨b, t, hbytes, hnext⟩ := next_encode c (cs.flatMap String.utf8EncodeChar)
    rw [List.flatMap_cons, hbytes, List.cons_append, piecesOnto, hnext, ih, List.reverse_cons,
      List.append_assoc, List.map_cons]
    rfl

/-- The pieces of the bytes of a text are its characters. -/
theorem pieces_encode (s : String) : pieces (encode s) = s.toList.map some := by
  rw [pieces, encode, piecesOnto_encode]
  rfl

theorem decodeLossy_encode (s : String) : decodeLossy (encode s) = s := by
  rw [decodeLossy, pieces_encode, List.map_map]
  have hchars : (Option.getD · '\uFFFD') ∘ some = id := rfl
  rw [hchars, List.map_id, String.ofList_toList]

/-- The bytes of a text read as that text. -/
theorem decode?_encode (s : String) : decode? (encode s) = some s := by
  have hall : ∀ cs : List Char, (cs.map some).mapM id = some cs := by
    intro cs
    induction cs with
    | nil => rfl
    | cons c cs ih => rw [List.map_cons, List.mapM_cons, ih]; rfl
  rw [decode?, pieces_encode, hall, Option.map_some, String.ofList_toList]

/-- Different texts have different bytes. -/
theorem encode_injective {s t : String} (h : encode s = encode t) : s = t := by
  have hread := congrArg decode? h
  rw [decode?_encode, decode?_encode] at hread
  exact Option.some.inj hread

/-- Bytes below 0x80 are a text. -/
theorem exists_encode_of_ascii {s : Bytes} (h : ∀ b ∈ s, b.toNat < 0x80) :
    ∃ text, encode text = s := by
  have hascii : ∀ n < 128, (Char.ofNat n).toNat = n := by decide
  refine ⟨String.ofList (s.map fun b => Char.ofNat b.toNat), ?_⟩
  rw [encode_ofList]
  induction s with
  | nil => rfl
  | cons b s ih =>
    have hb : b.toNat < 0x80 := h b List.mem_cons_self
    have hchar : (Char.ofNat b.toNat).toNat = b.toNat := hascii b.toNat hb
    rw [List.map_cons, List.flatMap_cons, utf8EncodeChar_ascii (by omega), hchar, UInt8.ofNat_toNat,
      ih fun x hx => h x (List.mem_cons_of_mem _ hx)]
    rfl

end Switchboard.Utf8
