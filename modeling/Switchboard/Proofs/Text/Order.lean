/-
  Texts are ordered as their bytes are.

  1. **Tail bytes** — one tail byte carries six bits, so any number of tail bytes in front of
     anything are ordered as the low bits of their code points (`tailBytes_lt`).

  2. **Characters** — the first byte of a longer character is larger than that of a shorter one, and
     within one length the first byte carries the high bits (`Leads.lt`, `utf8EncodeChar_lt`).

  3. **Texts** — `encode_lt`.
-/
import Switchboard.Proofs.Text.Utf8

namespace Switchboard.Utf8

/-- Bytes are compared one by one, as numbers. -/
theorem byte_cons_lt {a b : Nat} (ha : a < 256) (hb : b < 256) {s t : Bytes}
    (h : a < b ∨ a = b ∧ s < t) :
    UInt8.ofNat a :: s < UInt8.ofNat b :: t := by
  rw [List.cons_lt_cons_iff]
  rcases h with h | ⟨rfl, h⟩
  · refine .inl (UInt8.lt_iff_toNat_lt.2 ?_)
    rw [toNat_byte ha, toNat_byte hb]
    exact h
  · exact .inr ⟨rfl, h⟩

/-! ## Tail bytes -/

/-- The first tail byte in which the low bits of two code points differ decides. -/
theorem tailBytes_lt {n v w : Nat} (h : v % 64 ^ n < w % 64 ^ n) (s t : Bytes) :
    tailBytes n v ++ s < tailBytes n w ++ t := by
  induction n with
  | zero =>
    rw [Nat.pow_zero, Nat.mod_one, Nat.mod_one] at h
    exact absurd h (Nat.lt_irrefl 0)
  | succ n ih =>
    rw [tailBytes, tailBytes, List.cons_append, List.cons_append]
    rw [tail_bits, tail_bits] at h
    apply byte_cons_lt (by omega) (by omega)
    by_cases hsame : v / 64 ^ n % 64 = w / 64 ^ n % 64
    · rw [hsame] at h
      exact .inr ⟨by rw [hsame], ih (Nat.lt_of_add_lt_add_left h)⟩
    · left
      by_contra hnot
      have hless : w / 64 ^ n % 64 + 1 ≤ v / 64 ^ n % 64 := by omega
      have hbits := Nat.mul_le_mul_right (64 ^ n) hless
      rw [Nat.add_mul, Nat.one_mul] at hbits
      have hlow : w % 64 ^ n < 64 ^ n := Nat.mod_lt _ (Nat.pow_pos (by decide))
      omega

/-! ## Characters -/

/-- Of two code points the smaller one has the smaller first byte, or they have the same and the low
    bits decide. -/
theorem Leads.lt {v w n m first other : Nat} (hv : Leads v n first) (hw : Leads w m other)
    (hbound : w < 0x110000) (h : v < w) :
    first < other ∨ first = other ∧ n = m ∧ v % 64 ^ n < w % 64 ^ n := by
  cases hv <;> cases hw <;> omega

/-- The bytes of a smaller character are smaller, whatever follows them. -/
theorem utf8EncodeChar_lt {c d : Char} (h : c < d) (s t : Bytes) :
    String.utf8EncodeChar c ++ s < String.utf8EncodeChar d ++ t := by
  have hlt : c.val.toNat < d.val.toNat := UInt32.lt_iff_toNat_lt.1 h
  have hvalid := codePoint_valid d
  obtain ⟨n, first, hc⟩ := exists_leads c.val.toNat
  obtain ⟨m, other, hd⟩ := exists_leads d.val.toNat
  have hfirst : first < 256 := by cases hc <;> omega
  have hother : other < 256 := by cases hd <;> omega
  rw [utf8EncodeChar_of_leads hc, utf8EncodeChar_of_leads hd, List.cons_append, List.cons_append]
  apply byte_cons_lt hfirst hother
  rcases hc.lt hd (by omega) hlt with hless | ⟨hsame, rfl, hbits⟩
  · exact .inl hless
  · exact .inr ⟨hsame, tailBytes_lt hbits s t⟩

/-! ## Texts -/

theorem flatMap_utf8EncodeChar_lt {cs ds : List Char} (h : cs < ds) :
    cs.flatMap String.utf8EncodeChar < ds.flatMap String.utf8EncodeChar := by
  induction cs generalizing ds with
  | nil =>
    cases ds with
    | nil => exact absurd h (List.lt_irrefl _)
    | cons d ds =>
      obtain ⟨b, t, hbytes, -⟩ := next_encode d []
      rw [List.flatMap_nil, List.flatMap_cons, hbytes]
      exact List.nil_lt_cons _ _
  | cons c cs ih =>
    cases ds with
    | nil => exact absurd h (List.not_lt_nil _)
    | cons d ds =>
      rw [List.flatMap_cons, List.flatMap_cons]
      rcases List.cons_lt_cons_iff.1 h with hlt | ⟨rfl, hlt⟩
      · exact utf8EncodeChar_lt hlt _ _
      · exact List.append_left_lt (ih hlt)

/-- **Byte order.**  A smaller text has smaller bytes. -/
theorem encode_lt {s t : String} (h : s < t) : encode s < encode t :=
  flatMap_utf8EncodeChar_lt (String.lt_iff.1 h)

end Switchboard.Utf8
