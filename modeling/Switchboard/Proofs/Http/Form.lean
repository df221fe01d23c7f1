/-
  Names and values come back from the query that holds them.

  1. **Bytes** — every byte of a text is written as one byte that stands for itself, as a plus sign,
     or as an escape of three bytes.  `unescapeOnto_writtenByte` undoes each of them in front of
     anything, and none of them has an ampersand or an equals sign in it (`writtenByte_marks`).

  2. **Pairs** — so a written pair is one piece, which reads as the pair (`decode_encodePair`).

  3. **Queries** — an ampersand cuts a query in two (`decode_append`).
-/
import Switchboard.Http.Form
import Switchboard.Proofs.Text.Utf8

namespace Switchboard.Http.Form

/-! ## Bytes -/

/-- What is written for one byte of a text. -/
def writtenByte (b : UInt8) : Bytes := (encodeByte b).flatMap String.utf8EncodeChar

/-- What is written for a text. -/
def written (s : String) : Bytes := (Utf8.encode s).flatMap writtenByte

theorem encode_encode (s : String) : Utf8.encode (encode s) = written s := by
  rw [encode, Utf8.encode_ofList, List.flatMap_assoc]
  rfl

/-- A hexadecimal digit in upper case. -/
def upperDigit (n : Nat) : UInt8 := UInt8.ofNat (Nat.digitChar n).toUpper.toNat

theorem utf8EncodeChar_upperDigit : ∀ n < 16,
    String.utf8EncodeChar (Nat.digitChar n).toUpper = [upperDigit n] := by decide

theorem hexDigit?_upperDigit : ∀ n < 16, Json.hexDigit? (upperDigit n) = some n := by decide

theorem upperDigit_marks : ∀ n < 16, upperDigit n ≠ 0x26 ∧ upperDigit n ≠ 0x3D := by decide

/-- A safe byte is ASCII and none of those that a query gives a meaning to. -/
theorem bounds_of_isSafe {b : UInt8} (h : isSafe b = true) :
    b.toNat < 0x80 ∧ b ≠ 0x25 ∧ b ≠ 0x2B ∧ b ≠ 0x26 ∧ b ≠ 0x3D := by
  refine ⟨?_, ?_, ?_, ?_, ?_⟩
  · simp only [isSafe, Json.isDigit, Bool.or_eq_true, Bool.and_eq_true,
      decide_eq_true_eq, beq_iff_eq, UInt8.le_iff_toNat_le, UInt8.reduceToNat,
      ← UInt8.toNat_inj] at h
    omega
  all_goals
    rintro rfl
    exact absurd h (by decide)

theorem writtenByte_safe {b : UInt8} (h : isSafe b = true) : writtenByte b = [b] := by
  obtain ⟨hascii, -⟩ := bounds_of_isSafe h
  have hchar : (Char.ofNat b.toNat).toNat = b.toNat := by
    have hall : ∀ n < 128, (Char.ofNat n).toNat = n := by decide
    exact hall _ hascii
  rw [writtenByte, encodeByte, if_pos h, List.flatMap_singleton,
    Utf8.utf8EncodeChar_ascii (by omega), hchar, UInt8.ofNat_toNat]

theorem writtenByte_space : writtenByte 0x20 = [0x2B] := by decide

theorem writtenByte_escaped {b : UInt8} (hsafe : ¬isSafe b = true) (hspace : b ≠ 0x20) :
    writtenByte b = [0x25, upperDigit (b.toNat / 16), upperDigit (b.toNat % 16)] := by
  have hb : b.toNat < 256 := b.toNat_lt
  rw [writtenByte, encodeByte, if_neg hsafe, if_neg hspace, percent,
    List.flatMap_cons, List.flatMap_cons, List.flatMap_singleton,
    utf8EncodeChar_upperDigit _ (by omega), utf8EncodeChar_upperDigit _ (by omega)]
  rfl

/-- What is written for a byte reads as this byte, whatever follows. -/
theorem unescapeOnto_writtenByte (done : Bytes) (b : UInt8) (rest : Bytes) :
    unescapeOnto done (writtenByte b ++ rest) = unescapeOnto (b :: done) rest := by
  by_cases hsafe : isSafe b = true
  · obtain ⟨-, hpercent, hplus, -⟩ := bounds_of_isSafe hsafe
    rw [writtenByte_safe hsafe, List.singleton_append, unescapeOnto, if_neg hplus]
    intro _ _ _ he _
    exact hpercent he
  by_cases hspace : b = 0x20
  · subst hspace
    rw [writtenByte_space, List.singleton_append, unescapeOnto, if_pos rfl]
    intro _ _ _ he _
    cases he
  · have hb : b.toNat < 256 := b.toNat_lt
    have hescape :
        escapedByte? (upperDigit (b.toNat / 16)) (upperDigit (b.toNat % 16)) = some b := by
      rw [escapedByte?, hexDigit?_upperDigit _ (by omega), hexDigit?_upperDigit _ (by omega)]
      show some (Nat.toUInt8 _) = _
      rw [Nat.div_add_mod' b.toNat 16]
      exact congrArg some UInt8.ofNat_toNat
    rw [writtenByte_escaped hsafe hspace]
    show unescapeOnto done
      (0x25 :: upperDigit (b.toNat / 16) :: upperDigit (b.toNat % 16) :: rest) = _
    rw [unescapeOnto, hescape]

/-- The escapes of a text are undone one after the other. -/
theorem unescapeOnto_written (done bytes : Bytes) :
    unescapeOnto done (bytes.flatMap writtenByte) = done.reverse ++ bytes := by
  induction bytes generalizing done with
  | nil => rw [List.flatMap_nil, unescapeOnto, List.append_nil]
  | cons b bytes ih =>
    rw [List.flatMap_cons, unescapeOnto_writtenByte, ih, List.reverse_cons, List.append_assoc]
    rfl

theorem decodePart_written (s : String) : decodePart (written s) = s := by
  rw [decodePart, unescape, written, unescapeOnto_written]
  exact Utf8.decodeLossy_encode s

/-- No written byte is an ampersand or an equals sign. -/
theorem writtenByte_marks {b x : UInt8} (hx : x ∈ writtenByte b) : x ≠ 0x26 ∧ x ≠ 0x3D := by
  by_cases hsafe : isSafe b = true
  · rw [writtenByte_safe hsafe, List.mem_singleton] at hx
    subst hx
    obtain ⟨-, -, -, hmarks⟩ := bounds_of_isSafe hsafe
    exact hmarks
  by_cases hspace : b = 0x20
  · subst hspace
    rw [writtenByte_space, List.mem_singleton] at hx
    subst hx
    decide
  · have hb : b.toNat < 256 := b.toNat_lt
    rw [writtenByte_escaped hsafe hspace] at hx
    simp only [List.mem_cons, List.not_mem_nil, or_false] at hx
    rcases hx with rfl | rfl | rfl
    · decide
    · exact upperDigit_marks _ (by omega)
    · exact upperDigit_marks _ (by omega)

theorem written_marks {s : String} {x : UInt8} (hx : x ∈ written s) : x ≠ 0x26 ∧ x ≠ 0x3D := by
  obtain ⟨b, -, hb⟩ := List.mem_flatMap.1 hx
  exact writtenByte_marks hb

/-! ## Pairs -/

theorem encode_encodePair (name value : String) :
    Utf8.encode (encodePair name value) = written name ++ 0x3D :: written value := by
  rw [encodePair, Utf8.encode_append, Utf8.encode_append, encode_encode,
    encode_encode, List.append_assoc]
  rfl

/-- The first equals sign parts the name from the value. -/
theorem decodePiece_assigned {name : Bytes} (hfirst : 0x3D ∉ name) (value : Bytes) :
    decodePiece (name ++ 0x3D :: value) = (decodePart name, decodePart value) := by
  have hkept : ∀ x ∈ name, (x != 0x3D) = true := fun x hx => bne_iff_ne.2 fun he => hfirst (he ▸ hx)
  rw [decodePiece, List.takeWhile_append_of_pos hkept, List.dropWhile_append_of_pos hkept]
  show (decodePart (name ++ []), decodePart value) = _
  rw [List.append_nil]

theorem decodePiece_bare {name : Bytes} (hnone : 0x3D ∉ name) :
    decodePiece name = (decodePart name, "") := by
  have hkept : ∀ x ∈ name, (x != 0x3D) = true := fun x hx => bne_iff_ne.2 fun he => hnone (he ▸ hx)
  have hempty : decodePart [] = "" := decodePart_written ""
  rw [decodePiece, List.takeWhile_eq_self_iff.2 hkept, List.dropWhile_eq_nil_iff.2,
    List.drop_nil, hempty]
  exact hkept

theorem decodePiece_pair (name value : String) :
    decodePiece (written name ++ 0x3D :: written value) = (name, value) := by
  rw [decodePiece_assigned fun h => (written_marks h).2 rfl, decodePart_written, decodePart_written]

/-- A written pair is one piece of a query, and reads as the pair. -/
theorem decode_encodePair (name value : String) :
    decode (encodePair name value) = [(name, value)] := by
  have hwhole : pieces (written name ++ 0x3D :: written value) =
      [written name ++ 0x3D :: written value] := by
    refine List.splitOnP_eq_singleton fun x hx => ?_
    rw [beq_eq_false_iff_ne]
    rcases List.mem_append.1 hx with hx | hx
    · exact (written_marks hx).1
    · rcases List.mem_cons.1 hx with rfl | hx
      · decide
      · exact (written_marks hx).1
  have hfull : written name ++ 0x3D :: written value ≠ [] := by
    intro hempty
    cases (List.append_eq_nil_iff.1 hempty).2
  rw [decode, encode_encodePair, hwhole, List.filter_cons, if_pos (decide_eq_true hfull)]
  show [decodePiece _] = _
  rw [decodePiece_pair]

/-! ## Queries -/

/-- An ampersand cuts a query in two. -/
theorem decode_append (first second : String) :
    decode (first ++ "&" ++ second) = decode first ++ decode second := by
  have hcut : pieces (Utf8.encode first ++ 0x26 :: Utf8.encode second) =
      pieces (Utf8.encode first) ++ pieces (Utf8.encode second) :=
    List.splitOnP_append_cons _ _ rfl
  have hbytes : Utf8.encode (first ++ "&" ++ second) =
      Utf8.encode first ++ 0x26 :: Utf8.encode second := by
    rw [Utf8.encode_append, Utf8.encode_append, List.append_assoc]
    rfl
  rw [decode, hbytes, hcut, List.filter_append, List.map_append]
  rfl

end Switchboard.Http.Form
