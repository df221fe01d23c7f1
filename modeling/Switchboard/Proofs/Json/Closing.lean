/-
  Where an object ends.

  1. **Ends** — what is left behind a value that is passed over is an end of the bytes
     (`Passage.suffix`).  A record passes its members over, or reads them where they could be passed
     over, so the same goes for them (`Fields.suffix_of_member`).

  2. **Braces** — so an object ends with a brace, and nothing but blanks is behind it
     (`Record.closes`).

  3. **Cuts** — an object with more bytes behind is read as before, and these are left.  If both
     together are a text of the record, there are only blanks behind the object
     (`Record.blank_of_decode_append`), and so no text of a record comes out of another by a cut in
     front of its last brace.
-/
import Switchboard.Proofs.Json.Filling
import Switchboard.Proofs.Json.ObjectText

namespace Switchboard.Json

variable {α σ : Type}

/-! ## Ends -/

theorem suffix_of_skipBlanks {s r : Bytes} {b : UInt8} (h : skipBlanks s = b :: r) :
    b :: r <:+ s := by
  rw [← h, skipBlanks]
  exact List.dropWhile_suffix _

theorem tail_suffix_of_skipBlanks {s r : Bytes} {b : UInt8} (h : skipBlanks s = b :: r) : r <:+ s :=
  (List.suffix_cons b r).trans (suffix_of_skipBlanks h)

theorem TextPassed.suffix {s rest : Bytes} (h : TextPassed s rest) : rest <:+ s := by
  induction h with
  | done rest => exact List.suffix_cons _ rest
  | @short b c s rest _ _ ih => exact ih.trans (List.suffix_append [backslash, b] s)
  | @numbered w x y z k s rest _ _ ih =>
    exact ih.trans (List.suffix_append [backslash, 0x75, w, x, y, z] s)
  | @plain b s rest _ _ _ _ ih => exact ih.trans (List.suffix_cons b s)

theorem ScalarPassed.suffix {b : UInt8} {s rest : Bytes} (h : ScalarPassed b s rest) :
    rest <:+ s := by
  cases h with
  | null | true | false => exact List.suffix_append _ rest
  | text h => exact h.suffix
  | number h hs =>
    obtain ⟨c, t, rfl, -⟩ := h.leads
    obtain ⟨-, rfl⟩ := List.cons.inj hs
    exact List.suffix_append t rest

theorem Passage.suffix {place : Option Place} {outer : List Bracket} {s rest : Bytes}
    (h : Passage place outer s rest) : rest <:+ s := by
  induction h with
  | done s => exact List.suffix_refl s
  | resume _ ih => exact ih
  | scalar hs hscalar _ ih => exact ih.trans (hscalar.suffix.trans (tail_suffix_of_skipBlanks hs))
  | opening hs _ _ ih | empty hs _ ih | comma hs _ ih | close hs _ ih =>
    exact ih.trans (tail_suffix_of_skipBlanks hs)
  | inside _ _ _ ih => exact ih
  | key hs hkey ht _ ih =>
    exact ih.trans
      ((tail_suffix_of_skipBlanks ht).trans (hkey.suffix.trans (tail_suffix_of_skipBlanks hs)))

/-! ## Members -/

namespace Fields

variable {types : List Type} {s rest : Bytes}

theorem extends_member :
    {types : List Type} → {fields : Fields types} → fields.Readable → (slots : Slots types) →
    (key : String) → Extends (fields.member slots key)
  | _, nil, _, slots, key => by
    intro h more hmore
    obtain ⟨u, hnext, h⟩ := reads_map_iff.1 h
    exact reads_map_iff.2 ⟨u, hnext, extends_afterColon extends_skip h hmore⟩
  | _, cons field fields, hreadable, (slot, slots), key => by
    intro h more hmore
    by_cases hkey : key = field.name
    · cases slot with
      | some v =>
        rw [member, if_pos hkey] at h
        exact absurd h not_reads_error
      | none =>
        rw [member, if_pos hkey] at h ⊢
        obtain ⟨v, hnext, h⟩ := reads_map_iff.1 h
        exact reads_map_iff.2 ⟨v, hnext, extends_afterColon hreadable.1.extended h hmore⟩
    · rw [member_other hkey] at h ⊢
      obtain ⟨others, hnext, h⟩ := reads_map_iff.1 h
      exact reads_map_iff.2 ⟨others, hnext, extends_member hreadable.2 slots key h hmore⟩

/-- What is read as a member could be passed over. -/
theorem skips_member :
    {types : List Type} → {fields : Fields types} → fields.Readable → {slots next : Slots types} →
    {key : String} → {s rest : Bytes} → Reads (fields.member slots key s) next rest →
    Reads (afterColon skip s) () rest
  | _, nil, _, slots, _, _, s, rest, h => by
    obtain ⟨_, -, h⟩ := reads_map_iff.1 h
    exact h
  | _, cons field fields, hreadable, (slot, slots), _, key, s, rest, h => by
    by_cases hkey : key = field.name
    · cases slot with
      | some v =>
        rw [member, if_pos hkey] at h
        exact absurd h not_reads_error
      | none =>
        rw [member, if_pos hkey] at h
        obtain ⟨v, -, h⟩ := reads_map_iff.1 h
        obtain ⟨r, hs, h⟩ := reads_afterColon_iff.1 h
        obtain ⟨value, hvalue⟩ := hreadable.1.valued h
        exact reads_afterColon_iff.2 ⟨r, hs, reads_skip hvalue⟩
    · rw [member_other hkey] at h
      obtain ⟨others, -, h⟩ := reads_map_iff.1 h
      exact skips_member hreadable.2 h

theorem suffix_of_member {fields : Fields types} (hreadable : fields.Readable)
    {slots next : Slots types}
    {key : String} (h : Reads (fields.member slots key s) next rest) : rest <:+ s := by
  obtain ⟨r, hs, h⟩ := reads_afterColon_iff.1 (skips_member hreadable h)
  exact (reads_skip_iff.1 h).suffix.trans (tail_suffix_of_skipBlanks hs)

end Fields

/-! ## Braces -/

section Braces

variable {member : σ → String → Reader σ} {s rest : Bytes}
  (hmember : ∀ {state key s next rest}, Reads (member state key s) next rest → rest <:+ s)

include hmember

theorem suffix_of_keyed {state next : σ} (h : Reads (keyed member state s) next rest) :
    rest <:+ s := by
  obtain ⟨key, r, hkey, h⟩ := reads_keyed_iff.1 h
  exact (hmember h).trans (reads_textBody_iff.1 hkey).passed.suffix

theorem Entries.closes {state last : σ} (h : Entries member state s last rest) :
    closeObject :: rest <:+ s := by
  induction h with
  | done hs => exact suffix_of_skipBlanks hs
  | next hs hr hx others ih =>
    exact ih.trans ((suffix_of_keyed hmember hx).trans
      ((tail_suffix_of_skipBlanks hr).trans (tail_suffix_of_skipBlanks hs)))

theorem closes_of_object {start last : σ} (h : Reads (object member start s) last rest) :
    closeObject :: rest <:+ s := by
  rcases reads_object_iff.1 h with ⟨hs, -⟩ | ⟨r, next, t, hs, hx, hothers⟩
  · exact suffix_of_skipBlanks hs
  · exact (hothers.closes hmember).trans
      ((suffix_of_keyed hmember hx).trans (tail_suffix_of_skipBlanks hs))

end Braces

/-! ## Cuts -/

namespace Record

variable {x : Record α} (hreadable : x.fields.Readable) {s r : Bytes} {a : α}

/-- A record is not made of blanks. -/
theorem exists_first (h : x.codec.decode s = .ok a) : ∃ b r, skipBlanks s = b :: r := by
  obtain ⟨behind, hread, -⟩ := document_iff.1 h
  change Reads (x.read s) a behind at hread
  rw [read] at hread
  obtain ⟨b, r, -, hs, -⟩ := hread.of_first
  exact ⟨b, r, hs⟩

include hreadable

/-- The text of a record as an object ends with a brace, and blanks. -/
theorem closes (hs : skipBlanks s = openObject :: r) (h : x.codec.decode s = .ok a) :
    ∃ front behind, s = front ++ closeObject :: behind ∧ skipBlanks behind = [] := by
  obtain ⟨behind, hread, hbehind⟩ := document_iff.1 h
  obtain ⟨last, hobject, -⟩ := (x.reads_iff_of_brace hs).1 hread
  obtain ⟨front, hfront⟩ :=
    (closes_of_object (Fields.suffix_of_member hreadable) hobject).trans
      (tail_suffix_of_skipBlanks hs)
  exact ⟨front, behind, hfront.symm, hbehind⟩

/-- A text of a record as an object that begins with a text of one goes on with blanks. -/
theorem blank_of_decode_append {more : Bytes} {b : α}
    (hs : skipBlanks (s ++ more) = openObject :: r)
    (h : x.codec.decode s = .ok a) (hmore : x.codec.decode (s ++ more) = .ok b) :
    skipBlanks more = [] := by
  obtain ⟨c, t, hfirst⟩ := exists_first h
  obtain rfl : c = openObject := (List.cons.inj ((skipBlanks_append hfirst more).symm.trans hs)).1
  obtain ⟨behind, hread, hbehind⟩ := document_iff.1 h
  obtain ⟨last, hobject, hlast⟩ := (x.reads_iff_of_brace hfirst).1 hread
  -- The object in front is read up to the same place, so what is left of the whole is what is
  -- behind it.
  have hobject' := reads_object_append (Fields.extends_member hreadable) hobject more
  have hread' := (x.reads_iff_of_brace (skipBlanks_append hfirst more)).2 ⟨last, hobject', hlast⟩
  obtain ⟨left, hleft, hblank⟩ := document_iff.1 hmore
  obtain ⟨-, rfl⟩ := hread'.unique hleft
  rwa [skipBlanks_append_of_nil hbehind] at hblank

end Record

end Switchboard.Json
