/-
  Lists and objects come back from how they are written.

    * `reads_list`    written elements read back in order;
    * `reads_object`  written members are taken in one after another, as `Members` says.

  Both are inductions over what stands behind a first element or member (`elements_written`,
  `Members.entries`); behind each of these comes a comma or a closing bracket, which ends a numeral.
-/
import Switchboard.Proofs.Json.Derivations

namespace Switchboard.Json

variable {α σ : Type}

/-! ## Commas -/

/-- The bytes of texts behind a comma each. -/
def behindCommas (texts : List String) : Bytes := texts.flatMap fun t => comma :: Utf8.encode t

theorem behindCommas_cons (t : String) (texts : List String) :
    behindCommas (t :: texts) = comma :: (Utf8.encode t ++ behindCommas texts) := by
  rw [behindCommas, List.flatMap_cons, List.cons_append]
  rfl

theorem encode_intercalate_cons (t : String) (texts : List String) :
    Utf8.encode (",".intercalate (t :: texts)) = Utf8.encode t ++ behindCommas texts := by
  induction texts generalizing t with
  | nil => rw [String.intercalate_singleton]; exact (List.append_nil _).symm
  | cons u texts ih =>
    rw [String.intercalate_cons_cons, Utf8.encode_append, Utf8.encode_append, ih, behindCommas_cons,
      List.append_assoc]
    rfl

/-- What follows a value in a list or object ends a numeral. -/
theorem endsNumeral_behindCommas (texts : List String) (close : UInt8) (s : Bytes)
    (h : isDigit close = false ∧ close ≠ 0x2E ∧ close ≠ 0x65 ∧ close ≠ 0x45) :
    EndsNumeral (behindCommas texts ++ close :: s) := by
  cases texts with
  | nil => exact endsNumeral_cons s h
  | cons t texts =>
    rw [behindCommas_cons, List.cons_append]
    exact endsNumeral_cons _ (by decide)

/-! ## Lists -/

section Lists

variable {c : Codec α} {text : α → String}

/-- Such a text behind blanks: it begins as the element does. -/
theorem Codec.WritesBack.skipBlanks {a : α} {t : String} (h : c.WritesBack a t) (rest : Bytes) :
    ∃ b u, skipBlanks (Utf8.encode t ++ rest) = b :: u ∧ b ≠ closeList := by
  obtain ⟨-, ⟨b, u, hbu, hblank, hb⟩, -⟩ := h
  refine ⟨b, u ++ rest, ?_, hb⟩
  rw [hbu, List.cons_append, skipBlanks_cons hblank]

theorem elements_written {xs : List α} (h : ∀ a ∈ xs, c.WritesBack a (text a)) (s : Bytes) :
    Elements c.read (behindCommas (xs.map text) ++ closeList :: s) xs s := by
  induction xs with
  | nil => exact .done (skipBlanks_cons (by decide) s)
  | cons x xs ih =>
    obtain ⟨hx, hxs⟩ := List.forall_mem_cons.1 h
    obtain ⟨b, u, hbu, hb⟩ := hx.skipBlanks (behindCommas (xs.map text) ++ closeList :: s)
    rw [List.map_cons, behindCommas_cons, List.cons_append, List.append_assoc]
    -- Behind the comma stands the next element, and no element begins with the closing bracket.
    exact .next (skipBlanks_cons (by decide) _) hbu hb
      (hx.2.2 _ (endsNumeral_behindCommas (xs.map text) closeList s (by decide))) (ih hxs)

theorem reads_list {xs : List α} (h : ∀ a ∈ xs, c.WritesBack a (text a)) (s : Bytes) :
    Reads (list c.read (Utf8.encode (",".intercalate (xs.map text)) ++ closeList :: s)) xs s := by
  cases xs with
  | nil => exact reads_list_iff.2 (.inl ⟨skipBlanks_cons (by decide) s, rfl⟩)
  | cons x xs =>
    obtain ⟨hx, hxs⟩ := List.forall_mem_cons.1 h
    obtain ⟨b, u, hbu, hb⟩ := hx.skipBlanks (behindCommas (xs.map text) ++ closeList :: s)
    rw [List.map_cons, encode_intercalate_cons, List.append_assoc]
    exact reads_list_iff.2 (.inr ⟨b, u, x, _, xs, hbu, hb,
      hx.2.2 _ (endsNumeral_behindCommas (xs.map text) closeList s (by decide)),
      elements_written hxs s, rfl⟩)

end Lists

/-! ## Objects -/

theorem reads_afterColon {value : Reader α} {a : α} {s rest : Bytes} (h : Reads (value s) a rest) :
    Reads (afterColon value (colon :: s)) a rest :=
  reads_afterColon_iff.2 ⟨s, skipBlanks_cons (by decide) s, h⟩

/-- The text of a member. -/
def memberText (m : String × String) : String := writeText m.1 ++ ":" ++ m.2

/-- The members lead from one state to another: each key with the text of its value is taken in,
    whatever comes behind. -/
inductive Members (member : σ → String → Reader σ) : σ → List (String × String) → σ → Prop where
  | nil (state : σ) : Members member state [] state
  | cons {state next last : σ} {key text : String} {ms : List (String × String)}
      (taken : ∀ rest, EndsNumeral rest →
        Reads (member state key (colon :: (Utf8.encode text ++ rest))) next rest)
      (others : Members member next ms last) : Members member state ((key, text) :: ms) last

section Objects

variable {member : σ → String → Reader σ}

theorem encode_memberText (key text : String) (rest : Bytes) :
    Utf8.encode (memberText (key, text)) ++ rest =
      quote ::
        (key.toList.flatMap escapeBytes ++ quote :: colon :: (Utf8.encode text ++ rest)) := by
  rw [memberText, Utf8.encode_append, Utf8.encode_append, encode_writeText]
  simp only [List.cons_append, List.append_assoc, List.nil_append]
  rfl

theorem reads_keyed {state next : σ} {key text : String} {rest : Bytes}
    (h : Reads (member state key (colon :: (Utf8.encode text ++ rest))) next rest) :
    Reads (keyed member state
      (key.toList.flatMap escapeBytes ++ quote :: colon :: (Utf8.encode text ++ rest))) next rest :=
  reads_keyed_iff.2 ⟨key, _, reads_textBody key _, h⟩

theorem Members.entries {state last : σ} {ms : List (String × String)}
    (h : Members member state ms last) (s : Bytes) :
    Entries member state (behindCommas (ms.map memberText) ++ closeObject :: s) last s := by
  induction h with
  | nil state => exact .done (skipBlanks_cons (by decide) s)
  | @cons state next last key text ms taken others ih =>
    have hx := taken _ (endsNumeral_behindCommas (ms.map memberText) closeObject s (by decide))
    rw [List.map_cons, behindCommas_cons, List.cons_append, List.append_assoc, encode_memberText]
    -- First the comma, then the quote of the next key.
    exact .next (skipBlanks_cons (by decide) _) (skipBlanks_cons (by decide) _) (reads_keyed hx) ih

theorem reads_object {state last : σ} {ms : List (String × String)}
    (h : Members member state ms last) (s : Bytes) :
    Reads
      (object member state (Utf8.encode (",".intercalate (ms.map memberText)) ++ closeObject :: s))
      last s := by
  cases h with
  | nil => exact reads_object_iff.2 (.inl ⟨skipBlanks_cons (by decide) s, rfl⟩)
  | @cons _ next _ key text ms taken others =>
    have hx := taken _ (endsNumeral_behindCommas (ms.map memberText) closeObject s (by decide))
    rw [List.map_cons, encode_intercalate_cons, List.append_assoc, encode_memberText]
    exact reads_object_iff.2
      (.inr ⟨_, next, _, skipBlanks_cons (by decide) _, reads_keyed hx, others.entries s⟩)

end Objects

end Switchboard.Json
