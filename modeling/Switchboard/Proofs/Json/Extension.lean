/-
  More bytes behind what is read.

  A reader `Extends` when what it gives does not depend on what comes behind: with more bytes there
  it gives the same value and leaves these too.  Only a numeral ends for no other reason than that
  the bytes do, so where a reader has come to their end, the bytes behind must not go on with one.

    * `reads_numeral_append`  a numeral, whatever cause its reader was given;
    * `extends_text`, `extends_int64`  strings and integers;
    * `reads_object_append`  objects over readers that extend, which their closing brace ends;
    * `extends_value`  values of any depth, because their texts extend (`Written.append`);
    * `Extends.document`  so a document can be put in front of other bytes.
-/
import Switchboard.Proofs.Json.Written

namespace Switchboard.Json

open Switchboard.Number

variable {α σ : Type}

/-- What is read is read with more bytes behind; where it was all there was, they must not go on
    with a numeral. -/
def Extends (reader : Reader α) : Prop :=
  ∀ {s a rest}, Reads (reader s) a rest → ∀ {more}, (rest = [] → EndsNumeral more) →
    Reads (reader (s ++ more)) a (rest ++ more)

/-! ## Blanks -/

theorem skipBlanks_append {s r : Bytes} {b : UInt8} (h : skipBlanks s = b :: r) (more : Bytes) :
    skipBlanks (s ++ more) = b :: (r ++ more) := by
  rw [skipBlanks] at h ⊢
  rw [List.dropWhile_append, h]
  rfl

/-- Blanks in front of other bytes are passed over. -/
theorem skipBlanks_append_of_nil {s : Bytes} (h : skipBlanks s = []) (more : Bytes) :
    skipBlanks (s ++ more) = skipBlanks more := by
  rw [skipBlanks] at h ⊢
  rw [List.dropWhile_append, h]
  rfl

theorem ne_nil_of_skipBlanks {s r : Bytes} {b : UInt8} (h : skipBlanks s = b :: r) : s ≠ [] := by
  rintro rfl
  cases h

/-! ## Numbers -/

theorem Numeral.EndsBefore.append {x : Numeral} {rest more : Bytes} (h : x.EndsBefore rest)
    (hmore : rest = [] → EndsNumeral more) : x.EndsBefore (rest ++ more) := by
  cases rest with
  | nil => exact (hmore rfl).endsBefore x
  | cons b rest => exact ⟨h.digits, h.exponent, h.fraction⟩

/-- A numeral is read with more bytes behind, whatever the cause is for one that breaks off. -/
theorem reads_numeral_append {ended ended' : Cause} {s rest more : Bytes} {x : Numeral}
    (h : Reads (numeral ended s) x rest) (hmore : rest = [] → EndsNumeral more) :
    Reads (numeral ended' (s ++ more)) x (rest ++ more) := by
  obtain ⟨text, htext, rfl, hend⟩ := reads_numeral_iff.1 h
  exact reads_numeral_iff.2 ⟨text, htext, List.append_assoc _ _ _, hend.append hmore⟩

theorem extends_number : Extends number := by
  intro s v rest h more hmore
  obtain ⟨x, hx, hv⟩ := reads_number_iff.1 h
  exact reads_number_iff.2 ⟨x, reads_numeral_append hx hmore, Numeral.value_eq_ok hv _⟩

/-! ## Strings -/

theorem CharactersText.append {cs : List Char} {s rest : Bytes}
    (h : CharactersText cs s rest) (more : Bytes) :
    CharactersText cs (s ++ more) (rest ++ more) := by
  induction h with
  | done rest => exact .done _
  | next hc others ih =>
    rw [List.append_assoc]
    exact .next hc ih

/-- The closing quote ends a string. -/
theorem reads_textBody_append {s rest : Bytes} {t : String}
    (h : Reads (textBody s) t rest) (more : Bytes) :
    Reads (textBody (s ++ more)) t (rest ++ more) :=
  reads_textBody_iff.2 ((reads_textBody_iff.1 h).append more)

/-! ## Scalars -/

theorem ScalarRead.append {b : UInt8} {s rest : Bytes} {x : Scalar} (h : ScalarRead b s x rest)
    {more : Bytes} (hmore : rest = [] → EndsNumeral more) :
    ScalarRead b (s ++ more) x (rest ++ more) := by
  cases h with
  | null => exact .null _
  | true => exact .true _
  | false => exact .false _
  | text h => exact .text (reads_textBody_append h more)
  | number hb h => exact .number hb (extends_number h hmore)

theorem extends_text : Extends text := by
  intro s t rest h more hmore
  obtain ⟨r, hs, hr⟩ := reads_text_iff.1 h
  exact reads_text_iff.2 ⟨r ++ more, skipBlanks_append hs more, reads_textBody_append hr more⟩

theorem extends_integer (low high : Int) (expected : String) :
    Extends (integer low high expected) := by
  intro s z rest h more hmore
  obtain ⟨hbounds, b, r, hs, hscalar⟩ := reads_integer_iff.1 h
  exact reads_integer_iff.2 ⟨hbounds, b, r ++ more, skipBlanks_append hs more, hscalar.append hmore⟩

theorem extends_int64 : Extends int64 := by
  intro s z rest h more hmore
  obtain ⟨w, rfl, hw⟩ := reads_map_iff.1 h
  exact (extends_integer _ _ _ hw hmore).map Int64.ofInt

/-! ## Objects -/

theorem extends_afterColon {value : Reader α} (h : Extends value) : Extends (afterColon value) := by
  intro s a rest hread more hmore
  obtain ⟨r, hs, hvalue⟩ := reads_afterColon_iff.1 hread
  exact reads_afterColon_iff.2 ⟨r ++ more, skipBlanks_append hs more, h hvalue hmore⟩

section Objects

variable {member : σ → String → Reader σ}

theorem Entries.ne_nil {state last : σ} {s rest : Bytes} (h : Entries member state s last rest) :
    s ≠ [] := by
  cases h with
  | done hs | next hs => exact ne_nil_of_skipBlanks hs

variable (hmember : ∀ state key, Extends (member state key))

include hmember

theorem extends_keyed (state : σ) : Extends (keyed member state) := by
  intro s next rest h more hmore
  obtain ⟨key, r, hkey, hx⟩ := reads_keyed_iff.1 h
  exact reads_keyed_iff.2 ⟨key, r ++ more, reads_textBody_append hkey more,
    hmember state key hx hmore⟩

theorem Entries.append {state last : σ} {s rest : Bytes} (h : Entries member state s last rest)
    (more : Bytes) :
    Entries member state (s ++ more) last (rest ++ more) := by
  induction h with
  | done hs => exact .done (skipBlanks_append hs more)
  | next hs hr hx others ih =>
    exact .next (skipBlanks_append hs more) (skipBlanks_append hr more)
      (extends_keyed hmember _ hx fun h => absurd h others.ne_nil) ih

/-- The closing brace ends an object, whatever comes behind. -/
theorem reads_object_append {start last : σ} {s rest : Bytes}
    (h : Reads (object member start s) last rest)
    (more : Bytes) : Reads (object member start (s ++ more)) last (rest ++ more) := by
  rcases reads_object_iff.1 h with ⟨hs, rfl⟩ | ⟨r, next, t, hs, hx, hothers⟩
  · exact reads_object_iff.2 (.inl ⟨skipBlanks_append hs more, rfl⟩)
  · exact reads_object_iff.2 (.inr ⟨r ++ more, next, t ++ more, skipBlanks_append hs more,
      extends_keyed hmember _ hx fun h => absurd h hothers.ne_nil, hothers.append hmember more⟩)

end Objects

/-! ## Values -/

section Texts

variable {item : Tree → Bytes → Bytes → Prop}
  (hitem : ∀ {tree s rest}, item tree s rest → ∀ more, item tree (s ++ more) (rest ++ more))
  {s rest : Bytes}

include hitem

theorem ItemsText.append {items : List Tree} (h : ItemsText item items s rest) (more : Bytes) :
    ItemsText item items (s ++ more) (rest ++ more) := by
  induction h with
  | done hs => exact .done (skipBlanks_append hs more)
  | next hs h others ih => exact .next (skipBlanks_append hs more) (hitem h more) ih

theorem ListText.append {items : List Tree} (h : ListText item items s rest) (more : Bytes) :
    ListText item items (s ++ more) (rest ++ more) := by
  cases h with
  | empty hs => exact .empty (skipBlanks_append hs more)
  | items h others => exact .items (hitem h more) (others.append hitem more)

theorem MemberText.append {name : String} {tree : Tree} (h : MemberText item name tree s rest)
    (more : Bytes) :
    MemberText item name tree (s ++ more) (rest ++ more) := by
  obtain ⟨hs, hname, ht, h⟩ := h
  exact ⟨skipBlanks_append hs more, hname.append more, skipBlanks_append ht more, hitem h more⟩

theorem MembersText.append {members : List (String × Tree)} (h : MembersText item members s rest)
    (more : Bytes) :
    MembersText item members (s ++ more) (rest ++ more) := by
  induction h with
  | done hs => exact .done (skipBlanks_append hs more)
  | next hs h others ih => exact .next (skipBlanks_append hs more) (h.append hitem more) ih

theorem ObjectText.append {members : List (String × Tree)} (h : ObjectText item members s rest)
    (more : Bytes) :
    ObjectText item members (s ++ more) (rest ++ more) := by
  cases h with
  | empty hs => exact .empty (skipBlanks_append hs more)
  | members h others => exact .members (h.append hitem more) (others.append hitem more)

end Texts

theorem skipBlanks_append_of_append {s text rest : Bytes} (hs : skipBlanks s = text ++ rest)
    (htext : text ≠ [])
    (more : Bytes) : skipBlanks (s ++ more) = text ++ (rest ++ more) := by
  obtain ⟨b, t, rfl⟩ := List.exists_cons_of_ne_nil htext
  exact (skipBlanks_append hs more).trans (congrArg (b :: ·) (List.append_assoc t rest more))

theorem LayerText.append {item : Option (Tree → Bytes → Bytes → Prop)}
    (hitem : ∀ inner ∈ item, ∀ {tree s rest}, inner tree s rest → ∀ more,
      inner tree (s ++ more) (rest ++ more))
    {tree : Tree} {s rest : Bytes} (h : LayerText item tree s rest) (more : Bytes) :
    LayerText item tree (s ++ more) (rest ++ more) := by
  cases h with
  | null hs => exact .null (skipBlanks_append_of_append hs (by decide) more)
  | true hs => exact .true (skipBlanks_append_of_append hs (by decide) more)
  | false hs => exact .false (skipBlanks_append_of_append hs (by decide) more)
  | number hs h =>
    obtain ⟨b, t, hbt, -⟩ := h.leads
    exact .number (skipBlanks_append_of_append hs (hbt ▸ List.cons_ne_nil b t) more) h
  | text hs h => exact .text (skipBlanks_append hs more) (h.append more)
  | list hinner hs h =>
    exact .list hinner (skipBlanks_append hs more) (h.append (hitem _ hinner) more)
  | object hinner hs h =>
    exact .object hinner (skipBlanks_append hs more) (h.append (hitem _ hinner) more)

/-- A text goes on with whatever is behind it. -/
theorem Written.append {depth : Nat} {tree : Tree} {s rest : Bytes}
    (h : Written depth tree s rest) (more : Bytes) :
    Written depth tree (s ++ more) (rest ++ more) := by
  induction depth generalizing tree s rest more with
  | zero =>
    refine LayerText.append (fun inner hinner => ?_) h more
    cases hinner
  | succ depth ih =>
    refine LayerText.append (fun inner hinner => ?_) h more
    cases hinner
    exact ih

theorem Tree.EndsBefore.append {tree : Tree} {rest more : Bytes} (h : tree.EndsBefore rest)
    (hmore : rest = [] → EndsNumeral more) : tree.EndsBefore (rest ++ more) := by
  cases tree with
  | number x => exact Numeral.EndsBefore.append h hmore
  | null | boolean | text | list | object => trivial

theorem extends_value (depth : Nat) : Extends (value depth) := by
  intro s v rest h more hmore
  obtain ⟨tree, htext, hv, hend⟩ := (reads_value_iff depth).1 h
  exact (reads_value_iff depth).2 ⟨tree, htext.append more, hv, hend.append hmore⟩

/-! ## Documents -/

/-- A document in front of other bytes is read, but for the blanks at its end. -/
theorem Extends.document {reader : Reader α} (h : Extends reader) {s : Bytes} {a : α}
    (hs : document reader s = .ok a) {more : Bytes} (hmore : EndsNumeral more) :
    ∃ blanks, skipBlanks blanks = [] ∧ Reads (reader (s ++ more)) a (blanks ++ more) := by
  obtain ⟨blanks, hread, hblanks⟩ := document_iff.1 hs
  exact ⟨blanks, hblanks, h hread fun _ => hmore⟩

end Switchboard.Json
