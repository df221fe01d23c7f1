/-
  Records that are read from a list.

  A record is not only read from an object: a list of the values of its fields, in order and nothing
  else, is read as the record too.  This module says exactly when.

    * `Codec.Mirrors`   a codec reads `a` where the value `v` stands, and nowhere else: a string
                        where its text stands, a 64-bit integer where that integer stands;
    * `Fields.Listed`   values of fields, and the list of them as JSON values;
    * `Record.decode_listed`  a document that is no object is read as a record just when it is the
                              list of the
                        fields of the record.

  The induction is over the fields; behind the first of them a comma comes in front of each
  (`Elements`).
-/
import Switchboard.Proofs.Json.Envelope

namespace Switchboard.Json

open Switchboard.Number

variable {α : Type}

/-! ## Scalars -/

theorem exists_layerRead {depth : Nat} {s rest : Bytes} {v : Value}
    (h : Reads (value depth s) v rest) :
    ∃ item, LayerRead item s v rest := by
  cases depth with
  | zero => exact ⟨_, reads_layer_iff.1 h⟩
  | succ depth => exact ⟨_, reads_layer_iff.1 h⟩

/-- A scalar is read as a value where it stands, and only there. -/
theorem reads_value_scalar_iff {depth : Nat} {s rest : Bytes} (x : Scalar) :
    Reads (value depth s) x.toValue rest ↔
      ∃ b r, skipBlanks s = b :: r ∧ ScalarRead b r x rest := by
  constructor
  · intro h
    obtain ⟨item, hlayer⟩ := exists_layerRead h
    generalize hv : x.toValue = v at hlayer
    cases hlayer with
    | @scalar r rest b y hs hy =>
      have hsame : x = y := by cases x <;> cases y <;> cases hv <;> rfl
      exact ⟨b, r, hs, hsame ▸ hy⟩
    | list => cases x <;> cases hv
    | object => cases x <;> cases hv
  · rintro ⟨b, r, hs, h⟩
    exact reads_value_of_scalar hs h

/-- The codec reads `a` where the value `v` stands, and only there. -/
def Codec.Mirrors (c : Codec α) (a : α) (v : Value) : Prop :=
  ∀ {depth : Nat} {s rest : Bytes}, Reads (c.read s) a rest ↔ Reads (value depth s) v rest

theorem Codec.mirrors_text (t : String) : Codec.text.Mirrors t (.text t) := by
  intro depth s rest
  constructor
  · exact reads_value_of_text
  · intro h
    obtain ⟨b, r, hs, hr⟩ := (reads_value_scalar_iff (.text t)).1 h
    cases hr with
    | text hbody => exact reads_text_iff.2 ⟨r, hs, hbody⟩

theorem Codec.mirrors_int64 (z : Int64) : Codec.int64.Mirrors z (.number (.integer z.toInt)) := by
  have hlow : -(maxSigned64 : Int) - 1 ≤ z.toInt := z.le_toInt
  have hhigh : z.toInt ≤ maxSigned64 := Int.le_of_lt_add_one z.toInt_lt
  intro depth s rest
  have hvalue := @reads_value_scalar_iff depth s rest (.number (.integer z.toInt))
  constructor
  · intro h
    obtain ⟨w, hw, h⟩ := reads_map_iff.1 h
    obtain ⟨⟨hlow', hhigh'⟩, hstands⟩ := reads_integer_iff.1 h
    have hsame : z.toInt = w := by
      rw [← hw]
      exact Int64.toInt_ofInt_of_le hlow' (Int.lt_add_one_of_le hhigh')
    exact hvalue.2 (hsame ▸ hstands)
  · intro h
    refine reads_map_iff.2 ⟨z.toInt, z.ofInt_toInt, reads_integer_iff.2 ⟨⟨hlow, hhigh⟩, hvalue.1 h⟩⟩

/-! ## Fields -/

/-- Values of fields, and the list of the values that the codecs of the fields read as them. -/
inductive Fields.Listed :
    {types : List Type} → Fields types → Values types → List Value → Prop where
  | nil : Fields.Listed .nil () []
  | cons {α : Type} {types : List Type} {field : Field α} {fields : Fields types}
      {a : α} {vs : Values types}
      {item : Value} {items : List Value} (mirrors : field.codec.Mirrors a item)
      (others : fields.Listed vs items) :
      Fields.Listed (.cons field fields) (a, vs) (item :: items)

namespace Fields

variable {types : List Type} {fields : Fields types} {vs : Values types} {items : List Value}

/-- Behind the last element stands the closing bracket. -/
theorem reads_listEnd_iff {s rest : Bytes} :
    Reads (listEnd s) () rest ↔ skipBlanks s = closeList :: rest := by
  constructor
  · intro h
    rw [listEnd] at h
    obtain ⟨b, r, hr, hs, h⟩ := h.of_first
    split at h
    next hb =>
      obtain ⟨-, rfl⟩ := reads_ok_iff.1 h
      exact hb ▸ hs
    next =>
      split at h
      · split at h
        · exact absurd h not_reads_error
        · exact absurd h not_reads_error
      · exact absurd h not_reads_error
  · intro hs
    rw [listEnd]
    refine .first hs fun _ => ?_
    rw [if_pos rfl]
    exact .intro _

theorem reads_elements_nil_iff {expected : String} {count : Nat} {s rest : Bytes} :
    Reads (nil.elements expected count s) () rest ↔ skipBlanks s = closeList :: rest := by
  show Reads (listEnd s) () rest ↔ _
  exact reads_listEnd_iff

/-- The first element stands where the list begins. -/
theorem reads_firstElement_iff {missing : Cause} {item : Reader α} {s rest : Bytes} {a : α} :
    Reads (nextElement 0 missing item s) a rest ↔
      ∃ b r, skipBlanks s = b :: r ∧ b ≠ closeList ∧ Reads (item s) a rest := by
  constructor
  · intro h
    rw [nextElement] at h
    obtain ⟨b, r, hr, hs, h⟩ := h.of_first
    split at h
    next => exact absurd h not_reads_error
    next hb => exact ⟨b, r, hs, hb, by rwa [if_pos rfl] at h⟩
  · rintro ⟨b, r, hs, hb, h⟩
    rw [nextElement]
    refine .first hs fun _ => ?_
    rw [if_neg hb, if_pos rfl]
    exact h

/-- Every later element stands behind a comma. -/
theorem reads_laterElement_iff {count : Nat} {missing : Cause} {item : Reader α}
    {s rest : Bytes} {a : α} :
    Reads (nextElement (count + 1) missing item s) a rest ↔
      ∃ r b t, skipBlanks s = comma :: r ∧ skipBlanks r = b :: t ∧ b ≠ closeList ∧
        Reads (item r) a rest := by
  constructor
  · intro h
    rw [nextElement] at h
    obtain ⟨b, r, hr, hs, h⟩ := h.of_first
    split at h
    next => exact absurd h not_reads_error
    next =>
      rw [if_neg (Nat.succ_ne_zero count)] at h
      split at h
      next hb =>
        obtain ⟨c, t, ht, hc, h⟩ := h.of_first
        split at h
        next => exact absurd h not_reads_error
        next hclose => exact ⟨r, c, t, hb ▸ hs, hc, hclose, (reads_within_iff _).1 h⟩
      next => exact absurd h not_reads_error
  · rintro ⟨r, b, t, hs, hr, hb, h⟩
    rw [nextElement]
    refine .first hs fun _ => ?_
    rw [if_neg (by decide), if_neg (Nat.succ_ne_zero count), if_pos rfl]
    refine .first hr fun _ => ?_
    rw [if_neg hb]
    exact h.within _

/-- The values of fields are read one after another. -/
theorem reads_elements_cons_iff {field : Field α} {expected : String} {count : Nat}
    {s rest : Bytes} {a : α} :
    Reads ((cons field fields).elements expected count s) (a, vs) rest ↔
      ∃ t, Reads (nextElement count (.wrongLength count expected) field.codec.read s) a t ∧
        Reads (fields.elements expected (count + 1) t) vs rest := by
  constructor
  · intro h
    rw [elements] at h
    obtain ⟨x, hx, h⟩ := h.of_bind
    obtain ⟨xs, hxs, h⟩ := h.of_bind
    obtain ⟨hvalues, rfl⟩ := reads_ok_iff.1 h
    cases hvalues
    exact ⟨x.rest, hx, hxs⟩
  · rintro ⟨t, hx, hxs⟩
    rw [elements]
    exact hx.bind fun _ => hxs.bind fun _ => ⟨_, rfl⟩

/-- Behind a first element the values of fields are read where the others of the list stand. -/
theorem Listed.reads_later_iff (listed : fields.Listed vs items)
    {expected : String} {count depth : Nat} {s rest : Bytes} :
    Reads (fields.elements expected (count + 1) s) vs rest ↔
      Elements (value depth) s items rest := by
  induction listed generalizing count s with
  | nil =>
    rw [reads_elements_nil_iff]
    constructor
    · exact .done
    · intro h
      cases h with
      | done hs => exact hs
  | @cons α types field fields a vs item items mirrors others ih =>
    rw [reads_elements_cons_iff]
    constructor
    · rintro ⟨t, hx, hxs⟩
      obtain ⟨r, b, u, hs, hr, hb, hx⟩ := reads_laterElement_iff.1 hx
      exact .next hs hr hb (mirrors.1 hx) (ih.1 hxs)
    · intro h
      cases h with
      | next hs hr hb hx hxs =>
        exact ⟨_, reads_laterElement_iff.2 ⟨_, _, _, hs, hr, hb, mirrors.2 hx⟩, ih.2 hxs⟩

/-- The values of fields are read where the list of them stands. -/
theorem Listed.reads_iff (listed : fields.Listed vs items) {expected : String}
    {depth : Nat} {s rest : Bytes} :
    Reads (fields.elements expected 0 s) vs rest ↔ Reads (list (value depth) s) items rest := by
  rw [reads_list_iff]
  cases listed with
  | nil =>
    rw [reads_elements_nil_iff]
    constructor
    · exact fun hs => .inl ⟨hs, rfl⟩
    · rintro (⟨hs, -⟩ | ⟨_, _, _, _, _, _, _, _, _, hnil⟩)
      · exact hs
      · cases hnil
  | @cons α types field fields a vs item items mirrors others =>
    rw [reads_elements_cons_iff]
    constructor
    · rintro ⟨t, hx, hxs⟩
      obtain ⟨b, r, hs, hb, hx⟩ := reads_firstElement_iff.1 hx
      exact .inr ⟨b, r, item, t, items, hs, hb, mirrors.1 hx, others.reads_later_iff.1 hxs, rfl⟩
    · rintro (⟨-, hnil⟩ | ⟨b, r, x, t, xs, hs, hb, hx, hxs, hcons⟩)
      · cases hnil
      · cases hcons
        exact ⟨t, reads_firstElement_iff.2 ⟨b, r, hs, hb, mirrors.2 hx⟩,
          others.reads_later_iff.2 hxs⟩

end Fields

/-! ## Records -/

/-- Text that begins with no brace is read as a record where the list of its fields stands. -/
theorem Record.reads_listed_iff (x : Record α) {a : α} {items : List Value}
    (listed : x.fields.Listed (x.toValues a) items) {depth : Nat} {s rest : Bytes}
    (hplain : (skipBlanks s).head? ≠ some openObject) :
    Reads (x.read s) a rest ↔ Reads (value (depth + 1) s) (.list items) rest := by
  constructor
  · intro h
    rw [Record.read] at h
    obtain ⟨b, r, hr, hs, h⟩ := h.of_first
    split at h
    next hb => exact absurd (by rw [hs, hb]; rfl) hplain
    next =>
      split at h
      next hb =>
        obtain ⟨vs, hvs, helements⟩ := (reads_map_within_iff _).1 h
        subst hvs
        rw [x.toValues_ofValues] at listed
        exact reads_layer_iff.2 (.list (hb ▸ hs) rfl (listed.reads_iff.1 helements))
      next => exact absurd h not_reads_error
  · intro h
    have hlayer : LayerRead (some (value depth)) s (.list items) rest := reads_layer_iff.1 h
    generalize hv : Value.list items = v at hlayer
    cases hlayer with
    | @scalar _ _ _ y => cases y <;> cases hv
    | object => cases hv
    | list hs hitem hlist =>
      cases hv
      cases hitem
      rw [Record.read]
      refine .first hs fun _ => ?_
      rw [if_neg (by decide), if_pos rfl]
      exact (reads_map_within_iff _).2 ⟨_, x.ofValues_toValues a, listed.reads_iff.2 hlist⟩

/-- A document that is no object is read as a record just when it is the list of its fields. -/
theorem Record.decode_listed (x : Record α) {a : α} {items : List Value}
    (listed : x.fields.Listed (x.toValues a) items) (depth : Nat) {s : Bytes}
    (hplain : (skipBlanks s).head? ≠ some openObject) :
    x.codec.decode s = .ok a ↔ document (value (depth + 1)) s = .ok (.list items) := by
  rw [Codec.decode, document_iff, document_iff]
  constructor
  · rintro ⟨rest, h, hrest⟩
    exact ⟨rest, (x.reads_listed_iff listed hplain).1 h, hrest⟩
  · rintro ⟨rest, h, hrest⟩
    exact ⟨rest, (x.reads_listed_iff listed hplain).2 h, hrest⟩

end Switchboard.Json
