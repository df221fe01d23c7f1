/-
  Codecs are faithful when their parts are.

    * `Codec.faithful_list`    lists of values of a faithful codec;
    * `Codec.faithful_choice`  names that tell the values apart;
    * `Record.faithful`        records with faithful fields of different names.

  For a record the members are followed one by one: each fills the slot of its field and leaves the
  slots in front of it as they are (`Fields.members_behind`), so at the end every slot is filled.
-/
import Switchboard.Json.Record
import Switchboard.Proofs.Json.Numeral
import Switchboard.Proofs.Json.Structure

namespace Switchboard.Json

variable {α : Type}

/-! ## Lists and names -/

theorem mapM_write {c : Codec α} {text : α → String} {xs : List α}
    (h : ∀ a ∈ xs, c.WritesBack a (text a)) : xs.mapM c.write = .ok (xs.map text) := by
  induction xs with
  | nil => rfl
  | cons x xs ih =>
    rw [List.mapM_cons, (h x List.mem_cons_self).1, ih fun a ha => h a (List.mem_cons_of_mem x ha)]
    rfl

theorem Codec.faithful_list {c : Codec α} (hc : c.Faithful) : c.list.Faithful := by
  intro xs
  -- One text for each element, all chosen at once.
  obtain ⟨text, htext⟩ := Classical.axiomOfChoice hc
  have h : ∀ a ∈ xs, c.WritesBack a (text a) := fun a _ => htext a
  have hencode : Utf8.encode ("[" ++ ",".intercalate (xs.map text) ++ "]") =
      openList :: (Utf8.encode (",".intercalate (xs.map text)) ++ [closeList]) := by
    rw [Utf8.encode_append, Utf8.encode_append]
    rfl
  refine ⟨"[" ++ ",".intercalate (xs.map text) ++ "]", ?_,
    ⟨_, _, hencode, by decide⟩, fun rest _ => ?_⟩
  · rw [list]
    dsimp only
    rw [mapM_write h]
    rfl
  · rw [hencode, list, List.cons_append, List.append_assoc, List.singleton_append]
    dsimp only
    rw [listValue]
    refine .byte (by decide) fun _ => ?_
    rw [if_pos rfl]
    exact (reads_list h rest).within _

theorem Codec.faithful_choice {known : List String} {name : α → String} {ofName : String → Option α}
    (h : ∀ a, ofName (name a) = some a) : (choice known name ofName).Faithful := by
  intro a
  refine ⟨writeText (name a), by rw [choice], opens_writeText _, fun rest _ => ?_⟩
  rw [choice, encode_writeText, List.cons_append, List.append_assoc, List.singleton_append]
  dsimp only
  refine .byte (by decide) fun _ => ?_
  rw [if_pos rfl]
  refine (reads_textBody (name a) rest).bind fun _ => ?_
  dsimp only
  rw [h a]
  exact .intro _

/-! ## Fields -/

/-- A value in every slot. -/
def Slots.full : {types : List Type} → Values types → Slots types
  | [], _ => ()
  | _ :: _, (v, vs) => (some v, Slots.full vs)

namespace Fields

/-- The codec of every field is faithful. -/
def Faithful : {types : List Type} → Fields types → Prop
  | _, nil => True
  | _, cons field fields => field.codec.Faithful ∧ fields.Faithful

theorem complete_full : {types : List Type} → (fields : Fields types) → (vs : Values types) →
    fields.complete (Slots.full vs) = .ok vs
  | _, nil, _ => rfl
  | _, cons _ fields, (v, vs) => by
    rw [Slots.full, complete, complete_full fields vs]
    rfl

section Members

variable {types : List Type} {field : Field α} {fields : Fields types}

/-- The member of the first field fills its slot. -/
theorem reads_member_first {v : α} {text : String} (h : field.codec.WritesBack v text)
    (slots : Slots types) (rest : Bytes) (hrest : EndsNumeral rest) :
    Reads
      ((cons field fields).member (none, slots) field.name (colon :: (Utf8.encode text ++ rest)))
      (some v, slots) rest := by
  rw [member, if_pos rfl]
  exact (reads_afterColon (h.2.2 rest hrest)).map fun v => (some v, slots)

/-- A member of another name is for the fields behind the first. -/
theorem member_other {key : String} (h : key ≠ field.name) (slot : Option α) (slots : Slots types)
    (s : Bytes) : (cons field fields).member (slot, slots) key s =
      (fields.member slots key s).map (·.map fun slots => (slot, slots)) := by
  cases slot with
  | none => rw [member, if_neg h]; rfl
  | some v => rw [member, if_neg h]; rfl

/-- Members of other names pass the first field by. -/
theorem members_behind (slot : Option α) {slots last : Slots types} {ms : List (String × String)}
    (h : Members fields.member slots ms last) (hname : ∀ m ∈ ms, m.1 ≠ field.name) :
    Members (cons field fields).member (slot, slots) ms (slot, last) := by
  induction h with
  | nil slots => exact .nil _
  | @cons slots next last key text ms taken others ih =>
    have hothers := ih fun m hm => hname m (List.mem_cons_of_mem _ hm)
    refine .cons (fun rest hrest => ?_) hothers
    rw [member_other (hname (key, text) List.mem_cons_self)]
    exact (taken rest hrest).map fun slots => (slot, slots)

end Members

/-- The values of faithful fields are written as members that fill every slot. -/
theorem members_write : {types : List Type} → (fields : Fields types) → fields.Faithful →
    fields.names.Nodup → (vs : Values types) →
    ∃ ms, fields.write vs = .ok (ms.map memberText) ∧ ms.map (·.1) = fields.names ∧
      Members fields.member Slots.empty ms (Slots.full vs)
  | _, nil, _, _, _ => ⟨[], rfl, rfl, .nil _⟩
  | _, cons field fields, hfaithful, hnames, (v, vs) => by
    obtain ⟨hfield, hfields⟩ := hfaithful
    -- The first member fills the first slot, and the others pass it by because their names differ.
    obtain ⟨hnew, hnames⟩ := List.nodup_cons.1 hnames
    obtain ⟨text, htext⟩ := hfield v
    obtain ⟨ms, hwrite, hms, hmembers⟩ := members_write fields hfields hnames vs
    refine ⟨(field.name, text) :: ms, ?_, ?_, ?_⟩
    · rw [write, htext.1, hwrite]
      rfl
    · rw [List.map_cons, hms]
      rfl
    · refine .cons (fun rest => reads_member_first htext Slots.empty rest)
        (members_behind _ hmembers ?_)
      intro m hm hname
      exact hnew (hms ▸ hname ▸ List.mem_map_of_mem hm)

end Fields

/-! ## Records -/

/-- Behind an opening brace a record is read as an object whose members fill all its slots. -/
theorem Record.reads_iff_of_brace (x : Record α) {s r rest : Bytes} {a : α}
    (hs : skipBlanks s = openObject :: r) :
    Reads (x.read s) a rest ↔
      ∃ last, Reads (object x.fields.member Slots.empty r) last rest ∧
        x.fields.complete last = .ok (x.toValues a) := by
  constructor
  · intro h
    rw [read] at h
    obtain ⟨b, r', hr, hs', h⟩ := h.of_first
    obtain ⟨rfl, rfl⟩ := List.cons.inj (hs.symm.trans hs')
    rw [if_pos rfl] at h
    obtain ⟨slots, hslots, h⟩ := h.of_bind
    split at h
    next vs hvs =>
      obtain ⟨rfl, rfl⟩ := reads_ok_iff.1 h
      exact ⟨slots.value, hslots, by
        rw [hvs]
        exact congrArg Except.ok (x.toValues_ofValues vs).symm⟩
    next => exact absurd h not_reads_error
  · rintro ⟨last, hlast, hvs⟩
    rw [read]
    refine .first hs fun _ => ?_
    rw [if_pos rfl]
    refine hlast.bind fun _ => ?_
    dsimp only
    rw [hvs]
    exact reads_ok_iff.2 ⟨x.ofValues_toValues a, rfl⟩

theorem Record.faithful (x : Record α) (hfields : x.fields.Faithful)
    (hnames : x.fields.names.Nodup) :
    x.codec.Faithful := by
  intro a
  obtain ⟨ms, hwrite, -, hmembers⟩ := x.fields.members_write hfields hnames (x.toValues a)
  have hencode : Utf8.encode ("\x7b" ++ ",".intercalate (ms.map memberText) ++ "\x7d") =
      openObject :: (Utf8.encode (",".intercalate (ms.map memberText)) ++ [closeObject]) := by
    rw [Utf8.encode_append, Utf8.encode_append]
    rfl
  refine ⟨"\x7b" ++ ",".intercalate (ms.map memberText) ++ "\x7d", ?_, ⟨_, _, hencode, by decide⟩,
    fun rest _ => ?_⟩
  · show x.write a = _
    rw [write, hwrite]
    rfl
  · show Reads (x.read _) _ _
    rw [hencode, List.cons_append, List.append_assoc, List.singleton_append]
    -- Every slot is filled, so no field is missing.
    exact (x.reads_iff_of_brace (skipBlanks_cons (by decide) _)).2
      ⟨_, reads_object hmembers rest, x.fields.complete_full _⟩

end Switchboard.Json
