/-
  Objects spelled in any way.

  A `Spelling` is one member as a text may give it: the text of its key, with blanks around it and
  any escapes in it, and the text of its value.  `objectText` puts members into the text of an
  object.

  1. **Reading** — a reader of members that takes these in one after another (`Takes`) reads the
     text (`Takes.reads`).

  2. **Values** — read as values, the members come out in order, with repetitions
     (`envelope_objectText`).

  3. **Records** — read as a record, the members of the fields fill its slots in whatever order they
     come, and the others are passed over (`Record.decode_objectText`).
-/
import Switchboard.Proofs.Json.Codec
import Switchboard.Proofs.Json.Skip

namespace Switchboard.Json

variable {α σ : Type}

/-! ## Members -/

/-- A member of an object: a text that reads as its key, and the text of its value. -/
structure Spelling where
  key : String
  name : Bytes
  value : Bytes
  named : document text name = .ok key

namespace Spelling

/-- The text of a member. -/
def text (m : Spelling) : Bytes := m.name ++ colon :: m.value

/-- The text of a member in front of other bytes: behind blanks stands a quote, then the key. -/
theorem reads_key (m : Spelling) (rest : Bytes) :
    ∃ r blanks, skipBlanks (m.text ++ rest) = quote :: r ∧ skipBlanks blanks = [] ∧
      Reads (textBody r) m.key (blanks ++ colon :: (m.value ++ rest)) := by
  obtain ⟨blanks, hname, hblanks⟩ := document_iff.1 m.named
  obtain ⟨r, hs, hr⟩ := reads_text_iff.1 hname
  refine ⟨r ++ colon :: (m.value ++ rest), blanks, ?_, hblanks,
    reads_textBody_append hr (colon :: (m.value ++ rest))⟩
  rw [text, List.append_assoc, List.cons_append]
  exact skipBlanks_append hs _

end Spelling

/-- The bytes of members behind a comma each. -/
def behindCommasText (ms : List Spelling) : Bytes := ms.flatMap fun m => comma :: m.text

/-- The text of an object with these members. -/
def objectText : List Spelling → Bytes
  | [] => [openObject, closeObject]
  | m :: ms => openObject :: (m.text ++ (behindCommasText ms ++ [closeObject]))

/-! ## Reading -/

/-- The members lead from one state to another: each is taken in, whatever comes behind, but for
    blanks. -/
inductive Takes (member : σ → String → Reader σ) : σ → List Spelling → σ → Prop where
  | nil (state : σ) : Takes member state [] state
  | cons {state next last : σ} {m : Spelling} {ms : List Spelling}
      (taken : ∀ blanks rest, skipBlanks blanks = [] → EndsNumeral rest → ∃ left,
        skipBlanks left = [] ∧
          Reads (member state m.key (blanks ++ colon :: (m.value ++ rest))) next (left ++ rest))
      (others : Takes member next ms last) : Takes member state (m :: ms) last

section Reading

variable {member : σ → String → Reader σ}

theorem behindCommasText_cons (m : Spelling) (ms : List Spelling) (rest : Bytes) :
    behindCommasText (m :: ms) ++ rest = comma :: (m.text ++ (behindCommasText ms ++ rest)) := by
  rw [behindCommasText, List.flatMap_cons, List.cons_append, List.cons_append, List.append_assoc]
  rfl

/-- What follows a value in an object ends a numeral. -/
theorem endsNumeral_behindCommasText (ms : List Spelling) (rest : Bytes) :
    EndsNumeral (behindCommasText ms ++ closeObject :: rest) := by
  cases ms with
  | nil => exact endsNumeral_cons rest (by decide)
  | cons m ms =>
    rw [behindCommasText_cons]
    exact endsNumeral_cons _ (by decide)

/-- The first of the members is taken in behind the quote of its key. -/
theorem Takes.reads_first {state last : σ} {m : Spelling} {ms : List Spelling}
    (h : Takes member state (m :: ms) last) (rest : Bytes) :
    ∃ r next left,
      skipBlanks (m.text ++ (behindCommasText ms ++ closeObject :: rest)) = quote :: r ∧
      Reads (keyed member state r) next (left ++ (behindCommasText ms ++ closeObject :: rest)) ∧
      skipBlanks left = [] ∧ Takes member next ms last := by
  cases h with
  | @cons _ next _ _ _ taken others =>
    obtain ⟨r, blanks, hr, hblanks, hkey⟩ :=
      m.reads_key (behindCommasText ms ++ closeObject :: rest)
    obtain ⟨left, hleft, hread⟩ := taken blanks _ hblanks (endsNumeral_behindCommasText ms rest)
    exact ⟨r, next, left, hr, reads_keyed_iff.2 ⟨m.key, _, hkey, hread⟩, hleft, others⟩

theorem Takes.entries {state last : σ} {ms : List Spelling} (h : Takes member state ms last)
    {left : Bytes} (hleft : skipBlanks left = []) (rest : Bytes) :
    Entries member state (left ++ (behindCommasText ms ++ closeObject :: rest)) last rest := by
  induction ms generalizing state left with
  | nil =>
    cases h
    refine .done ?_
    rw [skipBlanks_append_of_nil hleft]
    exact skipBlanks_cons (by decide) rest
  | cons m ms ih =>
    obtain ⟨r, next, left', hr, hread, hleft', others⟩ := h.reads_first rest
    refine .next ?_ hr hread (ih others hleft')
    rw [skipBlanks_append_of_nil hleft, behindCommasText_cons]
    exact skipBlanks_cons (by decide) _

/-- The text of an object is read behind its opening brace. -/
theorem Takes.reads {start last : σ} {ms : List Spelling}
    (h : Takes member start ms last) (rest : Bytes) :
    ∃ s, objectText ms ++ rest = openObject :: s ∧ Reads (object member start s) last rest := by
  cases ms with
  | nil =>
    cases h
    exact ⟨closeObject :: rest, rfl,
      reads_object_iff.2 (.inl ⟨skipBlanks_cons (by decide) rest, rfl⟩)⟩
  | cons m ms =>
    obtain ⟨r, next, left, hr, hread, hleft, others⟩ := h.reads_first rest
    refine ⟨m.text ++ (behindCommasText ms ++ closeObject :: rest), ?_, ?_⟩
    · simp only [objectText, List.cons_append, List.append_assoc, List.nil_append]
    · exact reads_object_iff.2 (.inr ⟨r, next, _, hr, hread, others.entries hleft rest⟩)

end Reading

/-! ## Values -/

namespace Spelling

/-- The value of a member in an envelope. -/
def item (m : Spelling) : Value :=
  (document (Json.value (depthLimit - 1)) m.value).toOption.getD .null

/-- The value of a member is read at the depth that the object around it leaves. -/
def Valued (m : Spelling) : Prop := ∃ v, document (Json.value (depthLimit - 1)) m.value = .ok v

theorem valued_iff {m : Spelling} :
    m.Valued ↔ (document (Json.value (depthLimit - 1)) m.value).toOption.isSome = true := by
  rw [Valued]
  cases document (Json.value (depthLimit - 1)) m.value with
  | error f => exact ⟨nofun, nofun⟩
  | ok v => exact ⟨fun _ => rfl, fun _ => ⟨v, rfl⟩⟩

instance (m : Spelling) : Decidable m.Valued := decidable_of_iff _ valued_iff.symm

theorem Valued.item {m : Spelling} (h : m.Valued) :
    document (Json.value (depthLimit - 1)) m.value = .ok m.item := by
  obtain ⟨v, hv⟩ := h
  rw [Spelling.item, hv]
  rfl

end Spelling

theorem takes_memberOf {ms : List Spelling} (h : ∀ m ∈ ms, m.Valued) (found : Named Value) :
    Takes (memberOf (value (depthLimit - 1))) found ms
      ((ms.map fun m => (m.key, m.item)).reverse ++ found) := by
  induction ms generalizing found with
  | nil => exact .nil found
  | cons m ms ih =>
    obtain ⟨hm, hms⟩ := List.forall_mem_cons.1 h
    have hothers := ih hms ((m.key, m.item) :: found)
    rw [List.map_cons, List.reverse_cons, List.append_assoc, List.singleton_append]
    refine .cons (fun blanks rest hblanks hrest => ?_) hothers
    obtain ⟨left, hleft, hread⟩ := Extends.document (extends_value _) hm.item hrest
    refine ⟨left, hleft, reads_map_iff.2 ⟨m.item, rfl, reads_afterColon_iff.2 ⟨_, ?_, hread⟩⟩⟩
    rw [skipBlanks_append_of_nil hblanks]
    exact skipBlanks_cons (by decide) _

/-- Blanks around an object do not show. -/
theorem document_objectText {reader : Reader α} {a : α} {ms : List Spelling} {before behind : Bytes}
    (hbefore : skipBlanks before = []) (hbehind : skipBlanks behind = [])
    (h : ∀ {s r}, skipBlanks s = openObject :: r → objectText ms ++ behind = openObject :: r →
      Reads (reader s) a behind) :
    document reader (before ++ objectText ms ++ behind) = .ok a := by
  obtain ⟨r, hr⟩ : ∃ r, objectText ms ++ behind = openObject :: r := by
    cases ms <;> exact ⟨_, rfl⟩
  refine document_iff.2 ⟨behind, h (r := r) ?_ hr, hbehind⟩
  rw [List.append_assoc, skipBlanks_append_of_nil hbefore, hr]
  exact skipBlanks_cons (by decide) r

/-- The members of an envelope come out as they stand, with repetitions. -/
theorem envelope_objectText {ms : List Spelling} (h : ∀ m ∈ ms, m.Valued) {before behind : Bytes}
    (hbefore : skipBlanks before = []) (hbehind : skipBlanks behind = []) :
    document envelope (before ++ objectText ms ++ behind) =
      .ok (ms.map fun m => (m.key, m.item)) := by
  refine document_objectText hbefore hbehind fun {s r} hs hr => ?_
  obtain ⟨t, ht, hread⟩ := (takes_memberOf h []).reads behind
  obtain rfl : r = t := (List.cons.inj (hr.symm.trans ht)).2
  rw [envelope]
  refine .first hs fun _ => ?_
  rw [if_pos rfl]
  refine ((reads_map_iff (f := List.reverse)).2 ⟨_, ?_, hread⟩).within _
  rw [List.append_nil, List.reverse_reverse]

/-! ## Records -/

/-- What the codec reads is a value, and is read whatever comes behind. -/
structure Codec.Readable (c : Codec α) : Prop where
  extended : Extends c.read
  valued : ∀ {s a rest}, Reads (c.read s) a rest → ∃ v, Reads (value (depthLimit - 1) s) v rest

/-- The value slots of some names. -/
def Slots.of : {types : List Type} → Fields types → Values types → List String → Slots types
  | _, .nil, _, _ => ()
  | _, .cons field fields, (v, vs), seen =>
    (if field.name ∈ seen then some v else none, Slots.of fields vs seen)

namespace Fields

/-- The codec of every field is readable. -/
def Readable : {types : List Type} → Fields types → Prop
  | _, nil => True
  | _, cons field fields => field.codec.Readable ∧ fields.Readable

/-- A text gives the value of the field of a name; where no field has that name, it gives some
    value. -/
def Gives : {types : List Type} → Fields types → Values types → String → Bytes → Prop
  | _, nil, _, _, s => ∃ v, document (value (depthLimit - 1)) s = .ok v
  | _, cons field fields, (v, vs), key, s =>
    (key = field.name → document field.codec.read s = .ok v) ∧
      (key ≠ field.name → fields.Gives vs key s)

/-- The texts of the values of the fields, each under the name of its field. -/
def Spelled : {types : List Type} → Fields types → Values types → List Spelling → Prop
  | _, nil, _, ms => ms = []
  | _, cons field fields, (v, vs), ms => ∃ m others, ms = m :: others ∧ m.key = field.name ∧
    document field.codec.read m.value = .ok v ∧ fields.Spelled vs others

end Fields

/-! ## Slots -/

theorem Slots.of_nil : {types : List Type} → (fields : Fields types) → (vs : Values types) →
    Slots.of fields vs [] = Slots.empty
  | _, .nil, _ => rfl
  | _, .cons field fields, (v, vs) => by
    rw [Slots.of, of_nil fields vs, if_neg List.not_mem_nil]
    rfl

/-- A name that no field has fills no slot. -/
theorem Slots.of_cons_of_not_mem :
    {types : List Type} → (fields : Fields types) → (vs : Values types) →
    {key : String} → key ∉ fields.names → (seen : List String) →
    Slots.of fields vs (key :: seen) = Slots.of fields vs seen
  | _, .nil, _, _, _, _ => rfl
  | _, .cons field fields, (v, vs), key, hkey, seen => by
    obtain ⟨hne, hkey⟩ := not_or.1 (mt List.mem_cons.2 hkey)
    rw [Slots.of, Slots.of, of_cons_of_not_mem fields vs hkey seen]
    congr 1
    simp only [List.mem_cons, Ne.symm hne, false_or]

/-- When every field has been seen, every slot is filled. -/
theorem Slots.of_eq_full : {types : List Type} → (fields : Fields types) → (vs : Values types) →
    {seen : List String} → (∀ name ∈ fields.names, name ∈ seen) →
    Slots.of fields vs seen = Slots.full vs
  | _, .nil, _, _, _ => rfl
  | _, .cons field fields, (v, vs), seen, h => by
    obtain ⟨hfield, hfields⟩ := List.forall_mem_cons.1 h
    rw [Slots.of, of_eq_full fields vs hfields, if_pos hfield]
    rfl

namespace Fields

/-- A member is taken in: it fills the slot of its field, or it is passed over. -/
theorem takes_member : {types : List Type} → (fields : Fields types) → fields.Readable →
    fields.names.Nodup → (vs : Values types) → {key : String} →
    {s : Bytes} → fields.Gives vs key s →
    {seen : List String} → (key ∈ fields.names → key ∉ seen) → {blanks rest : Bytes} →
    skipBlanks blanks = [] → EndsNumeral rest →
    ∃ left, skipBlanks left = [] ∧
      Reads (fields.member (Slots.of fields vs seen) key (blanks ++ colon :: (s ++ rest)))
        (Slots.of fields vs (key :: seen)) (left ++ rest)
  | _, nil, _, _, vs, key, s, hgives, seen, _, blanks, rest, hblanks, hrest => by
    obtain ⟨v, hv⟩ := hgives
    obtain ⟨left, hleft, hread⟩ := Extends.document (extends_value _) hv hrest
    refine ⟨left, hleft,
      reads_map_iff.2 ⟨(), rfl, reads_afterColon_iff.2 ⟨_, ?_, reads_skip hread⟩⟩⟩
    rw [skipBlanks_append_of_nil hblanks]
    exact skipBlanks_cons (by decide) _
  | _, cons field fields, hreadable, hnames, (v, vs), key, s, hgives, seen,
      hseen, blanks, rest, hblanks, hrest => by
    obtain ⟨hfield, hfields⟩ := hreadable
    obtain ⟨hnew, hnames⟩ := List.nodup_cons.1 hnames
    by_cases hkey : key = field.name
    · obtain ⟨left, hleft, hread⟩ := Extends.document hfield.extended (hgives.1 hkey) hrest
      refine ⟨left, hleft, ?_⟩
      have hslot : field.name ∉ seen := hkey ▸ hseen (hkey ▸ List.mem_cons_self)
      rw [Slots.of, Slots.of, if_neg hslot, if_pos (hkey ▸ List.mem_cons_self),
        Slots.of_cons_of_not_mem fields vs (hkey ▸ hnew), member, if_pos hkey]
      refine reads_map_iff.2 ⟨v, rfl, reads_afterColon_iff.2 ⟨_, ?_, hread⟩⟩
      rw [skipBlanks_append_of_nil hblanks]
      exact skipBlanks_cons (by decide) _
    · obtain ⟨left, hleft, hread⟩ := takes_member fields hfields hnames vs (hgives.2 hkey)
        (fun h => hseen (List.mem_cons_of_mem _ h)) hblanks hrest
      refine ⟨left, hleft, ?_⟩
      rw [Slots.of, member_other hkey, Slots.of]
      refine reads_map_iff.2 ⟨_, ?_, hread⟩
      congr 1
      simp only [List.mem_cons, Ne.symm hkey, false_or]

/-- Members in any order fill the slots of the fields they name, each at most once. -/
theorem takes {types : List Type} {fields : Fields types} (hreadable : fields.Readable)
    (hnames : fields.names.Nodup) {vs : Values types} {ms : List Spelling}
    (hgives : ∀ m ∈ ms, fields.Gives vs m.key m.value)
    (honce : ((ms.map (·.key)).filter (· ∈ fields.names)).Nodup) {seen : List String}
    (hseen : ∀ m ∈ ms, m.key ∈ fields.names → m.key ∉ seen) :
    Takes fields.member (Slots.of fields vs seen) ms
      (Slots.of fields vs ((ms.map (·.key)).reverse ++ seen)) := by
  induction ms generalizing seen with
  | nil => exact .nil _
  | cons m ms ih =>
    obtain ⟨hm, hms⟩ := List.forall_mem_cons.1 hgives
    obtain ⟨hfirst, hlater⟩ := List.forall_mem_cons.1 hseen
    rw [List.map_cons, List.filter_cons] at honce
    have hothers : Takes fields.member (Slots.of fields vs (m.key :: seen)) ms
        (Slots.of fields vs ((ms.map (·.key)).reverse ++ m.key :: seen)) := ih hms ?_ ?_
    · rw [List.map_cons, List.reverse_cons, List.append_assoc, List.singleton_append]
      exact .cons (fun blanks rest => takes_member fields hreadable hnames vs hm hfirst) hothers
    · split at honce
      · exact (List.nodup_cons.1 honce).2
      · exact honce
    · intro m' hm' hname hmem
      rcases List.mem_cons.1 hmem with hsame | hmem
      · rw [if_pos (decide_eq_true (hsame ▸ hname))] at honce
        refine (List.nodup_cons.1 honce).1 (List.mem_filter.2 ⟨?_, decide_eq_true (hsame ▸ hname)⟩)
        exact hsame ▸ List.mem_map_of_mem hm'
      · exact hlater m' hm' hname hmem

end Fields

/-- The text of an object is read as a record when it has a member for each field, each once. -/
theorem Record.decode_objectText (x : Record α) (hreadable : x.fields.Readable)
    (hnames : x.fields.names.Nodup) (a : α) {ms : List Spelling}
    (hgives : ∀ m ∈ ms, x.fields.Gives (x.toValues a) m.key m.value)
    (honce : ((ms.map (·.key)).filter (· ∈ x.fields.names)).Nodup)
    (hall : ∀ name ∈ x.fields.names, name ∈ ms.map (·.key)) {before behind : Bytes}
    (hbefore : skipBlanks before = []) (hbehind : skipBlanks behind = []) :
    x.codec.decode (before ++ objectText ms ++ behind) = .ok a := by
  refine document_objectText hbefore hbehind fun {s r} hs hr => ?_
  -- No field has been seen in front of the first member.
  have htakes : Takes x.fields.member (Slots.of x.fields (x.toValues a) []) ms
      (Slots.of x.fields (x.toValues a) ((ms.map (·.key)).reverse ++ [])) :=
    Fields.takes hreadable hnames hgives honce fun _ _ _ => List.not_mem_nil
  obtain ⟨t, ht, hread⟩ := htakes.reads behind
  obtain rfl : r = t := (List.cons.inj (hr.symm.trans ht)).2
  rw [Slots.of_nil, List.append_nil,
    Slots.of_eq_full _ _ fun name hname => List.mem_reverse.2 (hall name hname)] at hread
  exact (x.reads_iff_of_brace hs).2 ⟨_, hread, x.fields.complete_full _⟩

end Switchboard.Json
