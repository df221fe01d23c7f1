/-
  Envelopes: requests with the name of their operation among the members.

  An `Envelope` of a record value is the text of an object that holds the fields of the value, one
  member more that names an operation, and further members of any other keys, in any order and
  spelling.

  Two readers see it.  One reads the record and passes the name by (`Envelope.decode`), the other
  reads all members as values and finds the name (`Envelope.last?_members`).  The object takes one
  of the levels that values may be nested, so what the further members hold has one level less.

  Any other payload is read as an envelope just when it is one object whose members can be read as
  values (`IsObject`), and with the values of its members (`document_envelope_iff`).
-/
import Switchboard.Proofs.Json.Filling
import Switchboard.Proofs.Json.ObjectText

namespace Switchboard

namespace Json

variable {α : Type}

/-! ## Readable codecs -/

/-- What a codec that reads only values reads as a document is a value. -/
theorem Codec.Readable.document_value {c : Codec α} (hc : c.Readable) {s : Bytes} {a : α}
    (h : c.decode s = .ok a) : ∃ v, document (value (depthLimit - 1)) s = .ok v := by
  obtain ⟨rest, hread, hrest⟩ := document_iff.1 h
  obtain ⟨v, hv⟩ := hc.valued hread
  exact ⟨v, document_iff.2 ⟨rest, hv, hrest⟩⟩

/-- Scalars are read as values at any depth. -/
theorem reads_value_of_scalar {depth : Nat} {s r rest : Bytes} {b : UInt8} {x : Scalar}
    (hs : skipBlanks s = b :: r) (h : ScalarRead b r x rest) :
    Reads (value depth s) x.toValue rest := by
  cases depth <;> exact reads_layer_iff.2 (.scalar hs h)

/-- A string is read as a value. -/
theorem reads_value_of_text {depth : Nat} {s rest : Bytes} {t : String}
    (h : Reads (text s) t rest) :
    Reads (value depth s) (.text t) rest := by
  obtain ⟨r, hs, hr⟩ := reads_text_iff.1 h
  exact reads_value_of_scalar hs (.text hr)

theorem Codec.readable_text : Codec.text.Readable := by
  constructor
  · rw [Codec.text]
    exact extends_text
  · intro s t rest h
    rw [Codec.text] at h
    exact ⟨_, reads_value_of_text h⟩

theorem Codec.readable_int64 : Codec.int64.Readable := by
  constructor
  · rw [Codec.int64]
    exact extends_int64
  · intro s z rest h
    rw [Codec.int64] at h
    obtain ⟨w, -, hw⟩ := reads_map_iff.1 h
    obtain ⟨-, b, r, hs, hscalar⟩ := reads_integer_iff.1 hw
    exact ⟨_, reads_value_of_scalar hs hscalar⟩

/-! ## Envelopes -/

/-- The text of an object that holds the fields of `a`, the name of an operation as the member
    `param`, and further members, in any order. -/
structure Envelope (x : Record α) (a : α) (param name : String) where
  members : List Spelling
  fields : List Spelling
  selector : Spelling
  further : List Spelling
  before : Bytes
  behind : Bytes
  order : members.Perm (selector :: (fields ++ further))
  spelled : x.fields.Spelled (x.toValues a) fields
  selects : selector.key = param ∧ document text selector.value = .ok name
  other : ∀ m ∈ further, m.key ≠ param ∧ m.key ∉ x.fields.names
  valued : ∀ m ∈ further, m.Valued
  blank_before : skipBlanks before = []
  blank_behind : skipBlanks behind = []

namespace Fields

variable {types : List Type}

/-- The spelled fields have the names of the fields. -/
theorem Spelled.keys : {types : List Type} → {fields : Fields types} → {vs : Values types} →
    {ms : List Spelling} → fields.Spelled vs ms → ms.map (·.key) = fields.names
  | _, nil, _, _, h => by rw [show _ = [] from h]; rfl
  | _, cons field fields, (v, vs), _, h => by
    obtain ⟨m, others, rfl, hm, -, hothers⟩ := h
    rw [List.map_cons, hm, hothers.keys]
    rfl

/-- Each gives the value of its field. -/
theorem Spelled.gives : {types : List Type} → {fields : Fields types} → {vs : Values types} →
    {ms : List Spelling} → fields.names.Nodup → fields.Spelled vs ms →
    ∀ m ∈ ms, fields.Gives vs m.key m.value
  | _, nil, _, _, _, h => by rw [show _ = [] from h]; exact nofun
  | _, cons field fields, (v, vs), _, hnames, h => by
    obtain ⟨m, others, rfl, hm, hv, hothers⟩ := h
    obtain ⟨hnew, hnames⟩ := List.nodup_cons.1 hnames
    refine List.forall_mem_cons.2 ⟨⟨fun _ => hv, fun hne => absurd hm hne⟩, fun m' hm' => ⟨?_, ?_⟩⟩
    · rintro hname
      exact absurd (hothers.keys ▸ hname ▸ List.mem_map_of_mem hm') hnew
    · exact fun _ => hothers.gives hnames m' hm'

/-- The values of readable fields are spelled as values. -/
theorem Spelled.valued : {types : List Type} → {fields : Fields types} → {vs : Values types} →
    {ms : List Spelling} → fields.Readable → fields.Spelled vs ms → ∀ m ∈ ms, m.Valued
  | _, nil, _, _, _, h => by rw [show _ = [] from h]; exact nofun
  | _, cons field fields, (v, vs), _, hreadable, h => by
    obtain ⟨m, others, rfl, -, hv, hothers⟩ := h
    exact List.forall_mem_cons.2 ⟨hreadable.1.document_value hv, hothers.valued hreadable.2⟩

/-- A member that no field is named by gives some value. -/
theorem gives_of_not_mem : {types : List Type} → (fields : Fields types) → (vs : Values types) →
    {m : Spelling} → m.key ∉ fields.names → m.Valued → fields.Gives vs m.key m.value
  | _, nil, _, _, _, hv => hv
  | _, cons field fields, (v, vs), m, hm, hv => by
    obtain ⟨hne, hm⟩ := not_or.1 (mt List.mem_cons.2 hm)
    exact ⟨fun h => absurd h hne, fun _ => fields.gives_of_not_mem vs hm hv⟩

end Fields

namespace Envelope

variable {x : Record α} {a : α} {param name : String} (e : Envelope x a param name)

/-- The bytes of the envelope. -/
def text : Bytes := e.before ++ objectText e.members ++ e.behind

/-- What selects the operation is read as its name. -/
theorem document_selector :
    document (value (depthLimit - 1)) e.selector.value = .ok (.text name) := by
  obtain ⟨rest, hread, hrest⟩ := document_iff.1 e.selects.2
  exact document_iff.2 ⟨rest, reads_value_of_text hread, hrest⟩

theorem selector_valued : e.selector.Valued := ⟨.text name, e.document_selector⟩

theorem forall_members {p : Spelling → Prop} (hselector : p e.selector)
    (hfields : ∀ m ∈ e.fields, p m)
    (hfurther : ∀ m ∈ e.further, p m) : ∀ m ∈ e.members, p m := by
  intro m hm
  rcases List.mem_cons.1 (e.order.mem_iff.1 hm) with rfl | hm
  · exact hselector
  rcases List.mem_append.1 hm with hm | hm
  · exact hfields m hm
  · exact hfurther m hm

section Record

variable (hreadable : x.fields.Readable) (hparam : param ∉ x.fields.names)

include hreadable

theorem members_valued : ∀ m ∈ e.members, m.Valued :=
  e.forall_members e.selector_valued (e.spelled.valued hreadable) e.valued

include hparam

/-- The record is read: the name and the further members are passed over. -/
theorem decode (hnames : x.fields.names.Nodup) : x.codec.decode e.text = .ok a := by
  have hkeys := e.spelled.keys
  have hselector : e.selector.key ∉ x.fields.names := by
    rw [e.selects.1]
    exact hparam
  refine x.decode_objectText hreadable hnames a ?_ ?_ ?_ e.blank_before e.blank_behind
  · exact e.forall_members (Fields.gives_of_not_mem _ _ hselector e.selector_valued)
      (e.spelled.gives hnames)
      fun m hm => Fields.gives_of_not_mem _ _ (e.other m hm).2 (e.valued m hm)
  -- Of all keys only those of the fields are names of fields.
  · refine (((e.order.map (·.key)).filter _).nodup_iff).2 ?_
    have hfurther : (e.further.map (·.key)).filter (· ∈ x.fields.names) = [] := by
      rw [List.filter_eq_nil_iff]
      intro key hkey
      obtain ⟨m, hm, rfl⟩ := List.mem_map.1 hkey
      simpa using (e.other m hm).2
    rw [List.map_cons, List.filter_cons, if_neg (by simpa using hselector), List.map_append,
      List.filter_append, hfurther, List.append_nil, hkeys]
    exact hnames.filter _
  · intro field hfield
    rw [← hkeys] at hfield
    obtain ⟨m, hm, rfl⟩ := List.mem_map.1 hfield
    refine List.mem_map_of_mem (e.order.mem_iff.2 ?_)
    exact List.mem_cons_of_mem _ (List.mem_append_left _ hm)

/-- The members are read, and the name is found among them. -/
theorem last?_members : ∃ members, document envelope e.text = .ok members ∧
    members.last? param = some (.text name) := by
  refine ⟨_, envelope_objectText (e.members_valued hreadable) e.blank_before e.blank_behind, ?_⟩
  have hitem : e.selector.item = .text name := by
    rw [Spelling.item, e.document_selector]
    rfl
  -- No other member has the key.
  have honly : ∀ m ∈ e.members, m.key = param → m.item = .text name := by
    refine e.forall_members (fun _ => hitem) ?_ fun m hm hkey => absurd hkey (e.other m hm).1
    intro m hm hkey
    have hmem : m.key ∈ x.fields.names := by
      rw [← e.spelled.keys]
      exact List.mem_map_of_mem hm
    rw [hkey] at hmem
    exact absurd hmem hparam
  refine Named.last?_eq_some
    (List.mem_map.2 ⟨e.selector, e.order.mem_iff.2 List.mem_cons_self, ?_⟩) ?_
  · rw [e.selects.1, hitem]
  · intro v hv
    obtain ⟨m, hm, hmv⟩ := List.mem_map.1 hv
    obtain ⟨hkey, rfl⟩ := Prod.mk.inj hmv
    exact honly m hm hkey

end Record

end Envelope

/-! ## Depth -/

/-- Lists one inside another. -/
def nestedLists (n : Nat) : Bytes := List.replicate n openList ++ List.replicate n closeList

theorem nestedLists_succ (n : Nat) (rest : Bytes) :
    nestedLists (n + 1) ++ rest = openList :: (nestedLists n ++ closeList :: rest) := by
  rw [nestedLists, nestedLists, List.replicate_succ, List.replicate_succ']
  simp only [List.cons_append, List.append_assoc, List.nil_append]

/-- Behind an opening bracket a list is read, with one level less for its elements. -/
theorem reads_value_openList_iff {depth : Nat} {s rest : Bytes} {v : Value} :
    Reads (value depth (openList :: s)) v rest ↔
      ∃ k xs, depth = k + 1 ∧ v = .list xs ∧ Reads (list (value k) s) xs rest := by
  have hblank : skipBlanks (openList :: s) = openList :: s := skipBlanks_cons (by decide) s
  constructor
  · intro h
    cases depth with
    | zero =>
      cases reads_layer_iff.1 h with
      | scalar hs hx =>
        obtain ⟨rfl, rfl⟩ := List.cons.inj (hblank.symm.trans hs)
        obtain ⟨reading, hreading, -⟩ := hx.scalar?
        cases hreading
      | list _ hinner => cases hinner
      | object _ hinner => cases hinner
    | succ k =>
      cases reads_layer_iff.1 h with
      | scalar hs hx =>
        obtain ⟨rfl, rfl⟩ := List.cons.inj (hblank.symm.trans hs)
        obtain ⟨reading, hreading, -⟩ := hx.scalar?
        cases hreading
      | list hs hinner hxs =>
        cases hinner
        obtain rfl := (List.cons.inj (hblank.symm.trans hs)).2
        exact ⟨k, _, rfl, rfl, hxs⟩
      | object hs =>
        exact absurd (List.cons.inj (hblank.symm.trans hs)).1 (by decide)
  · rintro ⟨k, xs, rfl, rfl, hxs⟩
    exact reads_layer_iff.2 (.list hblank rfl hxs)

/-- Lists nested no deeper than the limit are read. -/
theorem exists_reads_nestedLists {n depth : Nat} (h : n < depth) (rest : Bytes) :
    ∃ v, Reads (value depth (nestedLists (n + 1) ++ rest)) v rest := by
  induction n generalizing depth rest with
  | zero =>
    have hlist : Reads (list (value (depth - 1)) (closeList :: rest)) [] rest :=
      reads_list_iff.2 (.inl ⟨skipBlanks_cons (by decide) rest, rfl⟩)
    exact ⟨.list [], reads_value_openList_iff.2 ⟨depth - 1, [], by omega, rfl, hlist⟩⟩
  | succ n ih =>
    have hless : n < depth - 1 := by omega
    obtain ⟨v, hv⟩ := ih hless (closeList :: rest)
    have hopen : skipBlanks (nestedLists (n + 1) ++ closeList :: rest) =
        openList :: (nestedLists n ++ closeList :: closeList :: rest) := by
      rw [nestedLists_succ]
      exact skipBlanks_cons (by decide) _
    have hlist :
        Reads (list (value (depth - 1)) (nestedLists (n + 1) ++ closeList :: rest)) [v] rest :=
      reads_list_iff.2 (.inr ⟨openList, _, v, closeList :: rest, [], hopen, by decide, hv,
        .done (skipBlanks_cons (by decide) rest), rfl⟩)
    rw [nestedLists_succ]
    exact ⟨.list [v], reads_value_openList_iff.2 ⟨depth - 1, [v], by omega, rfl, hlist⟩⟩

/-- Lists nested deeper are not, whatever comes behind. -/
theorem not_reads_nestedLists {n depth : Nat} (h : depth < n) {more : Bytes}
    {v : Value} {rest : Bytes} :
    ¬Reads (value depth (nestedLists n ++ more)) v rest := by
  induction n generalizing depth more v rest with
  | zero => exact absurd h (Nat.not_lt_zero depth)
  | succ n ih =>
    rw [nestedLists_succ]
    intro hread
    obtain ⟨k, xs, rfl, -, hxs⟩ := reads_value_openList_iff.1 hread
    rcases reads_list_iff.1 hxs with ⟨hs, -⟩ | ⟨b, r, x, t, ys, -, -, hx, -, -⟩
    -- There is another list inside, so the first one is not empty.
    · obtain ⟨m, rfl⟩ : ∃ m, n = m + 1 := ⟨n - 1, by omega⟩
      rw [nestedLists_succ, skipBlanks_cons (by decide)] at hs
      exact absurd (List.cons.inj hs).1 (by decide)
    · exact ih (by omega) hx

/-- An object is not read as an envelope when its first member holds no value. -/
theorem not_envelope_objectText {m : Spelling} {ms : List Spelling} {behind : Bytes}
    (h : ∀ more v rest, ¬Reads (value (depthLimit - 1) (m.value ++ more)) v rest)
    {found : Named Value} :
    document envelope (objectText (m :: ms) ++ behind) ≠ .ok found := by
  intro hdocument
  obtain ⟨rest, hread, -⟩ := document_iff.1 hdocument
  rw [envelope] at hread
  obtain ⟨b, r, hr, hs, hread⟩ := hread.of_first
  split at hread
  next hb =>
    obtain ⟨pairs, -, hpairs⟩ := reads_map_iff.1 ((reads_within_iff _).1 hread)
    have hr : r = m.text ++ (behindCommasText ms ++ (closeObject :: behind)) := by
      rw [objectText, List.cons_append, skipBlanks_cons (by decide)] at hs
      rw [← (List.cons.inj hs).2]
      simp only [List.append_assoc, List.cons_append, List.nil_append]
    obtain ⟨s, blanks, hkey, hblanks, htext⟩ :=
      m.reads_key (behindCommasText ms ++ (closeObject :: behind))
    rw [← hr] at hkey
    rcases reads_object_iff.1 hpairs with ⟨hclose, -⟩ | ⟨t, next, u, ht, hmember, -⟩
    · rw [hkey] at hclose
      exact absurd (List.cons.inj hclose).1 (by decide)
    · obtain rfl := (List.cons.inj (hkey.symm.trans ht)).2
      obtain ⟨key, w, htext', hvalue⟩ := reads_keyed_iff.1 hmember
      obtain ⟨-, rfl⟩ := htext'.unique htext
      obtain ⟨v, -, hv⟩ := reads_map_iff.1 hvalue
      obtain ⟨z, hz, hv⟩ := reads_afterColon_iff.1 hv
      rw [skipBlanks_append_of_nil hblanks, skipBlanks_cons (by decide)] at hz
      rw [← (List.cons.inj hz).2] at hv
      exact h _ _ _ hv
  next => exact absurd hread not_reads_error

/-! ## Objects of any members -/

theorem itemsValue?_under {members : Named Tree} {vs : Named Value}
    (h : membersValue? members = some vs)
    (name : String) : itemsValue? (members.under name) = some (vs.under name) := by
  induction members generalizing vs with
  | nil =>
    obtain rfl := Option.some.inj h
    rfl
  | cons member members ih =>
    obtain ⟨key, tree⟩ := member
    obtain ⟨v, us, hv, hus, rfl⟩ := membersValue?_cons_iff.1 h
    by_cases hkey : key = name
    · subst hkey
      rw [Named.under_cons_self, Named.under_cons_self]
      exact itemsValue?_cons_iff.2 ⟨v, _, hv, ih hus, rfl⟩
    · rw [Named.under_cons_of_ne hkey, Named.under_cons_of_ne hkey]
      exact ih hus

theorem getLast?_of_itemsValue? {trees : List Tree} {vs : List Value}
    (h : itemsValue? trees = some vs) :
    trees.getLast?.map Tree.value? = vs.getLast?.map some := by
  induction trees generalizing vs with
  | nil =>
    obtain rfl := Option.some.inj h
    rfl
  | cons tree trees ih =>
    obtain ⟨v, us, hv, hus, rfl⟩ := itemsValue?_cons_iff.1 h
    cases trees with
    | nil =>
      obtain rfl := Option.some.inj hus
      exact congrArg some hv
    | cons tree' trees =>
      obtain ⟨v', us', hv', hus', rfl⟩ := itemsValue?_cons_iff.1 hus
      rw [List.getLast?_cons_cons, List.getLast?_cons_cons]
      exact ih hus

/-- The payload is one object with these members, as a text of limited depth in which no number is
    too large. -/
inductive IsObject (members : Named Tree) (payload : Bytes) : Prop where
  | intro {rest : Bytes} {values : Named Value}
      (written : Written depthLimit (.object members) payload rest)
      (blank : skipBlanks rest = []) (valued : membersValue? members = some values)

theorem reads_envelope_iff {s rest : Bytes} {values : Named Value} :
    Reads (envelope s) values rest ↔
      ∃ members, Written depthLimit (.object members) s rest ∧
        membersValue? members = some values := by
  have hitem : ReadsTexts (value (depthLimit - 1)) (Written (depthLimit - 1)) := reads_value_iff _
  constructor
  · intro h
    rw [envelope] at h
    obtain ⟨b, r, hr, hs, h⟩ := h.of_first
    split at h
    next hb =>
      obtain ⟨members, htext, hvalues⟩ := (reads_members_iff hitem).1 ((reads_within_iff _).1 h)
      exact ⟨members, LayerText.object rfl (hb ▸ hs) htext, hvalues⟩
    next => exact absurd h not_reads_error
  · rintro ⟨members, written, hvalues⟩
    obtain ⟨r, hs, htext⟩ := written.object
    rw [envelope]
    refine .first hs fun _ => ?_
    rw [if_pos rfl]
    exact ((reads_members_iff hitem).2 ⟨members, htext, hvalues⟩).within _

theorem document_envelope_iff {payload : Bytes} {values : Named Value} :
    document envelope payload = .ok values ↔
      ∃ members rest, Written depthLimit (.object members) payload rest ∧ skipBlanks rest = [] ∧
        membersValue? members = some values := by
  rw [document_iff]
  constructor
  · rintro ⟨rest, h, hrest⟩
    obtain ⟨members, written, hvalues⟩ := reads_envelope_iff.1 h
    exact ⟨members, rest, written, hrest, hvalues⟩
  · rintro ⟨members, rest, written, hrest, hvalues⟩
    exact ⟨rest, reads_envelope_iff.2 ⟨members, written, hvalues⟩, hrest⟩

/-- What stands for a string is a string. -/
theorem Tree.eq_text_of_value? {tree : Tree} {t : String} (h : tree.value? = some (.text t)) :
    tree = .text t := by
  cases tree with
  | null | boolean => cases h
  | text u =>
    cases h
    rfl
  | number x =>
    rw [value?] at h
    obtain ⟨n, -, hn⟩ := Option.map_eq_some_iff.1 h
    cases hn
  | list items =>
    rw [value?] at h
    obtain ⟨vs, -, hvs⟩ := Option.map_eq_some_iff.1 h
    cases hvs
  | object members =>
    rw [value?] at h
    obtain ⟨vs, -, hvs⟩ := Option.map_eq_some_iff.1 h
    cases hvs

end Json

end Switchboard
