/-
  Records that are read from objects.

  1. **Codecs** — `Codec.Recognizes`: where a tree is written, a codec reads what the tree means to
     it, and nothing where it means nothing.

  2. **Members** — a member fills the slot of its field, if that is still empty and the member means
     something to it; a member of no field is passed over (`Fields.reads_member_iff`).

  3. **Objects** — the members of an object are taken one after another (`Taken`).  At the end the
     slots give the values of the fields just when each empty slot had one member, and each full one
     had none (`Fields.exists_taken_iff`).

  So an object is read as a record just when each field has exactly one member and the members mean
  its values (`Record.decode_iff`).
-/
import Switchboard.Proofs.Json.Codec
import Switchboard.Proofs.Json.Skip
import Switchboard.Proofs.Named

namespace Switchboard

namespace Json

open Switchboard.Number

variable {α σ : Type}

/-! ## Codecs -/

/-- Where a tree is written, the codec reads what the tree means, and it leaves what is behind the
    tree. -/
def Codec.Recognizes (c : Codec α) (means : Tree → α → Prop) : Prop :=
  ∀ {depth tree s rest}, Written depth tree s rest → EndsNumeral rest →
    ∀ {a t}, Reads (c.read s) a t ↔ means tree a ∧ t = rest

theorem Written.exists_layer {depth : Nat} {tree : Tree} {s rest : Bytes}
    (h : Written depth tree s rest) :
    ∃ item, LayerText item tree s rest := by
  cases depth <;> exact ⟨_, h⟩

/-- The text of an object stands behind a brace. -/
theorem Written.object {depth : Nat} {members : Named Tree} {s rest : Bytes}
    (h : Written depth (.object members) s rest) :
    ∃ r, skipBlanks s = openObject :: r ∧ ObjectText (Written (depth - 1)) members r rest := by
  cases depth with
  | zero =>
    cases (h : LayerText none _ _ _) with
    | object hitem => cases hitem
  | succ depth =>
    cases (h : LayerText (some (Written depth)) _ _ _) with
    | object hitem hs htext =>
      cases hitem
      exact ⟨_, hs, htext⟩

/-- A text that begins with a quote is that of a string. -/
theorem Written.text_of_quote {depth : Nat} {tree : Tree} {s r rest : Bytes}
    (h : Written depth tree s rest)
    (hs : skipBlanks s = quote :: r) : ∃ t, tree = .text t ∧ CharactersText t.toList r rest := by
  obtain ⟨item, hlayer⟩ := h.exists_layer
  cases hlayer with
  | null hs' | true hs' | false hs' =>
    exact absurd (List.cons.inj (hs.symm.trans hs')).1 (by decide)
  | list _ hs' | object _ hs' => exact absurd (List.cons.inj (hs.symm.trans hs')).1 (by decide)
  | number hs' hnumeral =>
    obtain ⟨b, u, rfl, hb⟩ := hnumeral.leads
    exact absurd (List.cons.inj (hs.symm.trans hs')).1 (ne_of_leads hb (by decide) rfl).symm
  | @text t _ r' _ hs' htext =>
    obtain rfl : r = r' := (List.cons.inj (hs.symm.trans hs')).2
    exact ⟨t, rfl, htext⟩

/-- A text that begins with a minus or a digit is that of a number. -/
theorem Written.number_of_leads {depth : Nat} {tree : Tree} {b : UInt8} {s r rest : Bytes}
    (h : Written depth tree s rest) (hs : skipBlanks s = b :: r)
    (hb : b = minus ∨ isDigit b = true) :
    ∃ x text, tree = .number x ∧ NumeralText x text ∧ b :: r = text ++ rest := by
  obtain ⟨item, hlayer⟩ := h.exists_layer
  have hne : ∀ {c t}, skipBlanks s = c :: t → c ≠ minus → isDigit c = false → False :=
    fun hs' hm hd =>
    ne_of_leads hb hm hd (List.cons.inj (hs.symm.trans hs')).1
  cases hlayer with
  | null hs' | true hs' | false hs' => exact (hne hs' (by decide) rfl).elim
  | text hs' | list _ hs' | object _ hs' => exact (hne hs' (by decide) rfl).elim
  | @number x _ text _ hs' hnumeral => exact ⟨x, text, rfl, hnumeral, hs.symm.trans hs'⟩

theorem Codec.recognizes_text : Codec.text.Recognizes fun tree t => tree = .text t := by
  intro depth tree s rest written _ t u
  have hread : Codec.text.read = Json.text := by rw [Codec.text]
  rw [hread]
  constructor
  · intro h
    obtain ⟨r, hs, hr⟩ := reads_text_iff.1 h
    obtain ⟨t', rfl, ht'⟩ := written.text_of_quote hs
    obtain ⟨rfl, rfl⟩ := hr.unique (reads_textBody_iff.2 ht')
    exact ⟨rfl, rfl⟩
  · rintro ⟨rfl, rfl⟩
    obtain ⟨item, hlayer⟩ := written.exists_layer
    cases hlayer with
    | text hs htext => exact reads_text_iff.2 ⟨_, hs, reads_textBody_iff.2 htext⟩

/-- Only an integer is read as one. -/
theorem Numeral.value_integer_iff {x : Numeral} {rest : Bytes} {z : Int} :
    x.value rest = .ok (.integer z) ↔ x.integer? = some z := by
  rw [value]
  cases x.integer? with
  | some w => exact ⟨fun h => by cases h; rfl, fun h => by cases h; rfl⟩
  | none =>
    refine ⟨fun h => ?_, fun h => by cases h⟩
    simp only [float] at h
    split at h
    · split at h <;> cases h
    · split at h <;> cases h

theorem Codec.recognizes_int64 :
    Codec.int64.Recognizes fun tree z => ∃ x, tree = .number x ∧ x.Spells z.toInt := by
  intro depth tree s rest written hrest z u
  have hread : Codec.int64.read = Json.int64 := by rw [Codec.int64]
  rw [hread, Json.int64, reads_map_iff]
  constructor
  · rintro ⟨w, rfl, h⟩
    obtain ⟨⟨hlow, hhigh⟩, b, r, hs, hscalar⟩ := reads_integer_iff.1 h
    cases hscalar with
    | number hb hnumber =>
      obtain ⟨x, hx, hvalue⟩ := reads_number_iff.1 hnumber
      obtain ⟨x', text, rfl, htext, hr⟩ := written.number_of_leads hs hb
      rw [hr] at hx
      obtain ⟨rfl, rfl⟩ := hx.unique (reads_numeral htext hrest)
      have hspells := (Numeral.integer?_eq_some_iff.1 (Numeral.value_integer_iff.1 hvalue)).1
      have hw : (Int64.ofInt w).toInt = w :=
        Int64.toInt_ofInt_of_le hlow (Int.lt_add_one_of_le hhigh)
      exact ⟨⟨x, rfl, by rwa [hw]⟩, rfl⟩
  · rintro ⟨⟨x, rfl, hspells⟩, rfl⟩
    have hlow : -(maxSigned64 : Int) - 1 ≤ z.toInt := z.le_toInt
    have hhigh : z.toInt ≤ maxSigned64 := Int.le_of_lt_add_one z.toInt_lt
    have hfits : (maxSigned64 : Int) ≤ maxUnsigned64 := by decide
    obtain ⟨item, hlayer⟩ := written.exists_layer
    cases hlayer with
    | number hs htext =>
      have hvalue : x.value u = .ok (.integer z.toInt) :=
        Numeral.value_integer_iff.2
          (Numeral.integer?_eq_some_iff.2 ⟨hspells, hlow, Int.le_trans hhigh hfits⟩)
      have hnumber := reads_number_iff.2 ⟨x, reads_numeral htext hrest, hvalue⟩
      obtain ⟨b, t, rfl, hb⟩ := htext.leads
      exact ⟨z.toInt, z.ofInt_toInt,
        reads_integer_iff.2 ⟨⟨hlow, hhigh⟩, b, t ++ u, hs, .number hb hnumber⟩⟩

/-! ## Members -/

/-- What trees mean to each field. -/
def Meanings : List Type → Type
  | [] => Unit
  | α :: types => (Tree → α → Prop) × Meanings types

/-- The codec of every field recognizes what trees mean to it. -/
inductive Fields.Recognize : {types : List Type} → Fields types → Meanings types → Prop where
  | nil : Fields.Recognize .nil ()
  | cons {α : Type} {types : List Type} {field : Field α} {fields : Fields types}
      {means : Tree → α → Prop}
      {meanings : Meanings types} (recognizes : field.codec.Recognizes means)
      (others : fields.Recognize meanings) :
      Fields.Recognize (.cons field fields) (means, meanings)

namespace Fields

/-- A member leads from slots to others: it fills the empty slot of the first field of its name, if
    there is one. -/
def Fills : {types : List Type} → Fields types → Meanings types → Slots types → String →
    Tree → Slots types → Prop
  | _, nil, _, slots, _, _, next => next = slots
  | _, cons field fields, (means, meanings), (slot, slots), key, tree, (slot', slots') =>
    if key = field.name then slot = none ∧ (∃ v, means tree v ∧ slot' = some v) ∧ slots' = slots
    else slot' = slot ∧ fields.Fills meanings slots key tree slots'

/-- The members of an object that are to come give the values of the empty slots, one each, and
    leave the full slots alone. -/
def Awaits : {types : List Type} → Fields types → Meanings types → Slots types →
    Named Tree → Values types → Prop
  | _, nil, _, _, _, _ => True
  | _, cons field fields, (means, meanings), (slot, slots), members, (v, vs) =>
    (slot = some v ∧ members.under field.name = [] ∨
      slot = none ∧ ∃ tree, members.under field.name = [tree] ∧ means tree v) ∧
    fields.Awaits meanings slots members vs

/-- A member is read where it fills a slot or is passed over. -/
theorem reads_member_iff :
    {types : List Type} → {fields : Fields types} → {meanings : Meanings types} →
    fields.Recognize meanings → {slots next : Slots types} → {key : String} → {depth : Nat} →
    {tree : Tree} → {s u t rest : Bytes} → skipBlanks s = colon :: u →
    Written depth tree u rest → EndsNumeral rest →
    (Reads (fields.member slots key s) next t ↔
      fields.Fills meanings slots key tree next ∧ t = rest)
  | _, nil, _, _, slots, next, key, depth, tree, s, u, t, rest, hs, written, hrest => by
    have hskip : Reads (skip u) () rest := written.skips (hrest.endsTree tree)
    show Reads ((afterColon skip s).map _) next t ↔ next = slots ∧ t = rest
    rw [reads_map_iff]
    constructor
    · rintro ⟨_, rfl, h⟩
      exact ⟨rfl, (((reads_afterColon_at_iff hs).1 h).unique hskip).2⟩
    · rintro ⟨rfl, rfl⟩
      exact ⟨(), rfl, (reads_afterColon_at_iff hs).2 hskip⟩
  | _, cons field fields, (means, meanings), hrecognize, (slot, slots), (slot', slots'),
      key, depth, tree, s, u, t, rest, hs, written, hrest => by
    obtain ⟨hfield, hfields⟩ : field.codec.Recognizes means ∧ fields.Recognize meanings := by
      cases hrecognize with
      | cons recognizes others => exact ⟨recognizes, others⟩
    by_cases hkey : key = field.name
    · rw [Fills, if_pos hkey]
      cases slot with
      | some v =>
        rw [member, if_pos hkey]
        refine ⟨fun h => absurd h not_reads_error, ?_⟩
        rintro ⟨⟨hslot, -⟩, -⟩
        cases hslot
      | none =>
        rw [member, if_pos hkey]
        refine Iff.trans reads_map_iff ?_
        constructor
        · rintro ⟨v, hslots, h⟩
          obtain ⟨rfl, rfl⟩ := Prod.mk.inj hslots
          obtain ⟨hmeans, rfl⟩ := (hfield written hrest).1 ((reads_afterColon_at_iff hs).1 h)
          exact ⟨⟨rfl, ⟨v, hmeans, rfl⟩, rfl⟩, rfl⟩
        · rintro ⟨⟨-, ⟨v, hmeans, rfl⟩, rfl⟩, rfl⟩
          exact ⟨v, rfl, (reads_afterColon_at_iff hs).2 ((hfield written hrest).2 ⟨hmeans, rfl⟩)⟩
    · rw [member_other hkey, Fills, if_neg hkey]
      refine Iff.trans reads_map_iff ?_
      constructor
      · rintro ⟨others, hslots, h⟩
        obtain ⟨rfl, rfl⟩ := Prod.mk.inj hslots
        obtain ⟨hfills, rfl⟩ := (reads_member_iff hfields hs written hrest).1 h
        exact ⟨⟨rfl, hfills⟩, rfl⟩
      · rintro ⟨⟨rfl, hfills⟩, rfl⟩
        exact ⟨slots', rfl, (reads_member_iff hfields hs written hrest).2 ⟨hfills, rfl⟩⟩

/-- A member of another name changes nothing for the fields behind the first. -/
theorem awaits_cons_of_not_mem :
    {types : List Type} → {fields : Fields types} → {meanings : Meanings types} →
    {slots : Slots types} → {key : String} → key ∉ fields.names → (tree : Tree) →
    {members : Named Tree} →
    {vs : Values types} →
    (fields.Awaits meanings slots ((key, tree) :: members) vs ↔
      fields.Awaits meanings slots members vs)
  | _, nil, _, _, _, _, _, _, _ => Iff.rfl
  | _, cons field fields, (means, meanings), (slot, slots), key, hkey, tree, members, (v, vs) => by
    obtain ⟨hne, hkey⟩ := not_or.1 (mt List.mem_cons.2 hkey)
    rw [Awaits, Awaits, Named.under_cons_of_ne hne, awaits_cons_of_not_mem hkey]

/-- What the slots await is what they await when the first member has been taken in. -/
theorem exists_fills_iff :
    {types : List Type} → {fields : Fields types} → {meanings : Meanings types} →
    fields.names.Nodup → {slots : Slots types} → {key : String} → {tree : Tree} →
    {members : Named Tree} →
    {vs : Values types} →
    ((∃ next, fields.Fills meanings slots key tree next ∧ fields.Awaits meanings next members vs) ↔
      fields.Awaits meanings slots ((key, tree) :: members) vs)
  | _, nil, _, _, slots, _, _, _, _ => ⟨fun _ => trivial, fun _ => ⟨slots, rfl, trivial⟩⟩
  | _, cons field fields, (means, meanings), hnames, (slot, slots), key,
      tree, members, (v, vs) => by
    obtain ⟨hnew, hnames⟩ := List.nodup_cons.1 hnames
    by_cases hkey : key = field.name
    · subst hkey
      rw [Awaits, Named.under_cons_self, awaits_cons_of_not_mem hnew]
      constructor
      · rintro ⟨⟨slot', slots'⟩, hfills, hawaits⟩
        rw [Fills, if_pos rfl] at hfills
        obtain ⟨rfl, ⟨u, hmeans, rfl⟩, rfl⟩ := hfills
        obtain ⟨hslot, hothers⟩ := hawaits
        rcases hslot with ⟨hv, hnone⟩ | ⟨hv, -⟩
        · obtain rfl := Option.some.inj hv
          exact ⟨.inr ⟨rfl, tree, by rw [hnone], hmeans⟩, hothers⟩
        · cases hv
      · rintro ⟨hslot, hothers⟩
        rcases hslot with ⟨-, hnone⟩ | ⟨rfl, tree', hone, hmeans⟩
        · cases hnone
        · obtain ⟨rfl, hnone⟩ := List.cons.inj hone
          refine ⟨(some v, slots), ?_, .inl ⟨rfl, hnone⟩, hothers⟩
          rw [Fills, if_pos rfl]
          exact ⟨rfl, ⟨v, hmeans, rfl⟩, rfl⟩
    · rw [Awaits, Named.under_cons_of_ne hkey, ← exists_fills_iff hnames]
      constructor
      · rintro ⟨⟨slot', slots'⟩, hfills, hslot, hothers⟩
        rw [Fills, if_neg hkey] at hfills
        obtain ⟨rfl, hfills⟩ := hfills
        exact ⟨hslot, slots', hfills, hothers⟩
      · rintro ⟨hslot, slots', hfills, hothers⟩
        refine ⟨(slot, slots'), ?_, hslot, hothers⟩
        rw [Fills, if_neg hkey]
        exact ⟨rfl, hfills⟩

/-- Slots that await no members are those of these values. -/
theorem awaits_nil_iff :
    {types : List Type} → {fields : Fields types} → {meanings : Meanings types} →
    {slots : Slots types} → {vs : Values types} →
    (fields.Awaits meanings slots [] vs ↔ fields.complete slots = .ok vs)
  | _, nil, _, _, _ => ⟨fun _ => rfl, fun _ => trivial⟩
  | _, cons field fields, (means, meanings), (slot, slots), (v, vs) => by
    rw [Awaits, @awaits_nil_iff _ fields]
    cases slot with
    | none =>
      rw [complete]
      constructor
      · rintro ⟨⟨h, -⟩ | ⟨-, tree, h, -⟩, -⟩
        · cases h
        · cases h
      · intro h
        cases h
    | some u =>
      rw [complete]
      constructor
      · rintro ⟨⟨hu, -⟩ | ⟨hu, -⟩, h⟩
        · obtain rfl := Option.some.inj hu
          rw [h]
          rfl
        · cases hu
      · intro h
        cases hothers : fields.complete slots with
        | error name =>
          rw [hothers] at h
          cases h
        | ok us =>
          rw [hothers] at h
          cases h
          exact ⟨.inl ⟨rfl, rfl⟩, rfl⟩

/-- At the beginning every field awaits one member. -/
theorem awaits_empty_cons_iff {types : List Type} {field : Field α} {fields : Fields types}
    {means : Tree → α → Prop}
    {meanings : Meanings types} {members : Named Tree} {v : α} {vs : Values types} :
    (cons field fields).Awaits (means, meanings) Slots.empty members (v, vs) ↔
      (∃ tree, members.under field.name = [tree] ∧ means tree v) ∧
        fields.Awaits meanings Slots.empty members vs := by
  rw [Slots.empty, Awaits]
  constructor
  · rintro ⟨⟨h, -⟩ | ⟨-, h⟩, others⟩
    · cases h
    · exact ⟨h, others⟩
  · rintro ⟨h, others⟩
    exact ⟨.inr ⟨rfl, h⟩, others⟩

end Fields

/-! ## Objects -/

/-- The members lead from one state to another, one after another. -/
inductive Taken (step : σ → String → Tree → σ → Prop) : σ → Named Tree → σ → Prop where
  | nil (state : σ) : Taken step state [] state
  | cons {state next last : σ} {key : String} {tree : Tree} {members : Named Tree}
      (h : step state key tree next)
      (others : Taken step next members last) : Taken step state ((key, tree) :: members) last

theorem taken_nil_iff {step : σ → String → Tree → σ → Prop} {state last : σ} :
    Taken step state [] last ↔ last = state :=
  ⟨fun h => by cases h; rfl, fun h => by rw [h]; exact .nil state⟩

theorem taken_cons_iff {step : σ → String → Tree → σ → Prop} {state last : σ}
    {key : String} {tree : Tree} {members : Named Tree} :
    Taken step state ((key, tree) :: members) last ↔
      ∃ next, step state key tree next ∧ Taken step next members last :=
  ⟨fun h => by cases h with | cons h others => exact ⟨_, h, others⟩,
    fun ⟨_, h, others⟩ => .cons h others⟩

/-- The values are complete at the end just when the slots await the members. -/
theorem Fields.exists_taken_iff {types : List Type} {fields : Fields types}
    {meanings : Meanings types}
    (hnames : fields.names.Nodup) {slots : Slots types} {members : Named Tree} {vs : Values types} :
    (∃ last, Taken (fields.Fills meanings) slots members last ∧ fields.complete last = .ok vs) ↔
      fields.Awaits meanings slots members vs := by
  induction members generalizing slots with
  | nil =>
    rw [awaits_nil_iff]
    exact ⟨fun ⟨last, h, hvs⟩ => taken_nil_iff.1 h ▸ hvs, fun h => ⟨slots, .nil slots, h⟩⟩
  | cons member members ih =>
    obtain ⟨key, tree⟩ := member
    rw [← exists_fills_iff hnames]
    constructor
    · rintro ⟨last, htaken, hvs⟩
      obtain ⟨next, hfills, htaken⟩ := taken_cons_iff.1 htaken
      exact ⟨next, hfills, ih.1 ⟨last, htaken, hvs⟩⟩
    · rintro ⟨next, hfills, hawaits⟩
      obtain ⟨last, htaken, hvs⟩ := ih.2 hawaits
      exact ⟨last, .cons hfills htaken, hvs⟩

/-- Where a colon and a tree stand, the reader of members does one step, and leaves what is behind
    the tree. -/
structure ReadsMembers (member : σ → String → Reader σ)
    (step : σ → String → Tree → σ → Prop) (depth : Nat) :
    Prop where
  reads_iff : ∀ {state next key tree s u t rest}, skipBlanks s = colon :: u →
    Written depth tree u rest →
    EndsNumeral rest → (Reads (member state key s) next t ↔ step state key tree next ∧ t = rest)

section Reading

variable {member : σ → String → Reader σ} {step : σ → String → Tree → σ → Prop} {depth : Nat}
  (hmember : ReadsMembers member step depth) {s t rest : Bytes}

include hmember

/-- A member is read behind the quote of its key. -/
theorem reads_keyed_text_iff {state next : σ} {key : String} {tree : Tree} {r : Bytes}
    (h : MemberText (Written depth) key tree s rest) (hs : skipBlanks s = quote :: r)
    (hrest : EndsNumeral rest) :
    Reads (keyed member state r) next t ↔ step state key tree next ∧ t = rest := by
  obtain ⟨hs', hkey, hcolon, written⟩ := h
  obtain rfl := (List.cons.inj (hs.symm.trans hs')).2
  have hkey := reads_textBody_iff.2 hkey
  rw [reads_keyed_iff, ← hmember.reads_iff hcolon written hrest]
  constructor
  · rintro ⟨key', r', hkey', h⟩
    obtain ⟨rfl, rfl⟩ := hkey'.unique hkey
    exact h
  · exact fun h => ⟨key, _, hkey, h⟩

theorem entries_text_iff {members : Named Tree} (h : MembersText (Written depth) members s rest)
    {state last : σ} :
    Entries member state s last t ↔ Taken step state members last ∧ t = rest := by
  induction h generalizing state with
  | done hs =>
    rw [taken_nil_iff]
    constructor
    · intro h
      cases h with
      | done hs' => exact ⟨rfl, (List.cons.inj (hs'.symm.trans hs)).2⟩
      | next hs' => exact absurd (List.cons.inj (hs'.symm.trans hs)).1 (by decide)
    · rintro ⟨rfl, rfl⟩
      exact .done hs
  | next hs htext others ih =>
    rw [taken_cons_iff]
    constructor
    · intro h
      cases h with
      | done hs' => exact absurd (List.cons.inj (hs'.symm.trans hs)).1 (by decide)
      | next hs' hr hx hothers =>
        obtain rfl := (List.cons.inj (hs.symm.trans hs')).2
        obtain ⟨hstep, rfl⟩ := (reads_keyed_text_iff hmember htext hr others.endsNumeral).1 hx
        obtain ⟨htaken, rfl⟩ := ih.1 hothers
        exact ⟨⟨_, hstep, htaken⟩, rfl⟩
    · rintro ⟨⟨next, hstep, htaken⟩, rfl⟩
      have hr := htext
      obtain ⟨hr, -, -, -⟩ := hr
      exact .next hs hr ((reads_keyed_text_iff hmember htext hr others.endsNumeral).2 ⟨hstep, rfl⟩)
        (ih.2 ⟨htaken, rfl⟩)

/-- Behind its opening brace an object is read as its members are taken in, one after another. -/
theorem reads_object_text_iff {members : Named Tree} (h : ObjectText (Written depth) members s rest)
    {start last : σ} :
    Reads (object member start s) last t ↔ Taken step start members last ∧ t = rest := by
  rw [reads_object_iff]
  cases h with
  | empty hs =>
    rw [taken_nil_iff]
    constructor
    · rintro (⟨hs', rfl⟩ | ⟨r, next, u, hs', -, -⟩)
      · exact ⟨rfl, (List.cons.inj (hs'.symm.trans hs)).2⟩
      · exact absurd (List.cons.inj (hs'.symm.trans hs)).1 (by decide)
    · rintro ⟨rfl, rfl⟩
      exact .inl ⟨hs, rfl⟩
  | members htext others =>
    have hs := htext
    obtain ⟨hs, -, -, -⟩ := hs
    rw [taken_cons_iff]
    constructor
    · rintro (⟨hs', rfl⟩ | ⟨r, next, u, hs', hx, hothers⟩)
      · exact absurd (List.cons.inj (hs'.symm.trans hs)).1 (by decide)
      · obtain ⟨hstep, rfl⟩ := (reads_keyed_text_iff hmember htext hs' others.endsNumeral).1 hx
        obtain ⟨htaken, rfl⟩ := (entries_text_iff hmember others).1 hothers
        exact ⟨⟨next, hstep, htaken⟩, rfl⟩
    · rintro ⟨⟨next, hstep, htaken⟩, rfl⟩
      exact .inr ⟨_, next, _, hs,
        (reads_keyed_text_iff hmember htext hs others.endsNumeral).2 ⟨hstep, rfl⟩,
          (entries_text_iff hmember others).2 ⟨htaken, rfl⟩⟩

end Reading

/-- An object is read as a record just when each field has one member, which means its value. -/
theorem Record.decode_iff (x : Record α) {meanings : Meanings x.types}
    (hrecognize : x.fields.Recognize meanings)
    (hnames : x.fields.names.Nodup) {depth : Nat} {members : Named Tree} {s rest : Bytes}
    (written : Written depth (.object members) s rest) (hrest : skipBlanks rest = []) {a : α} :
    x.codec.decode s = .ok a ↔ x.fields.Awaits meanings Slots.empty members (x.toValues a) := by
  have hmember : ReadsMembers x.fields.member (x.fields.Fills meanings) (depth - 1) :=
    ⟨Fields.reads_member_iff hrecognize⟩
  obtain ⟨r, hs, htext⟩ := written.object
  rw [← Fields.exists_taken_iff hnames]
  show document x.read s = .ok a ↔ _
  rw [document_iff]
  constructor
  · rintro ⟨t, h, -⟩
    obtain ⟨last, hlast, hvs⟩ := (x.reads_iff_of_brace hs).1 h
    exact ⟨last, ((reads_object_text_iff hmember htext).1 hlast).1, hvs⟩
  · rintro ⟨last, htaken, hvs⟩
    have hlast := (reads_object_text_iff hmember htext).2 ⟨htaken, rfl⟩
    exact ⟨rest, (x.reads_iff_of_brace hs).2 ⟨last, hlast, hvs⟩, hrest⟩

end Json

end Switchboard
