/-
  Values are read where the grammar says.

  `Tree.value?` is the value that a tree stands for, unless one of its numbers is too large.
  `reads_value_iff`: a value is read, with at most so many lists and objects open, just where a tree
  is written that stands for it and that ends there; only a number could go on.

  The induction is on the depth.  For one layer of it the loops over elements and members are
  compared with the grammar as derivations, constructor by constructor (`elements_iff`,
  `entries_iff`).
-/
import Switchboard.Proofs.Json.Derivations

namespace Switchboard.Json

/-! ## What texts stand for -/

mutual

/-- The value of a tree, unless a number in it is too large. -/
def Tree.value? : Tree → Option Value
  | .null => some .null
  | .boolean b => some (.boolean b)
  | .number x => (x.value []).toOption.map .number
  | .text t => some (.text t)
  | .list items => (itemsValue? items).map .list
  | .object members => (membersValue? members).map .object

/-- The values of elements, unless a number is too large. -/
def itemsValue? : List Tree → Option (List Value)
  | [] => some []
  | tree :: trees => do return (← tree.value?) :: (← itemsValue? trees)

/-- The values of members under their names, unless a number is too large. -/
def membersValue? : List (String × Tree) → Option (Named Value)
  | [] => some []
  | (name, tree) :: members => do return (name, ← tree.value?) :: (← membersValue? members)

end

/-- Only a number could go on with what is behind it. -/
def Tree.EndsBefore : Tree → Bytes → Prop
  | .number x, rest => x.EndsBefore rest
  | _, _ => True

theorem EndsNumeral.endsTree {rest : Bytes} (h : EndsNumeral rest) (tree : Tree) :
    tree.EndsBefore rest := by
  cases tree with
  | number x => exact h.endsBefore x
  | null | boolean | text | list | object => trivial

theorem itemsValue?_cons_iff {tree : Tree} {trees : List Tree} {vs : List Value} :
    itemsValue? (tree :: trees) = some vs ↔
      ∃ v us, tree.value? = some v ∧ itemsValue? trees = some us ∧ vs = v :: us := by
  rw [itemsValue?]
  simp only [Option.bind_eq_bind, Option.bind_eq_some_iff, Option.pure_def, Option.some.injEq]
  constructor
  · rintro ⟨v, hv, us, hus, rfl⟩
    exact ⟨v, us, hv, hus, rfl⟩
  · rintro ⟨v, us, hv, hus, rfl⟩
    exact ⟨v, hv, us, hus, rfl⟩

theorem membersValue?_cons_iff {name : String} {tree : Tree} {members : List (String × Tree)}
    {vs : Named Value} :
    membersValue? ((name, tree) :: members) = some vs ↔
      ∃ v us, tree.value? = some v ∧ membersValue? members = some us ∧ vs = (name, v) :: us := by
  rw [membersValue?]
  simp only [Option.bind_eq_bind, Option.bind_eq_some_iff, Option.pure_def, Option.some.injEq]
  constructor
  · rintro ⟨v, hv, us, hus, rfl⟩
    exact ⟨v, us, hv, hus, rfl⟩
  · rintro ⟨v, us, hv, hus, rfl⟩
    exact ⟨v, hv, us, hus, rfl⟩

/-! ## Ends -/

theorem isBlank_iff {b : UInt8} : isBlank b = true ↔ b = 0x20 ∨ b = 0x0A ∨ b = 0x09 ∨ b = 0x0D := by
  simp only [isBlank, Bool.or_eq_true, beq_iff_eq, or_assoc]

/-- Behind blanks nothing goes on with a numeral, and nor do these. -/
theorem endsNumeral_of_skipBlanks {s r : Bytes} {b : UInt8} (hs : skipBlanks s = b :: r)
    (hb : isDigit b = false ∧ b ≠ 0x2E ∧ b ≠ 0x65 ∧ b ≠ 0x45) : EndsNumeral s := by
  cases s with
  | nil => exact endsNumeral_nil
  | cons c s =>
    refine endsNumeral_cons s ?_
    by_cases hc : isBlank c = true
    · rcases isBlank_iff.1 hc with rfl | rfl | rfl | rfl <;> decide
    · rw [skipBlanks_cons (Bool.eq_false_of_not_eq_true hc)] at hs
      rw [(List.cons.inj hs).1]
      exact hb

section Ends

variable {item : Tree → Bytes → Bytes → Prop} {s rest : Bytes}

theorem ItemsText.endsNumeral {items : List Tree} (h : ItemsText item items s rest) :
    EndsNumeral s := by
  cases h with
  | done hs | next hs => exact endsNumeral_of_skipBlanks hs (by decide)

theorem MembersText.endsNumeral {members : List (String × Tree)}
    (h : MembersText item members s rest) :
    EndsNumeral s := by
  cases h with
  | done hs | next hs => exact endsNumeral_of_skipBlanks hs (by decide)

end Ends

/-- A number begins with a minus or a digit. -/
theorem NumeralText.leads {x : Numeral} {text : Bytes} (h : NumeralText x text) :
    ∃ b t, text = b :: t ∧ (b = minus ∨ isDigit b = true) := by
  cases h with
  | negative => exact ⟨minus, _, rfl, .inl rfl⟩
  | positive hsign h =>
    obtain ⟨b, t, hbt, hb⟩ := h.leads
    exact ⟨b, t, hbt, .inr hb⟩

/-- A value does not begin with a closing bracket. -/
theorem LayerText.opens {item : Option (Tree → Bytes → Bytes → Prop)} {tree : Tree} {s rest : Bytes}
    (h : LayerText item tree s rest) : ∃ b r, skipBlanks s = b :: r ∧ b ≠ closeList := by
  cases h with
  | null hs | true hs | false hs => exact ⟨_, _, hs, by decide⟩
  | number hs h =>
    obtain ⟨b, t, rfl, hb⟩ := h.leads
    exact ⟨b, _, hs, (isBlank_of_leads hb).2⟩
  | text hs | list _ hs | object _ hs => exact ⟨_, _, hs, by decide⟩

/-! ## Elements and members -/

/-- The reader reads values where the text gives trees that stand for them. -/
def ReadsTexts (item : Reader Value) (text : Tree → Bytes → Bytes → Prop) : Prop :=
  ∀ {s v rest}, Reads (item s) v rest ↔
    ∃ tree, text tree s rest ∧ tree.value? = some v ∧ tree.EndsBefore rest

section Loops

variable {item : Reader Value} {text : Tree → Bytes → Bytes → Prop} (hitem : ReadsTexts item text)
  (hopens : ∀ {tree s rest}, text tree s rest → ∃ b r, skipBlanks s = b :: r ∧ b ≠ closeList)
  {s rest : Bytes}

include hitem

section Elements

include hopens

theorem elements_iff {vs : List Value} :
    Elements item s vs rest ↔ ∃ trees, ItemsText text trees s rest ∧
      itemsValue? trees = some vs := by
  constructor
  · intro h
    induction h with
    | done hs => exact ⟨[], .done hs, rfl⟩
    | next hs hr hb hx others ih =>
      obtain ⟨tree, htext, hv, -⟩ := hitem.1 hx
      obtain ⟨trees, htrees, hvs⟩ := ih
      exact ⟨tree :: trees, .next hs htext htrees, itemsValue?_cons_iff.2 ⟨_, _, hv, hvs, rfl⟩⟩
  · rintro ⟨trees, htrees, hvs⟩
    induction htrees generalizing vs with
    | done hs =>
      obtain rfl := Option.some.inj hvs
      exact .done hs
    | next hs htext others ih =>
      obtain ⟨v, us, hv, hus, rfl⟩ := itemsValue?_cons_iff.1 hvs
      obtain ⟨b, u, hr, hb⟩ := hopens htext
      exact .next hs hr hb (hitem.2 ⟨_, htext, hv, others.endsNumeral.endsTree _⟩) (ih hus)

theorem reads_list_text_iff {vs : List Value} :
    Reads (list item s) vs rest ↔ ∃ trees, ListText text trees s rest ∧
      itemsValue? trees = some vs := by
  rw [reads_list_iff]
  constructor
  · rintro (⟨hs, rfl⟩ | ⟨b, r, v, t, us, hs, hb, hv, hus, rfl⟩)
    · exact ⟨[], .empty hs, rfl⟩
    · obtain ⟨tree, htext, hv, -⟩ := hitem.1 hv
      obtain ⟨trees, htrees, hus⟩ := (elements_iff hitem hopens).1 hus
      exact ⟨tree :: trees, .items htext htrees, itemsValue?_cons_iff.2 ⟨_, _, hv, hus, rfl⟩⟩
  · rintro ⟨trees, htrees, hvs⟩
    cases htrees with
    | empty hs => exact .inl ⟨hs, (Option.some.inj hvs).symm⟩
    | items htext others =>
      obtain ⟨v, us, hv, hus, rfl⟩ := itemsValue?_cons_iff.1 hvs
      obtain ⟨b, r, hs, hb⟩ := hopens htext
      exact .inr ⟨b, r, v, _, us, hs, hb, hitem.2 ⟨_, htext, hv, others.endsNumeral.endsTree _⟩,
        (elements_iff hitem hopens).2 ⟨_, others, hus⟩, rfl⟩

end Elements

theorem reads_keyed_memberOf_iff {found ms : Named Value} :
    Reads (keyed (memberOf item) found s) ms rest ↔
      ∃ name tree v t u, CharactersText name.toList s t ∧
      skipBlanks t = colon :: u ∧ text tree u rest ∧ tree.value? = some v ∧ tree.EndsBefore rest ∧
      ms = (name, v) :: found := by
  rw [reads_keyed_iff]
  constructor
  · rintro ⟨name, t, hname, hmember⟩
    obtain ⟨v, rfl, hv⟩ := reads_map_iff.1 hmember
    obtain ⟨u, hcolon, hv⟩ := reads_afterColon_iff.1 hv
    obtain ⟨tree, htext, hv, hend⟩ := hitem.1 hv
    exact ⟨name, tree, v, t, u, reads_textBody_iff.1 hname, hcolon, htext, hv, hend, rfl⟩
  · rintro ⟨name, tree, v, t, u, hname, hcolon, htext, hv, hend, rfl⟩
    exact ⟨name, t, reads_textBody_iff.2 hname,
      reads_map_iff.2 ⟨v, rfl, reads_afterColon_iff.2 ⟨u, hcolon, hitem.2 ⟨tree, htext, hv, hend⟩⟩⟩⟩

theorem entries_iff {found ms : Named Value} :
    Entries (memberOf item) found s ms rest ↔
      ∃ members vs, MembersText text members s rest ∧ membersValue? members = some vs ∧
        ms = vs.reverse ++ found := by
  constructor
  · intro h
    induction h with
    | done hs => exact ⟨[], [], .done hs, rfl, rfl⟩
    | next hs hr hx others ih =>
      obtain ⟨name, tree, v, t, u, hname, hcolon, htext, hv, -, rfl⟩ :=
        (reads_keyed_memberOf_iff hitem).1 hx
      obtain ⟨members, vs, hmembers, hvs, rfl⟩ := ih
      refine ⟨(name, tree) :: members, (name, v) :: vs,
        .next hs (.intro hr hname hcolon htext) hmembers,
        membersValue?_cons_iff.2 ⟨_, _, hv, hvs, rfl⟩, ?_⟩
      rw [List.reverse_cons, List.append_assoc, List.singleton_append]
  · rintro ⟨members, vs, hmembers, hvs, rfl⟩
    induction hmembers generalizing found vs with
    | done hs =>
      obtain rfl := Option.some.inj hvs
      exact .done hs
    | next hs hmember others ih =>
      obtain ⟨v, us, hv, hus, rfl⟩ := membersValue?_cons_iff.1 hvs
      obtain ⟨hr, hname, hcolon, htext⟩ := hmember
      refine .next hs hr ((reads_keyed_memberOf_iff hitem).2
        ⟨_, _, v, _, _, hname, hcolon, htext, hv, others.endsNumeral.endsTree _, rfl⟩) ?_
      rw [List.reverse_cons, List.append_assoc, List.singleton_append]
      exact ih us hus

theorem reads_members_iff {ms : Named Value} :
    Reads (members item s) ms rest ↔
      ∃ members, ObjectText text members s rest ∧ membersValue? members = some ms := by
  constructor
  · intro h
    obtain ⟨found, rfl, hfound⟩ := reads_map_iff.1 h
    rcases reads_object_iff.1 hfound with ⟨hs, rfl⟩ | ⟨r, next, t, hs, hx, hothers⟩
    · exact ⟨[], .empty hs, rfl⟩
    · obtain ⟨name, tree, v, t, u, hname, hcolon, htext, hv, -, rfl⟩ :=
        (reads_keyed_memberOf_iff hitem).1 hx
      obtain ⟨members, vs, hmembers, hvs, rfl⟩ := (entries_iff hitem).1 hothers
      refine ⟨(name, tree) :: members, .members (.intro hs hname hcolon htext) hmembers, ?_⟩
      rw [List.reverse_append, List.reverse_reverse]
      exact membersValue?_cons_iff.2 ⟨_, _, hv, hvs, rfl⟩
  · rintro ⟨members, hmembers, hms⟩
    cases hmembers with
    | empty hs =>
      obtain rfl := Option.some.inj hms
      exact reads_map_iff.2 ⟨[], rfl, reads_object_iff.2 (.inl ⟨hs, rfl⟩)⟩
    | @members name _ _ _ _ _ hmember others =>
      obtain ⟨v, us, hv, hus, rfl⟩ := membersValue?_cons_iff.1 hms
      obtain ⟨hs, hname, hcolon, htext⟩ := hmember
      have hfirst : Reads (keyed (memberOf item) [] _) [(name, v)] _ :=
        (reads_keyed_memberOf_iff hitem).2
        ⟨_, _, v, _, _, hname, hcolon, htext, hv, others.endsNumeral.endsTree _, rfl⟩
      have hothers : Entries (memberOf item) [(name, v)] _ (us.reverse ++ [(name, v)]) rest :=
        (entries_iff hitem).2 ⟨_, us, others, hus, rfl⟩
      refine reads_map_iff.2 ⟨_, ?_, reads_object_iff.2 (.inr ⟨_, _, _, hs, hfirst, hothers⟩)⟩
      rw [List.reverse_append, List.reverse_reverse]
      rfl

end Loops

/-! ## Values -/

theorem encode_null : Utf8.encode "null" = 0x6E :: nullTail := by decide

theorem encode_true : Utf8.encode "true" = 0x74 :: trueTail := by decide

theorem encode_false : Utf8.encode "false" = 0x66 :: falseTail := by decide

section Layers

variable {s rest : Bytes}

theorem exists_text_of_scalar {text : Option (Tree → Bytes → Bytes → Prop)} {b : UInt8}
    {r : Bytes} {x : Scalar} (hs : skipBlanks s = b :: r) (h : ScalarRead b r x rest) :
    ∃ tree, LayerText text tree s rest ∧ tree.value? = some x.toValue ∧ tree.EndsBefore rest := by
  cases h with
  | null => exact ⟨.null, .null (by rw [hs, encode_null]; rfl), rfl, trivial⟩
  | true => exact ⟨.boolean true, .true (by rw [hs, encode_true]; rfl), rfl, trivial⟩
  | false => exact ⟨.boolean false, .false (by rw [hs, encode_false]; rfl), rfl, trivial⟩
  | @text _ _ t h => exact ⟨.text t, .text hs (reads_textBody_iff.1 h), rfl, trivial⟩
  | number hb h =>
    obtain ⟨x, hx, hv⟩ := reads_number_iff.1 h
    obtain ⟨text, htext, hr, hend⟩ := reads_numeral_iff.1 hx
    refine ⟨.number x, .number (hs.trans hr) htext, ?_, hend⟩
    rw [Tree.value?, Numeral.value_eq_ok hv []]
    rfl

/-- A number is read where one of its texts stands, if it is not too large. -/
theorem exists_scalar_of_number {x : Numeral} {text : Bytes} {n : Number}
    (htext : NumeralText x text)
    (hvalue : (x.value []).toOption = some n) (hend : x.EndsBefore rest) :
    ∃ b t, text = b :: t ∧ ScalarRead b (t ++ rest) (.number n) rest := by
  obtain ⟨b, t, rfl, hb⟩ := htext.leads
  have hok : x.value [] = .ok n := by
    cases h : x.value [] with
    | error f =>
      rw [h] at hvalue
      cases hvalue
    | ok m =>
      rw [h] at hvalue
      exact congrArg _ (Option.some.inj hvalue)
  exact ⟨b, t, rfl, .number hb (reads_number_iff.2
    ⟨x, reads_numeral_iff.2 ⟨b :: t, htext, rfl, hend⟩, Numeral.value_eq_ok hok rest⟩)⟩

/-- One layer of values is read where it is written. -/
theorem readsTexts_layer {reader : Option (Reader Value)}
    {text : Option (Tree → Bytes → Bytes → Prop)}
    (h : Option.Rel (fun item inner => ReadsTexts item inner ∧
      ∀ {tree s rest}, inner tree s rest → ∃ b r, skipBlanks s = b :: r ∧
        b ≠ closeList) reader text) :
    ReadsTexts (layer reader) (LayerText text) := by
  intro s v rest
  rw [reads_layer_iff]
  constructor
  · intro hread
    cases hread with
    | scalar hs hx => exact exists_text_of_scalar hs hx
    | list hs hreader hvs =>
      subst hreader
      cases h with
      | some h =>
        obtain ⟨trees, htrees, hvs⟩ := (reads_list_text_iff h.1 h.2).1 hvs
        exact ⟨.list trees, .list rfl hs htrees, by rw [Tree.value?, hvs]; rfl, trivial⟩
    | object hs hreader hms =>
      subst hreader
      cases h with
      | some h =>
        obtain ⟨members, hmembers, hms⟩ := (reads_members_iff h.1).1 hms
        exact ⟨.object members, .object rfl hs hmembers, by rw [Tree.value?, hms]; rfl, trivial⟩
  · rintro ⟨tree, htext, hv, hend⟩
    cases htext with
    | null hs =>
      obtain rfl := Option.some.inj hv
      rw [encode_null] at hs
      exact .scalar hs (.null rest)
    | true hs =>
      obtain rfl := Option.some.inj hv
      rw [encode_true] at hs
      exact .scalar hs (.true rest)
    | false hs =>
      obtain rfl := Option.some.inj hv
      rw [encode_false] at hs
      exact .scalar hs (.false rest)
    | text hs htext =>
      obtain rfl := Option.some.inj hv
      exact .scalar hs (.text (reads_textBody_iff.2 htext))
    | number hs htext =>
      rw [Tree.value?] at hv
      obtain ⟨n, hn, rfl⟩ := Option.map_eq_some_iff.1 hv
      obtain ⟨b, t, rfl, hscalar⟩ := exists_scalar_of_number htext hn hend
      exact .scalar hs hscalar
    | list hitem hs htext =>
      subst hitem
      cases h with
      | some h =>
        rw [Tree.value?] at hv
        obtain ⟨vs, hvs, rfl⟩ := Option.map_eq_some_iff.1 hv
        exact .list hs rfl ((reads_list_text_iff h.1 h.2).2 ⟨_, htext, hvs⟩)
    | object hitem hs htext =>
      subst hitem
      cases h with
      | some h =>
        rw [Tree.value?] at hv
        obtain ⟨ms, hms, rfl⟩ := Option.map_eq_some_iff.1 hv
        exact .object hs rfl ((reads_members_iff h.1).2 ⟨_, htext, hms⟩)

end Layers

/-- A value begins with a byte that closes no list. -/
theorem Written.opens {depth : Nat} {tree : Tree} {s rest : Bytes} (h : Written depth tree s rest) :
    ∃ b r, skipBlanks s = b :: r ∧ b ≠ closeList := by
  cases depth <;> exact LayerText.opens h

/-- A value is read where a tree is written that stands for it and ends there. -/
theorem reads_value_iff (depth : Nat) : ReadsTexts (value depth) (Written depth) := by
  induction depth with
  | zero =>
    show ReadsTexts (layer none) (LayerText none)
    exact readsTexts_layer .none
  | succ depth ih =>
    show ReadsTexts (layer (some (value depth))) (LayerText (some (Written depth)))
    exact readsTexts_layer (.some ⟨ih, Written.opens⟩)

end Switchboard.Json
