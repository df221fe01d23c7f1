/-
  The todo store answers from its history alone.

  1. **Histories** — a history is a list of operations; `Store.after` is the store it leaves behind,
     and `Store.answers` are the answers along it.

  2. **What a history says** — `Present past id t`: the item `t` was added under `id`, which is the
     number of the addition, and has not been deleted since.  `Meets` says from this what every
     operation must answer; the store does not occur in it.

  3. **Representation** — `Represents past s`: the last id is the number of additions, the rows
     stand in increasing order of their ids, and they are the present items.  One lemma for each
     kind of operation says that this is kept.

  4. **Every answer** — `answers_meet_history`.
-/
import Mathlib
import Switchboard.Todos.Store

namespace Switchboard.Todos

namespace Store

/-! ## Histories -/

/-- What a store can be asked for. -/
inductive Op where
  | add (deadline description : String)
  | get (id : Int64)
  | delete (id : Int64)
  | list
  | len
  | isEmpty
  deriving Repr, DecidableEq

/-- What a store answers, for each thing it can be asked for. -/
inductive Answer where
  | added (todo : Todo)
  | found (todo : Option Todo)
  | deleted (present : Bool)
  | listed (todos : List Todo)
  | counted (n : Nat)
  | emptiness (empty : Bool)
  deriving Repr, DecidableEq

/-- The answer of a store, and the store afterwards. -/
def step (s : Store) : Op → Answer × Store
  | .add deadline description =>
    (.added (s.add deadline description).1, (s.add deadline description).2)
  | .get id => (.found (s.get? id), s)
  | .delete id => (.deleted (s.delete id).1, (s.delete id).2)
  | .list => (.listed s.toList, s)
  | .len => (.counted s.size, s)
  | .isEmpty => (.emptiness s.isEmpty, s)

/-- The store that a history leaves behind. -/
def after (past : List Op) : Store := past.foldl (fun s op => (s.step op).2) .empty

/-- The answers of a store along a history. -/
def answersFrom (s : Store) : List Op → List Answer
  | [] => []
  | op :: ops => (s.step op).1 :: answersFrom (s.step op).2 ops

/-- The answers of a fresh store along a history. -/
def answers (ops : List Op) : List Answer := answersFrom .empty ops

theorem after_concat (past : List Op) (op : Op) :
    after (past ++ [op]) = ((after past).step op).2 := by
  rw [after, List.foldl_append]
  rfl

theorem answersFrom_append (s : Store) (past future : List Op) :
    answersFrom s (past ++ future) =
      answersFrom s past ++ answersFrom (past.foldl (fun s op => (s.step op).2) s) future := by
  induction past generalizing s with
  | nil => rfl
  | cons op past ih =>
    rw [List.cons_append, answersFrom, ih, answersFrom, List.foldl_cons, List.cons_append]

theorem length_answersFrom (s : Store) (ops : List Op) :
    (answersFrom s ops).length = ops.length := by
  induction ops generalizing s with
  | nil => rfl
  | cons op ops ih => rw [answersFrom, List.length_cons, List.length_cons, ih]

theorem answers_concat (past : List Op) (op : Op) :
    answers (past ++ [op]) = answers past ++ [((after past).step op).1] :=
  answersFrom_append _ _ _

/-- The answer to an operation is what the store then gives, whatever comes later. -/
theorem answers_at (past : List Op) (op : Op) (future : List Op) :
    (answers (past ++ op :: future))[past.length]? = some ((after past).step op).1 := by
  have hlength : (answersFrom .empty past).length = past.length := length_answersFrom _ _
  rw [answers, answersFrom_append, ← hlength,
    List.getElem?_append_right (Nat.le_refl _), Nat.sub_self]
  rfl

/-! ## What a history says -/

/-- The operation is an addition. -/
def Op.isAdd : Op → Bool
  | .add .. => true
  | _ => false

/-- The number of additions. -/
def adds (past : List Op) : Nat := past.countP Op.isAdd

/-- The number of deletions that found something. -/
def removals (past : List Op) : Nat := (answers past).count (.deleted true)

/-- The item `t` was the addition number `id`, and has not been deleted since. -/
def Present (past : List Op) (id : Int64) (t : Todo) : Prop :=
  ∃ before deadline description later, past = before ++ .add deadline description :: later ∧
    id.toInt = adds before + 1 ∧ .delete id ∉ later ∧ t = ⟨id, deadline, description, .todo⟩

/-- What an operation must answer after a history. -/
def Meets (past : List Op) : Op → Answer → Prop
  | .add deadline description, .added t =>
    t.id.toInt = adds past + 1 ∧ t = ⟨t.id, deadline, description, .todo⟩
  | .get id, .found r => ∀ t, r = some t ↔ Present past id t
  | .delete id, .deleted present => present = true ↔ ∃ t, Present past id t
  | .list, .listed ts =>
    ts.Pairwise (fun t u => t.id.toInt < u.id.toInt) ∧ ∀ t, t ∈ ts ↔ Present past t.id t
  | .len, .counted n => n + removals past = adds past
  | .isEmpty, .emptiness empty => empty = true ↔ adds past = removals past
  | _, _ => False

/-! ## One operation further -/

section Concat

variable {past : List Op} {op : Op} {id : Int64} {t : Todo}

theorem adds_concat (past : List Op) (op : Op) :
    adds (past ++ [op]) = adds past + if op.isAdd then 1 else 0 := by
  rw [adds, List.countP_append, List.countP_singleton]
  rfl

theorem removals_concat (past : List Op) (op : Op) :
    removals (past ++ [op]) =
      removals past + if ((after past).step op).1 = .deleted true then 1 else 0 := by
  rw [removals, answers_concat, List.count_append, List.count_singleton]
  simp only [beq_iff_eq]
  rfl

/-- An item stays present unless it is deleted. -/
theorem Present.concat (h : Present past id t) (hop : op ≠ .delete id) :
    Present (past ++ [op]) id t := by
  obtain ⟨before, deadline, description, later, rfl, hid, hlater, ht⟩ := h
  refine ⟨before, deadline, description, later ++ [op], by simp, hid, ?_, ht⟩
  intro hmem
  rcases List.mem_append.1 hmem with hmem | hmem
  · exact hlater hmem
  · exact hop (List.mem_singleton.1 hmem).symm

/-- An item that is present is the one just added, or was present before and has not just been
    deleted. -/
theorem Present.of_concat (h : Present (past ++ [op]) id t) :
    (∃ deadline description, op = .add deadline description ∧ id.toInt = adds past + 1 ∧
      t = ⟨id, deadline, description, .todo⟩) ∨
    (Present past id t ∧ op ≠ .delete id) := by
  obtain ⟨before, deadline, description, later, hsplit, hid, hlater, ht⟩ := h
  -- The addition is the last operation, or something comes behind it.
  rcases List.eq_nil_or_concat later with rfl | ⟨later', last, rfl⟩
  · obtain ⟨rfl, hop⟩ := List.append_inj' hsplit rfl
    exact .inl ⟨deadline, description, List.head_eq_of_cons_eq hop, hid, ht⟩
  · rw [List.concat_eq_append] at hsplit hlater
    rw [← List.cons_append, ← List.append_assoc] at hsplit
    obtain ⟨rfl, hop⟩ := List.append_inj' hsplit rfl
    obtain rfl := List.head_eq_of_cons_eq hop
    refine .inr ⟨⟨before, deadline, description, later', rfl, hid, ?_, ht⟩, ?_⟩
    · exact fun hmem => hlater (List.mem_append_left _ hmem)
    · rintro rfl
      exact hlater (List.mem_append_right _ List.mem_cons_self)

/-- The items of a history have ids from 1 up to the number of additions. -/
theorem Present.bounds (h : Present past id t) :
    t.id = id ∧ 1 ≤ id.toInt ∧ id.toInt ≤ adds past := by
  obtain ⟨before, deadline, description, later, rfl, hid, -, rfl⟩ := h
  refine ⟨rfl, by omega, ?_⟩
  have hadds : adds (before ++ .add deadline description :: later) =
      adds before + (adds later + 1) := by
    rw [adds, List.countP_append, List.countP_cons]
    rfl
  omega

end Concat

/-! ## Rows in order -/

/-- Rows stand in increasing order of their ids. -/
def Increasing (rows : List Todo) : Prop := rows.Pairwise fun t u => t.id.toInt < u.id.toInt

section Rows

variable {rows : List Todo} {t : Todo} {id : Int64}

/-- A larger id goes to the end. -/
theorem insertRow_last (h : ∀ u ∈ rows, u.id.toInt < t.id.toInt) :
    insertRow t rows = rows ++ [t] := by
  induction rows with
  | nil => rfl
  | cons u rows ih =>
    have hu : u.id.toInt < t.id.toInt := h u List.mem_cons_self
    have hne : t.id ≠ u.id := fun he => by rw [he] at hu; omega
    have hlt : ¬t.id < u.id := fun hlt => by have := Int64.lt_iff_toInt_lt.1 hlt; omega
    rw [insertRow, if_neg hne, if_neg hlt, ih fun v hv => h v (List.mem_cons_of_mem u hv),
      List.cons_append]

/-- Rows in order are found by their ids. -/
theorem Increasing.find? (h : Increasing rows) :
    rows.find? (·.id = id) = some t ↔ t ∈ rows ∧ t.id = id := by
  induction rows with
  | nil => exact ⟨nofun, fun h => nomatch h.1⟩
  | cons u rows ih =>
    obtain ⟨hu, hrows⟩ := List.pairwise_cons.1 h
    rw [List.find?_cons, List.mem_cons]
    by_cases hid : u.id = id
    · -- The rows behind have larger ids.
      rw [decide_eq_true hid]
      constructor
      · intro he
        cases he
        exact ⟨.inl rfl, hid⟩
      · rintro ⟨rfl | ht, htid⟩
        · rfl
        · have := hu t ht
          rw [hid, htid] at this
          exact absurd this (Int.lt_irrefl _)
    · rw [decide_eq_false hid]
      refine (ih hrows).trans ⟨fun h => ⟨.inr h.1, h.2⟩, ?_⟩
      rintro ⟨rfl | ht, htid⟩
      · exact absurd htid hid
      · exact ⟨ht, htid⟩

/-- Leaving out an id leaves out one row, if there is one. -/
theorem Increasing.length_filter (h : Increasing rows) (id : Int64) :
    (rows.filter (·.id ≠ id)).length + (if (rows.find? (·.id = id)).isSome then 1 else 0) =
      rows.length := by
  induction rows with
  | nil => rfl
  | cons u rows ih =>
    obtain ⟨hu, hrows⟩ := List.pairwise_cons.1 h
    by_cases hid : u.id = id
    · have hkeep : rows.filter (·.id ≠ id) = rows := by
        refine List.filter_eq_self.2 fun t ht => decide_eq_true fun htid => ?_
        have := hu t ht
        rw [hid, htid] at this
        omega
      rw [List.find?_cons, decide_eq_true hid, List.filter_cons, if_neg (by simp [hid]), hkeep]
      rfl
    · rw [List.find?_cons, decide_eq_false hid, List.filter_cons,
        if_pos (by simp [hid]), List.length_cons, List.length_cons, ← ih hrows, Nat.add_right_comm]

end Rows

/-! ## Representation -/

/-- The store stands for a history: the last id is the number of additions, and the rows are the
    items that are present, in increasing order of their ids. -/
structure Represents (past : List Op) (s : Store) : Prop where
  last : s.lastId.toInt = adds past
  increasing : Increasing s.rows
  present : ∀ t, t ∈ s.rows ↔ Present past t.id t
  size : s.rows.length + removals past = adds past

namespace Represents

variable {past : List Op} {s : Store}

theorem get? (h : Represents past s) (id : Int64) (t : Todo) :
    s.get? id = some t ↔ Present past id t := by
  rw [Store.get?, h.increasing.find?, h.present]
  constructor
  · rintro ⟨hp, rfl⟩
    exact hp
  · intro hp
    obtain ⟨rfl, -⟩ := hp.bounds
    exact ⟨hp, rfl⟩

theorem isSome_get? (h : Represents past s) (id : Int64) :
    (s.get? id).isSome = true ↔ ∃ t, Present past id t := by
  rw [Option.isSome_iff_exists]
  exact exists_congr fun t => h.get? id t

/-- While there are fewer than `2 ^ 63` additions the next id is one more than the last. -/
theorem nextId (h : Represents past s) (few : adds past + 1 < 2 ^ 63) :
    (s.lastId + 1).toInt = adds past + 1 := by
  rw [Int64.toInt_add, h.last, Int.bmod_eq_of_le]
  · rfl
  · have : (1 : Int64).toInt = 1 := rfl
    omega
  · have : (1 : Int64).toInt = 1 := rfl
    omega

theorem empty : Represents [] .empty where
  last := rfl
  increasing := .nil
  present t := by
    refine ⟨nofun, ?_⟩
    rintro ⟨before, deadline, description, later, hsplit, -⟩
    exact absurd hsplit (by simp)
  size := rfl

/-- What only looks at the store changes nothing. -/
theorem look (h : Represents past s) {op : Op} (hadd : op.isAdd = false)
    (hdelete : ∀ id, op ≠ .delete id) (hanswer : ((after past).step op).1 ≠ .deleted true) :
    Represents (past ++ [op]) s where
  last := by rw [adds_concat, hadd]; exact h.last
  increasing := h.increasing
  present t := by
    rw [h.present]
    refine ⟨fun hp => hp.concat (hdelete t.id), fun hp => ?_⟩
    rcases hp.of_concat with ⟨_, _, rfl, -⟩ | ⟨hp, -⟩
    · exact nomatch hadd
    · exact hp
  size := by rw [adds_concat, hadd, removals_concat, if_neg hanswer]; exact h.size

/-- The rows behind an addition: the new one stands at the end. -/
theorem rows_add (h : Represents past s) (few : adds past + 1 < 2 ^ 63)
    (deadline description : String) :
    (s.add deadline description).2.rows = s.rows ++
      [⟨s.lastId + 1, deadline, description, .todo⟩] := by
  refine insertRow_last fun u hu => ?_
  obtain ⟨-, -, hbound⟩ := ((h.present u).1 hu).bounds
  have hnext := h.nextId few
  show u.id.toInt < (s.lastId + 1).toInt
  omega

theorem add (h : Represents past (after past)) (deadline description : String)
    (few : adds past + 1 < 2 ^ 63) :
    Represents (past ++ [.add deadline description])
      (after (past ++ [.add deadline description])) := by
  have hrows := h.rows_add few deadline description
  have hnext := h.nextId few
  have hadds : adds (past ++ [.add deadline description]) = adds past + 1 := adds_concat _ _
  rw [after_concat]
  show Represents _ ((after past).add deadline description).2
  refine ⟨?_, ?_, fun t => ?_, ?_⟩
  · rw [hadds]
    exact hnext
  -- Every id so far is at most the number of additions.
  · rw [hrows, Increasing, List.pairwise_append]
    refine ⟨h.increasing, List.pairwise_singleton _ _, fun u hu v hv => ?_⟩
    obtain rfl := List.mem_singleton.1 hv
    obtain ⟨-, -, hbound⟩ := ((h.present u).1 hu).bounds
    show u.id.toInt < ((after past).lastId + 1).toInt
    omega
  · rw [hrows, List.mem_append, List.mem_singleton, h.present]
    constructor
    · rintro (hp | rfl)
      · exact hp.concat nofun
      · exact ⟨past, deadline, description, [], rfl, hnext, nofun, rfl⟩
    · intro hp
      rcases hp.of_concat with ⟨_, _, hop, hid, ht⟩ | ⟨hp, -⟩
      · obtain ⟨rfl, rfl⟩ := Op.add.inj hop
        have hid' : t.id = (after past).lastId + 1 := Int64.toInt_inj.1 (hid.trans hnext.symm)
        exact .inr (hid' ▸ ht)
      · exact .inl hp
  · have hremovals : removals (past ++ [.add deadline description]) = removals past := by
      rw [removals_concat, if_neg (by exact nofun), Nat.add_zero]
    rw [hrows, hadds, hremovals, List.length_append, List.length_singleton,
      Nat.add_right_comm, h.size]

theorem delete (h : Represents past (after past)) (id : Int64) :
    Represents (past ++ [.delete id]) (after (past ++ [.delete id])) := by
  have hadds : adds (past ++ [.delete id]) = adds past := adds_concat _ _
  rw [after_concat]
  show Represents _ ((after past).delete id).2
  refine ⟨?_, ?_, fun t => ?_, ?_⟩
  · rw [hadds]
    exact h.last
  · exact h.increasing.sublist List.filter_sublist
  · show t ∈ (after past).rows.filter (·.id ≠ id) ↔ _
    rw [List.mem_filter, h.present, decide_eq_true_iff]
    constructor
    · rintro ⟨hp, hne⟩
      exact hp.concat fun he => hne (Op.delete.inj he).symm
    · intro hp
      rcases hp.of_concat with ⟨_, _, hop, -⟩ | ⟨hp, hne⟩
      · exact nomatch hop
      · exact ⟨hp, fun he => hne (he ▸ rfl)⟩
  -- A deletion that finds something makes the rows one fewer and the removals one more.
  · have hanswer : ((after past).step (.delete id)).1 = .deleted true ↔
        ((after past).rows.find? (·.id = id)).isSome = true :=
      ⟨Answer.deleted.inj, congrArg Answer.deleted⟩
    have hlength := h.increasing.length_filter id
    have hsize := h.size
    show ((after past).rows.filter (·.id ≠ id)).length + _ = _
    rw [hadds, removals_concat]
    simp only [hanswer]
    omega

/-- The representation is kept from the fresh store on, while there are fewer than `2 ^ 63`
    additions. -/
theorem after (past : List Op) (few : adds past < 2 ^ 63) : Represents past (Store.after past) := by
  -- Induction on the history from its end: the last operation is one step further.
  induction past using List.reverseRecOn with
  | nil => exact .empty
  | append_singleton past op ih =>
    rw [adds_concat] at few
    have h := ih (by omega)
    cases op with
    | add deadline description => exact h.add deadline description few
    | delete id => exact h.delete id
    | get id => rw [after_concat]; exact h.look rfl nofun nofun
    | list => rw [after_concat]; exact h.look rfl nofun nofun
    | len => rw [after_concat]; exact h.look rfl nofun nofun
    | isEmpty => rw [after_concat]; exact h.look rfl nofun nofun

end Represents

/-! ## Every answer -/

/-- A store that stands for a history answers as the history says. -/
theorem Represents.meets {past : List Op} {s : Store} (h : Represents past s) (op : Op)
    (few : adds (past ++ [op]) < 2 ^ 63) : Meets past op (s.step op).1 := by
  rw [adds_concat] at few
  cases op with
  | add deadline description => exact ⟨h.nextId few, rfl⟩
  | get id => exact h.get? id
  | delete id => exact h.isSome_get? id
  | list => exact ⟨h.increasing, h.present⟩
  | len => exact h.size
  | isEmpty =>
    have hsize := h.size
    show (s.rows.length == 0) = true ↔ _
    rw [beq_iff_eq]
    omega

/-- The id that an answer gives to a new item. -/
def Answer.givenId? : Answer → Option Int64
  | .added t => some t.id
  | _ => none

/-- The ids that are given along a history, in order. -/
def givenIds (ops : List Op) : List Int64 := (answers ops).filterMap Answer.givenId?

/-- The ids are counted up from 1. -/
theorem toInt_givenIds (ops : List Op) (few : adds ops < 2 ^ 63) :
    (givenIds ops).map Int64.toInt = (List.range (adds ops)).map fun k : Nat => (k : Int) + 1 := by
  induction ops using List.reverseRecOn with
  | nil => rfl
  | append_singleton past op ih =>
    have hpast : adds past < 2 ^ 63 := by rw [adds_concat] at few; omega
    have hanswer := (Represents.after past hpast).meets op few
    rw [givenIds, answers_concat, List.filterMap_append, List.map_append,
      ← givenIds, ih hpast, adds_concat]
    cases op with
    | add deadline description =>
      have hid : ((Store.after past).lastId + 1).toInt = adds past + 1 := hanswer.1
      show _ ++ [((Store.after past).lastId + 1).toInt] = (List.range (adds past + 1)).map _
      rw [List.range_succ, List.map_append, List.map_singleton, hid]
    | get id => exact List.append_nil _
    | delete id => exact List.append_nil _
    | list => exact List.append_nil _
    | len => exact List.append_nil _
    | isEmpty => exact List.append_nil _

theorem nodup_givenIds (ops : List Op) (few : adds ops < 2 ^ 63) : (givenIds ops).Nodup := by
  have hrange : ((givenIds ops).map Int64.toInt).Nodup := by
    rw [toInt_givenIds ops few, List.Nodup, List.pairwise_map]
    exact List.nodup_range.imp fun hjk he => hjk (by omega)
  exact (List.pairwise_map.1 hrange).imp fun hne he => hne (congrArg Int64.toInt he)

/-- **The store is its history.**  Along every sequence of operations with fewer than `2 ^ 63`
    additions, every answer is the one that the operations in front of it call for, and no id is
    given twice. -/
theorem answers_meet_history (ops : List Op) (few : adds ops < 2 ^ 63) :
    (∀ past op future, ops = past ++ op :: future →
      ∃ answer, (answers ops)[past.length]? = some answer ∧ Meets past op answer) ∧
    (givenIds ops).Nodup := by
  refine ⟨?_, nodup_givenIds ops few⟩
  rintro past op future rfl
  have hsplit : adds (past ++ op :: future) = adds (past ++ [op]) + adds future := by
    rw [← List.singleton_append, ← List.append_assoc, adds, List.countP_append]
    rfl
  have hop : adds (past ++ [op]) < 2 ^ 63 := by omega
  have hpast : adds past < 2 ^ 63 := by rw [adds_concat] at hop; omega
  exact ⟨_, answers_at past op future, (Represents.after past hpast).meets op hop⟩

/-- An id that is deleted before it is given, and again after, is gone for good. -/
theorem answers_after_deletion :
    let ops : List Op :=
      [.delete 2, .add "today" "a", .add "soon" "b", .delete 2, .add "later" "c", .get 2]
    adds ops < 2 ^ 63 ∧ ∃ answer, (answers ops)[5]? = some answer ∧
      Meets (ops.take 5) (.get 2) answer ∧
      answer = .found none ∧ (givenIds ops).Nodup := by
  intro ops
  have few : adds ops < 2 ^ 63 := by decide
  obtain ⟨hanswers, hids⟩ := answers_meet_history ops few
  obtain ⟨answer, hat, hmeets⟩ := hanswers (ops.take 5) (.get 2) [] rfl
  exact ⟨few, answer, hat, hmeets, Option.some.inj (hat.symm.trans rfl), hids⟩

/-! ## What operations change -/

/-- What an operation behind a history does to the last id and the rows: an addition puts one new
    row under the next id, a deletion leaves out at most the row of its id, and the others change
    nothing. -/
def Changes (past : List Op) (next : Store) : Op → Prop
  | .add deadline description =>
    next.lastId = (after past).lastId + 1 ∧
      (adds past + 1 < 2 ^ 63 → next.lastId.toInt = adds past + 1 ∧
        (after past).get? next.lastId = none ∧
        next.rows = (after past).rows ++ [⟨next.lastId, deadline, description, .todo⟩])
  | .delete id =>
    next.lastId = (after past).lastId ∧ next.rows = (after past).rows.filter (·.id ≠ id)
  | _ => next = after past

theorem changes_step (past : List Op) (op : Op) : Changes past ((after past).step op).2 op := by
  cases op with
  | add deadline description =>
    refine ⟨rfl, fun few => ?_⟩
    have h := Represents.after past (by omega)
    have hnext := h.nextId few
    refine ⟨hnext, ?_, h.rows_add few deadline description⟩
    rw [Option.eq_none_iff_forall_ne_some]
    intro t ht
    obtain ⟨-, -, hbound⟩ := ((h.get? _ t).1 ht).bounds
    have hid : ((after past).step (.add deadline description)).2.lastId.toInt = adds past + 1 :=
      hnext
    omega
  | delete id => exact ⟨rfl, rfl⟩
  | get id => rfl
  | list => rfl
  | len => rfl
  | isEmpty => rfl

end Store

end Switchboard.Todos
