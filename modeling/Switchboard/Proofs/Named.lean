/-
  Values under names, in order.

  A name may stand in a list more than once: `Named.under` gives all its values.  The first value
  that is found under a name is the first of these (`first?_eq_head?`) and the last one the last
  (`last?_eq_getLast?`), so of two lists that are joined the second decides about the last value
  (`last?_append`).
-/
import Mathlib.Data.List.Induction
import Switchboard.Named

namespace Switchboard

namespace Named

variable {α : Type} {name : String}

/-- The values under a name, in order. -/
def under (name : String) (xs : Named α) : List α := (xs.filter (·.1 = name)).map (·.2)

@[simp] theorem under_nil : under name ([] : Named α) = [] := rfl

@[simp] theorem under_cons_self (a : α) (xs : Named α) :
    under name ((name, a) :: xs) = a :: under name xs := by
  rw [under, List.filter_cons, if_pos (decide_eq_true rfl), List.map_cons, ← under]

theorem under_cons_of_ne {key : String} (h : key ≠ name) (a : α) (xs : Named α) :
    under name ((key, a) :: xs) = under name xs := by
  rw [under, List.filter_cons, if_neg (by simpa using h), ← under]

theorem under_append (xs ys : Named α) :
    under name (xs ++ ys) = under name xs ++ under name ys := by
  rw [under, List.filter_append, List.map_append, ← under, ← under]

/-- A name that stands nowhere has no values. -/
theorem under_eq_nil {xs : Named α} (h : ∀ x ∈ xs, x.1 ≠ name) : under name xs = [] := by
  rw [under, List.filter_eq_nil_iff.2 fun x hx => by simpa using h x hx, List.map_nil]

/-! ## First values -/

theorem first?_cons (wanted other : String) (a : α) (xs : Named α) :
    first? wanted ((other, a) :: xs) = if wanted = other then some a else first? wanted xs := by
  by_cases h : wanted = other
  · rw [if_pos h, h]
    exact List.lookup_cons_self
  · rw [if_neg h, first?, List.lookup_cons, beq_false_of_ne h]
    rfl

/-- What is found first under a name is the first of its values. -/
theorem first?_eq_head? (name : String) (xs : Named α) :
    xs.first? name = (xs.under name).head? := by
  induction xs with
  | nil => rfl
  | cons x xs ih =>
    obtain ⟨key, a⟩ := x
    rw [first?_cons]
    by_cases hkey : key = name
    · subst hkey
      rw [if_pos rfl, under_cons_self, List.head?_cons]
    · rw [if_neg (Ne.symm hkey), under_cons_of_ne hkey, ih]

/-- Putting a value under a name changes what is found there, and nothing else. -/
theorem first?_put (name : String) (value : α) (xs : Named α) (wanted : String) :
    (xs.put name value).first? wanted = if wanted = name then some value else xs.first? wanted := by
  induction xs with
  | nil =>
    show first? wanted [(name, value)] = _
    rw [first?_cons]
  | cons x xs ih =>
    obtain ⟨other, a⟩ := x
    rw [put]
    by_cases hn : name = other
    · rw [if_pos hn, first?_cons, first?_cons]
      by_cases h : wanted = name
      · rw [if_pos h, if_pos h]
      · rw [if_neg h, if_neg h, if_neg (hn ▸ h)]
    · rw [if_neg hn]
      by_cases hlt : name < other
      · rw [if_pos hlt, first?_cons]
      · -- The entry is passed over, and has another name.
        rw [if_neg hlt, first?_cons, first?_cons, ih]
        by_cases h : wanted = other
        · rw [if_pos h, if_pos h, if_neg fun e => hn (e.symm.trans h)]
        · rw [if_neg h, if_neg h]

/-! ## Last values -/

/-- A name with one value is found with it. -/
theorem last?_eq_some {a : α} {xs : Named α} (hmem : (name, a) ∈ xs)
    (honly : ∀ b, (name, b) ∈ xs → b = a) :
    xs.last? name = some a := by
  rw [last?]
  have hsome : (xs.reverse.lookup name).isSome = true :=
    List.lookup_isSome_iff.2 ⟨(name, a), List.mem_reverse.2 hmem, beq_self_eq_true name⟩
  obtain ⟨b, hb⟩ := Option.isSome_iff_exists.1 hsome
  obtain ⟨front, behind, hxs, -⟩ := List.lookup_eq_some_iff.1 hb
  have hmem' : (name, b) ∈ xs :=
    List.mem_reverse.1 (hxs ▸ List.mem_append_right _ List.mem_cons_self)
  rw [hb, honly b hmem']

/-- What a list gives under a name is the last of its values under it. -/
theorem last?_eq_getLast? (name : String) (xs : Named α) :
    xs.last? name = (xs.under name).getLast? := by
  induction xs using List.reverseRecOn with
  | nil => rfl
  | append_singleton xs x ih =>
    obtain ⟨key, a⟩ := x
    rw [last?, List.reverse_append, List.reverse_singleton, List.singleton_append,
      List.lookup_cons, ← last?, ih, under_append]
    by_cases hkey : key = name
    · subst hkey
      rw [under_cons_self, under_nil, List.getLast?_concat, beq_self_eq_true]
    · rw [under_cons_of_ne hkey, under_nil, List.append_nil, beq_eq_false_iff_ne.2 (Ne.symm hkey)]

/-- Of two lists the second decides about a name if it has it. -/
theorem last?_append (name : String) (xs ys : Named α) :
    last? name (xs ++ ys) = (ys.last? name).or (xs.last? name) := by
  rw [last?, List.reverse_append, List.lookup_append]
  rfl

end Named

end Switchboard
