/-
  Values under names, in order.

  A `Named α` is a list of names with values.  A name may occur more than once: `first?` and `last?`
  say which value is meant.  `put` keeps a list in increasing order of its names, without
  repetition.
-/

namespace Switchboard

/-- Values under names, in order and with repetitions. -/
abbrev Named (α : Type) := List (String × α)

namespace Named

variable {α : Type}

/-- The value of the first entry under a name. -/
def first? (name : String) (xs : Named α) : Option α := xs.lookup name

/-- The value of the last entry under a name. -/
def last? (name : String) (xs : Named α) : Option α := xs.reverse.lookup name

/-- The names in order. -/
def names (xs : Named α) : List String := xs.map (·.1)

/-- Puts a value under a name, in place of the one there, and else in front of the first larger
    name. -/
def put (name : String) (value : α) : Named α → Named α
  | [] => [(name, value)]
  | (other, x) :: xs =>
    if name = other then (name, value) :: xs
    else if name < other then (name, value) :: (other, x) :: xs
    else (other, x) :: put name value xs

/-- Leaves out every entry under a name. -/
def remove (name : String) (xs : Named α) : Named α := xs.filter (·.1 != name)

end Named

end Switchboard
