/-
  The todo store.

  Rows are kept in increasing order of their ids.  A new todo gets the id after the last one ever
  given, so no id is given twice, whatever has been deleted.
-/
import Switchboard.Todos.Contract

namespace Switchboard.Todos

/-- The rows of a store, and the ids it has given. -/
structure Store where
  /-- The last id given. -/
  lastId : Int64 := 0
  rows : List Todo := []
  deriving Repr, DecidableEq

/-- Puts a todo in place of the one with its id, and else in front of the first larger id. -/
def insertRow (t : Todo) : List Todo → List Todo
  | [] => [t]
  | u :: rows =>
    if t.id = u.id then t :: rows
    else if t.id < u.id then t :: u :: rows
    else u :: insertRow t rows

namespace Store

/-- The store before any todo. -/
def empty : Store := {}

/-- Every todo in increasing order of the ids. -/
def toList (s : Store) : List Todo := s.rows

/-- The todo of an id. -/
def get? (s : Store) (id : Int64) : Option Todo := s.rows.find? (·.id = id)

/-- Stores a new todo under the next id. -/
def add (s : Store) (deadline description : String) : Todo × Store :=
  let t : Todo := ⟨s.lastId + 1, deadline, description, .todo⟩
  (t, ⟨t.id, insertRow t s.rows⟩)

/-- Removes the todo of an id; whether there was one. -/
def delete (s : Store) (id : Int64) : Bool × Store :=
  ((s.get? id).isSome, { s with rows := s.rows.filter (·.id ≠ id) })

/-- The number of todos. -/
def size (s : Store) : Nat := s.rows.length

/-- There is no todo. -/
def isEmpty (s : Store) : Bool := s.size == 0

end Store

end Switchboard.Todos
