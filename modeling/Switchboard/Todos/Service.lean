/-
  The `Todos` service over a store that is a part of the world.
-/
import Switchboard.Service.Basic
import Switchboard.Todos.Store

namespace Switchboard.Todos

variable {ε σ : Type}

/-! ## Handlers -/

/-- Answers with every todo of the store. -/
def handleGetTodos (store : Part σ Store) : Handler ε σ GetTodosRequest (List Todo) :=
  fun _ _ _ world => .of (.done (store.get world).toList) world

/-- Answers with the todo of an id, or reports that there is none. -/
def handleGetTodo (store : Part σ Store) : Handler ε σ GetTodoRequest Todo :=
  fun _ _ request world =>
    match (store.get world).get? request.id with
    | some todo => .of (.done todo) world
    | none => .of (.failed ⟨"todo not found"⟩) world

/-- The event of a new todo, with the id of the request if it has one. -/
def addedEvent (todo : Todo) (requestId : Option String) : Event :=
  ⟨.debug, "todo added",
    ("id", .number (.integer todo.id.toInt)) ::
      (requestId.toList.map fun id => ("request_id", .text id)), none⟩

/-- Stores a todo, and tells the log. -/
def handleAddTodo (store : Part σ Store) : Handler ε σ AddTodoRequest Todo :=
  fun _ context request world =>
    let (todo, next) := (store.get world).add request.deadline request.description
    ⟨.done todo, store.set next world, .event (addedEvent todo context.requestId)⟩

/-- Removes a todo, whether there was one or not. -/
def handleDeleteTodo (store : Part σ Store) : Handler ε σ DeleteTodoRequest Unit :=
  fun _ _ request world =>
    .of (.done ()) (store.set ((store.get world).delete request.id).2 world)

/-! ## Registration -/

/-- The operations in the order they are registered. -/
def registrationOrder : List String := ["getTodos", "getTodo", "addTodo", "deleteTodo"]

/-- Registers all four handlers over a store. -/
def register (store : Part σ Store) (s : Service contract ε σ) : Service contract ε σ :=
  s.register getTodos (handleGetTodos store)
    |>.register getTodo (handleGetTodo store)
    |>.register addTodo (handleAddTodo store)
    |>.register deleteTodo (handleDeleteTodo store)

/-- The events of that. -/
def registerEvents : List Event := registrationOrder.map (Service.registeredEvent contract)

end Switchboard.Todos
