/-
  The `Todos` service: its records and its four operations.
-/
import Switchboard.Contract
import Switchboard.Wire

namespace Switchboard.Todos

open Json

/-! ## Records -/

/-- Whether a todo is still to be done. -/
inductive Status where
  | todo
  | done
  deriving Repr, DecidableEq

namespace Status

/-- The name of a status. -/
def name : Status → String
  | .todo => "todo"
  | .done => "done"

/-- The status of a name. -/
def ofName? (s : String) : Option Status :=
  if s = "todo" then some .todo else if s = "done" then some .done else none

/-- The codec of a status, by its name. -/
def codec : Codec Status := .choice ["todo", "done"] name ofName?

end Status

/-- A todo as it is stored and sent. -/
structure Todo where
  id : Int64
  deadline : String
  description : String
  status : Status
  deriving Repr, DecidableEq

/-- The fields of a todo. -/
def Todo.record : Record Todo where
  name := "Todo"
  fields := .cons ⟨"id", .int64⟩ <| .cons ⟨"deadline", .text⟩ <| .cons ⟨"description", .text⟩ <|
    .cons ⟨"status", Status.codec⟩ .nil
  ofValues v := ⟨v.1, v.2.1, v.2.2.1, v.2.2.2.1⟩
  toValues t := (t.id, t.deadline, t.description, t.status, ())

/-- The request of `getTodos`, which says nothing. -/
structure GetTodosRequest where
  deriving Repr, DecidableEq

/-- A record without fields. -/
def GetTodosRequest.record : Record GetTodosRequest where
  name := "GetTodosRequest"
  fields := .nil
  ofValues _ := {}
  toValues _ := ()
  toValues_ofValues := Values.eq_nil

/-- The request of `getTodo`. -/
structure GetTodoRequest where
  id : Int64
  deriving Repr, DecidableEq

/-- The one field of the request. -/
def GetTodoRequest.record : Record GetTodoRequest where
  name := "GetTodoRequest"
  fields := .cons ⟨"id", .int64⟩ .nil
  ofValues v := ⟨v.1⟩
  toValues r := (r.id, ())

/-- The request of `addTodo`. -/
structure AddTodoRequest where
  deadline : String
  description : String
  deriving Repr, DecidableEq

/-- The fields of the request. -/
def AddTodoRequest.record : Record AddTodoRequest where
  name := "AddTodoRequest"
  fields := .cons ⟨"deadline", .text⟩ <| .cons ⟨"description", .text⟩ .nil
  ofValues v := ⟨v.1, v.2.1⟩
  toValues r := (r.deadline, r.description, ())

/-- The request of `deleteTodo`. -/
structure DeleteTodoRequest where
  id : Int64
  deriving Repr, DecidableEq

/-- The one field of the request. -/
def DeleteTodoRequest.record : Record DeleteTodoRequest where
  name := "DeleteTodoRequest"
  fields := .cons ⟨"id", .int64⟩ .nil
  ofValues v := ⟨v.1⟩
  toValues r := (r.id, ())

/-! ## The contract and its operations -/

/-- The contract of the service. -/
def contract : Contract where
  name := "Todos"
  selector := .named "fn"
  operations := ["getTodos", "getTodo", "addTodo", "deleteTodo"]

/-- Lists every todo. -/
def getTodos : Operation contract where
  name := "getTodos"
  Request := GetTodosRequest
  Response := List Todo
  request := GetTodosRequest.record.codec
  response := Todo.record.codec.list

/-- Gives the todo of an id. -/
def getTodo : Operation contract where
  name := "getTodo"
  Request := GetTodoRequest
  Response := Todo
  request := GetTodoRequest.record.codec
  response := Todo.record.codec

/-- Stores a new todo and gives it back with its id. -/
def addTodo : Operation contract where
  name := "addTodo"
  Request := AddTodoRequest
  Response := Todo
  request := AddTodoRequest.record.codec
  response := Todo.record.codec

/-- Removes a todo; that there is none is no failure. -/
def deleteTodo : Operation contract where
  name := "deleteTodo"
  Request := DeleteTodoRequest
  Response := Unit
  request := DeleteTodoRequest.record.codec
  response := unitRecord.codec

end Switchboard.Todos
