/-
  Payloads that are objects.

  `fieldsOf` says which fields the request of an operation has, and `Given` which request the
  members of an object give: each field has exactly one value among them, of its type, whatever
  other members there are, and wherever they stand.  A payload that is the text of an object is read
  as a request just when its members give it, in any spelling of keys, values and blanks, and nested
  to any depth (`request_of_object`).
-/
import Switchboard.Proofs.Json.Filling
import Switchboard.Proofs.Service.Transparency

namespace Switchboard

open Json

variable {c : Contract}

/-! ## Fields -/

/-- The type of a field of a request. -/
inductive FieldType where
  | text
  | integer
  deriving Repr, DecidableEq

/-- A string, or a number that spells an integer of 64 bits. -/
inductive FieldType.Admits : FieldType → Tree → Prop where
  | text (t : String) : Admits .text (.text t)
  | integer {x : Numeral} {z : Int} (spells : x.Spells z) (low : -2 ^ 63 ≤ z)
      (high : z ≤ 2 ^ 63 - 1) :
      Admits .integer (.number x)

/-- The fields of the request of an operation. -/
def fieldsOf (op : Operation c) : Named FieldType :=
  match op.name with
  | "getTodo" | "deleteTodo" => [("id", .integer)]
  | "addTodo" => [("deadline", .text), ("description", .text)]
  | "echo" => [("message", .text)]
  | _ => []

/-- The members of an object give a request: each of its fields has exactly one value among them,
    and this is it. -/
inductive Given (members : Named Tree) :
    {c : Contract} → (op : Operation c) → op.Request → Prop where
  | getTodos : Given members Todos.getTodos Todos.GetTodosRequest.mk
  | getTodo {x : Numeral} {id : Int64} (once : members.under "id" = [.number x])
      (spells : x.Spells id.toInt) :
      Given members Todos.getTodo (Todos.GetTodoRequest.mk id)
  | addTodo {deadline description : String} (once : members.under "deadline" = [.text deadline])
      (once' : members.under "description" = [.text description]) :
      Given members Todos.addTodo (Todos.AddTodoRequest.mk deadline description)
  | deleteTodo {x : Numeral} {id : Int64} (once : members.under "id" = [.number x])
      (spells : x.Spells id.toInt) :
      Given members Todos.deleteTodo (Todos.DeleteTodoRequest.mk id)
  | echo {message : String} (once : members.under "message" = [.text message]) :
      Given members Echo.echo (Echo.EchoRequest.mk message)

/-! ## Requests -/

theorem FieldType.admits_text_iff {tree : Tree} :
    FieldType.text.Admits tree ↔ ∃ t, tree = .text t := by
  constructor
  · rintro ⟨t⟩
    exact ⟨t, rfl⟩
  · rintro ⟨t, rfl⟩
    exact .text t

theorem FieldType.admits_integer_iff {tree : Tree} :
    FieldType.integer.Admits tree ↔
      ∃ (z : Int64) (x : Numeral), tree = .number x ∧ x.Spells z.toInt := by
  constructor
  · intro h
    cases h with
    | @integer x z spells low high =>
      have hz : (Int64.ofInt z).toInt = z := Int64.toInt_ofInt_of_le low (by omega)
      exact ⟨Int64.ofInt z, x, rfl, by rwa [hz]⟩
  · rintro ⟨z, x, rfl, spells⟩
    have high := z.toInt_lt
    exact .integer spells z.le_toInt (by omega)

/-- The members that give a request are of the types of its fields. -/
theorem Given.admits {op : Operation c} {members : Named Tree} {request : op.Request}
    (given : Given members op request) :
    ∀ field ∈ fieldsOf op, ∃ tree, members.under field.1 = [tree] ∧ field.2.Admits tree := by
  cases given with
  | getTodos =>
    intro field hfield
    cases hfield
  | getTodo once spells | deleteTodo once spells =>
    exact List.forall_mem_singleton.2 ⟨_, once, FieldType.admits_integer_iff.2 ⟨_, _, rfl, spells⟩⟩
  | addTodo once once' =>
    exact List.forall_mem_cons.2 ⟨⟨_, once, .text _⟩,
      List.forall_mem_singleton.2 ⟨_, once', .text _⟩⟩
  | echo once => exact List.forall_mem_singleton.2 ⟨_, once, .text _⟩

/-- Members of these types give a request. -/
theorem Offered.exists_given {op : Operation c} (offered : Offered op) {members : Named Tree}
    (h : ∀ field ∈ fieldsOf op, ∃ tree, members.under field.1 = [tree] ∧ field.2.Admits tree) :
    ∃ request, Given members op request := by
  cases offered with
  | getTodos => exact ⟨_, .getTodos⟩
  | getTodo =>
    obtain ⟨tree, once, admits⟩ := h ("id", .integer) List.mem_cons_self
    obtain ⟨id, x, rfl, spells⟩ := FieldType.admits_integer_iff.1 admits
    exact ⟨_, .getTodo once spells⟩
  | addTodo =>
    obtain ⟨tree, once, admits⟩ := h ("deadline", .text) List.mem_cons_self
    obtain ⟨tree', once', admits'⟩ :=
      h ("description", .text) (List.mem_cons_of_mem _ List.mem_cons_self)
    obtain ⟨deadline, rfl⟩ := FieldType.admits_text_iff.1 admits
    obtain ⟨description, rfl⟩ := FieldType.admits_text_iff.1 admits'
    exact ⟨_, .addTodo once once'⟩
  | deleteTodo =>
    obtain ⟨tree, once, admits⟩ := h ("id", .integer) List.mem_cons_self
    obtain ⟨id, x, rfl, spells⟩ := FieldType.admits_integer_iff.1 admits
    exact ⟨_, .deleteTodo once spells⟩
  | echo =>
    obtain ⟨tree, once, admits⟩ := h ("message", .text) List.mem_cons_self
    obtain ⟨message, rfl⟩ := FieldType.admits_text_iff.1 admits
    exact ⟨_, .echo once⟩

section Texts

variable {depth : Nat} {members : Named Tree} {payload rest : Bytes}
  (written : Written depth (.object members) payload rest) (blank : skipBlanks rest = [])

include written blank

theorem Given.decode {op : Operation c} {request : op.Request} (given : Given members op request) :
    op.request.decode payload = .ok request := by
  cases given with
  | getTodos => exact (Record.decode_iff _ .nil (by decide) written blank).2 trivial
  | getTodo once spells | deleteTodo once spells =>
    exact (Record.decode_iff _ (.cons Codec.recognizes_int64 .nil) (by decide) written blank).2
      (Fields.awaits_empty_cons_iff.2 ⟨⟨_, once, _, rfl, spells⟩, trivial⟩)
  | addTodo once once' =>
    exact (Record.decode_iff _ (.cons Codec.recognizes_text (.cons Codec.recognizes_text .nil))
      (by decide) written
      blank).2 (Fields.awaits_empty_cons_iff.2 ⟨⟨_, once, rfl⟩,
        Fields.awaits_empty_cons_iff.2 ⟨⟨_, once', rfl⟩, trivial⟩⟩)
  | echo once =>
    exact (Record.decode_iff _ (.cons Codec.recognizes_text .nil) (by decide) written blank).2
      (Fields.awaits_empty_cons_iff.2 ⟨⟨_, once, rfl⟩, trivial⟩)

theorem Offered.given_of_decode {op : Operation c} (offered : Offered op) {request : op.Request}
    (h : op.request.decode payload = .ok request) : Given members op request := by
  cases offered with
  | getTodos => exact .getTodos
  | getTodo =>
    have awaits :=
      (Record.decode_iff _ (.cons Codec.recognizes_int64 .nil) (by decide) written blank).1 h
    obtain ⟨⟨_, once, x, rfl, spells⟩, -⟩ := Fields.awaits_empty_cons_iff.1 awaits
    exact .getTodo once spells
  | deleteTodo =>
    have awaits :=
      (Record.decode_iff _ (.cons Codec.recognizes_int64 .nil) (by decide) written blank).1 h
    obtain ⟨⟨_, once, x, rfl, spells⟩, -⟩ := Fields.awaits_empty_cons_iff.1 awaits
    exact .deleteTodo once spells
  | addTodo =>
    have awaits :=
      (Record.decode_iff _ (.cons Codec.recognizes_text (.cons Codec.recognizes_text .nil))
      (by decide)
      written blank).1 h
    obtain ⟨⟨_, once, rfl⟩, others⟩ := Fields.awaits_empty_cons_iff.1 awaits
    obtain ⟨⟨_, once', rfl⟩, -⟩ := Fields.awaits_empty_cons_iff.1 others
    exact .addTodo once once'
  | echo =>
    have awaits :=
      (Record.decode_iff _ (.cons Codec.recognizes_text .nil) (by decide) written blank).1 h
    obtain ⟨⟨_, once, rfl⟩, -⟩ := Fields.awaits_empty_cons_iff.1 awaits
    exact .echo once

end Texts

/-- **Objects.**  Take an operation of the two services, and any text of an object: its members in
    any order and any number, with blanks, escapes and nested values as the grammar has them.  It is
    read as a request just when every field of the request has exactly one value among the members
    and this is of its type, and then it is read as the request with these values. -/
theorem request_of_object {op : Operation c} (offered : Offered op) {depth : Nat}
    {members : Named Tree}
    {payload rest : Bytes} (written : Written depth (.object members) payload rest)
    (blank : skipBlanks rest = []) :
    ((∃ request, op.request.decode payload = .ok request) ↔
      ∀ field ∈ fieldsOf op, ∃ tree, members.under field.1 = [tree] ∧ field.2.Admits tree) ∧
    ∀ request, op.request.decode payload = .ok request ↔ Given members op request := by
  have hgiven : ∀ request, op.request.decode payload = .ok request ↔ Given members op request :=
    fun request =>
    ⟨offered.given_of_decode written blank, fun given => given.decode written blank⟩
  refine ⟨⟨fun ⟨request, h⟩ => ((hgiven request).1 h).admits, fun h => ?_⟩, hgiven⟩
  obtain ⟨request, given⟩ := offered.exists_given h
  exact ⟨request, given.decode written blank⟩

/-- A todo is deleted by its number, under a key that is spelled with an escape, behind another
    member that holds an object with that key.  The same text adds no todo. -/
theorem deletion_of_escaped_key :
    let payload : Bytes := Utf8.encode "\x7b\"of\":\x7b\"id\":null\x7d, \"i\\u0064\": -7\x7d\n"
    let members : Named Tree :=
      [("of", .object [("id", .null)]), ("id", .number ⟨true, [0x37], [], none⟩)]
    let rest : Bytes := Utf8.encode "\n"
    Offered Todos.deleteTodo ∧ Offered Todos.addTodo ∧ Written 2 (.object members) payload rest ∧
      skipBlanks rest = [] ∧
      Todos.deleteTodo.request.decode payload = .ok (Todos.DeleteTodoRequest.mk (-7)) ∧
      ¬∃ request, Todos.addTodo.request.decode payload = .ok request := by
  intro payload members rest
  have blank : skipBlanks rest = [] := by decide
  let last : Bytes := Utf8.encode ", \"i\\u0064\": -7\x7d\n"
  have hof : CharactersText "of".toList (Utf8.encode "of\":\x7b\"id\":null\x7d" ++ last)
      (Utf8.encode ":\x7b\"id\":null\x7d" ++ last) := reads_textBody_iff.1 ⟨by decide, by cbv⟩
  have hid : CharactersText "id".toList (Utf8.encode "id\":null\x7d" ++ last)
      (Utf8.encode ":null\x7d" ++ last) :=
    reads_textBody_iff.1 ⟨by decide, by cbv⟩
  have hkey : CharactersText "id".toList (Utf8.encode "i\\u0064\": -7\x7d\n")
      (Utf8.encode ": -7\x7d\n") :=
    reads_textBody_iff.1 ⟨by decide, by cbv⟩
  have digits : WholeDigits [0x37] :=
    ⟨⟨List.cons_ne_nil _ _, List.forall_mem_singleton.2 rfl⟩,
      fun t h => absurd (List.cons.inj h).1 (by decide)⟩
  have hnull : Written 0 .null (Utf8.encode "null\x7d" ++ last) (Utf8.encode "\x7d" ++ last) :=
    LayerText.null (by decide)
  have hseven : Written 1 (.number ⟨true, [0x37], [], none⟩) (Utf8.encode " -7\x7d\n")
      (Utf8.encode "\x7d\n") :=
    LayerText.number (by decide)
      (.negative rfl (@UnsignedText.intro _ [] [] digits .absent .absent))
  have within : MemberText (Written 0) "id" .null (Utf8.encode "\"id\":null\x7d" ++ last)
      (Utf8.encode "\x7d" ++ last) := ⟨by decide, hid, by decide, hnull⟩
  have inner :
      Written 1 (.object [("id", .null)]) (Utf8.encode "\x7b\"id\":null\x7d" ++ last) last :=
    LayerText.object rfl (by decide) (.members within (.done (by decide)))
  have first : MemberText (Written 1) "of" (.object [("id", .null)])
      (Utf8.encode "\"of\":\x7b\"id\":null\x7d" ++ last) last := ⟨by decide, hof, by decide, inner⟩
  have second : MemberText (Written 1) "id" (.number ⟨true, [0x37], [], none⟩)
      (Utf8.encode " \"i\\u0064\": -7\x7d\n") (Utf8.encode "\x7d\n") :=
    ⟨by decide, hkey, by decide, hseven⟩
  have written : Written 2 (.object members) payload rest :=
    LayerText.object rfl (by decide) (.members first (.next (by decide) second (.done (by decide))))
  refine ⟨.deleteTodo, .addTodo, written, blank, ?_, ?_⟩
  · exact ((request_of_object .deleteTodo written blank).2 _).2
      (.deleteTodo rfl ⟨rfl, rfl, fun _ => by decide, by decide⟩)
  · intro h
    obtain ⟨tree, once, -⟩ :=
      (request_of_object .addTodo written blank).1.1 h ("deadline", .text) List.mem_cons_self
    cases once
end Switchboard
