/-
  Records: types whose values are a fixed sequence of named fields.

  A `Record α` lists the fields of `α` in order and says how its values are made of theirs.  It is
  written as an object with the fields in that order.  It is read from an object, whatever the order
  of the members and whatever other members there are, or from a list of exactly the values of its
  fields.  In an object every field must occur once: a second occurrence is refused right behind its
  key, and a missing field behind the closing brace.
-/
import Switchboard.Json.Skip
import Switchboard.Json.Codec

namespace Switchboard.Json

/-! ## Fields -/

/-- A field: the key of its member, and the codec of its values. -/
structure Field (α : Type) where
  name : String
  codec : Codec α

/-- Fields in order, with the types of their values. -/
inductive Fields : List Type → Type 1 where
  | nil : Fields []
  | cons {α : Type} {types : List Type} (field : Field α) (fields : Fields types) :
      Fields (α :: types)

/-- One value for each field. -/
def Values : List Type → Type
  | [] => Unit
  | α :: types => α × Values types

/-- No fields have one sequence of values. -/
theorem Values.eq_nil (v : Values []) : () = v := rfl

/-- A value or none yet for each field. -/
def Slots : List Type → Type
  | [] => Unit
  | α :: types => Option α × Slots types

/-- No value yet. -/
def Slots.empty : {types : List Type} → Slots types
  | [] => ()
  | _ :: _ => (none, Slots.empty)

/-- The place of a fault that concerns a list or object as a whole: behind its closing bracket if
    that comes next. -/
def Fault.around (close : UInt8) (cause : Cause) (s : Bytes) : Fault :=
  match skipBlanks s with
  | [] => .here cause []
  | b :: r => if b = close then .here cause r else .here cause (b :: r)

namespace Fields

/-- The number of fields. -/
def length : {types : List Type} → Fields types → Nat
  | _, nil => 0
  | _, cons _ fields => fields.length + 1

/-- The names of the fields, in order. -/
def names : {types : List Type} → Fields types → List String
  | _, nil => []
  | _, cons field fields => field.name :: fields.names

/-- Reads the member behind its key into the slot of its field; a member of another name is passed
    over. -/
def member : {types : List Type} → Fields types → Slots types → String → Reader (Slots types)
  | _, nil, slots, _, s => (afterColon skip s).map (·.map fun _ => slots)
  | _, cons field fields, (slot, slots), key, s =>
    if key = field.name then
      match slot with
      | some _ => refuse (.around closeObject (.duplicateField key) s)
      | none => (afterColon field.codec.read s).map (·.map fun v => (some v, slots))
    else (fields.member slots key s).map (·.map fun slots => (slot, slots))

/-- The values in the slots, or the name of the first field that has none. -/
def complete : {types : List Type} → Fields types → Slots types → Except String (Values types)
  | _, nil, _ => .ok ()
  | _, cons _ fields, (some v, slots) => (fields.complete slots).map (v, ·)
  | _, cons field _, (none, _) => .error field.name

/-- Reads up to where element number `count` begins; `missing` is the fault when the list ends. -/
def nextElement {α : Type} (count : Nat) (missing : Cause) (item : Reader α) : Reader α := fun s =>
  withFirst .unfinishedList s fun b r h =>
    if b = closeList then refuse (.here missing r)
    else if count = 0 then item s
    else if b = comma then
      withFirst .unfinishedValue r fun c t _ =>
        if c = closeList then refuse (.peek .trailingComma (c :: t))
        else (item r).map (·.within (length_le_of_lt h))
    else refuse (.peek .expectedListEnd (b :: r))

/-- Reads the end of a list that must hold nothing more. -/
def listEnd : Reader Unit := fun s =>
  withFirst .unfinishedList s fun b r h =>
    if b = closeList then .ok ⟨(), r, h⟩
    else if b = comma then
      match skipBlanks r with
      | [] => refuse (.here .trailingCharacters [])
      | c :: t =>
        refuse (.peek (if c = closeList then .trailingComma else .trailingCharacters) (c :: t))
    else refuse (.peek .trailingCharacters (b :: r))

/-- Reads the values of fields as the elements of a list from number `count` on, up to its end.
    `expected` describes the whole list. -/
def elements (expected : String) :
    {types : List Type} → Fields types → (count : Nat) → Reader (Values types)
  | _, nil, _, s => listEnd s
  | _, cons field fields, count, s => do
    let v ← nextElement count (.wrongLength count expected) field.codec.read s
    let vs ← fields.elements expected (count + 1) v.rest
    return ⟨(v.value, vs.value), vs.rest, Nat.lt_trans vs.shorter v.shorter⟩

/-- The members of an object, as they are written. -/
def write : {types : List Type} → Fields types → Values types → Except String (List String)
  | _, nil, _ => .ok []
  | _, cons field fields, (v, vs) => do
    let text ← field.codec.write v
    let texts ← fields.write vs
    return (writeText field.name ++ ":" ++ text) :: texts

end Fields

/-! ## Records -/

/-- The fields of a type, and the two ways between its values and theirs, which undo each other. -/
structure Record (α : Type) where
  name : String
  {types : List Type}
  fields : Fields types
  ofValues : Values types → α
  toValues : α → Values types
  ofValues_toValues : ∀ a, ofValues (toValues a) = a := by intro; rfl
  toValues_ofValues : ∀ v, toValues (ofValues v) = v := by intro; rfl

namespace Record

variable {α : Type}

/-- What a message calls the record. -/
def title (x : Record α) : String := "struct " ++ x.name

/-- What a message calls the list of its values. -/
def listTitle (x : Record α) : String :=
  x.title ++ " with " ++ toString x.fields.length ++
    (if x.fields.length = 1 then " element" else " elements")

/-- Reads a record from an object or from a list. -/
def read (x : Record α) : Reader α := fun s =>
  withFirst .unfinishedValue s fun b r h =>
    if b = openObject then do
      let slots ← object x.fields.member Slots.empty r
      match x.fields.complete slots.value with
      | .ok values => return ⟨x.ofValues values, slots.rest, Nat.lt_trans slots.shorter h⟩
      | .error name => refuse (.here (.missingField name) slots.rest)
    else if b = openList then
      (x.fields.elements x.listTitle 0 r).map fun values =>
        (values.map x.ofValues).within (length_le_of_lt h)
    else refuse (mismatch x.title b r)

/-- Writes a record as an object. -/
def write (x : Record α) (a : α) : Except String String := do
  let texts ← x.fields.write (x.toValues a)
  return "\x7b" ++ ",".intercalate texts ++ "\x7d"

/-- The codec of a record. -/
def codec (x : Record α) : Codec α := ⟨x.write, x.read⟩

end Record

end Switchboard.Json
