/-
  JSON values of any shape.

    * `value depth`  reads a value that nests at most `depth` lists and objects;
    * `envelope`     reads an object as its members, in order and with repetitions;
    * `Value.render` writes a value, without blanks.
-/
import Switchboard.Json.Structure
import Switchboard.Named

namespace Switchboard.Json

/-- A JSON value.  The members of an object keep their order and repetitions. -/
inductive Value where
  | null
  | boolean (value : Bool)
  | number (value : Number)
  | text (value : String)
  | list (items : List Value)
  | object (members : List (String × Value))
  deriving Repr

/-- A scalar among the values of any shape. -/
def Scalar.toValue : Scalar → Value
  | .null => .null
  | .boolean b => .boolean b
  | .number x => .number x
  | .text s => .text s

/-! ## Reading -/

/-- Puts the member behind a key in front of the members so far. -/
def memberOf (item : Reader Value) (found : Named Value) (key : String) : Reader (Named Value) :=
  fun s => (afterColon item s).map (·.map fun v => (key, v) :: found)

/-- Reads the members of an object behind its opening brace. -/
def members (item : Reader Value) : Reader (Named Value) := fun s =>
  (object (memberOf item) [] s).map (·.map List.reverse)

/-- Reads a value whose lists and objects hold what `item` reads; without `item` there may be
    none. -/
def layer (item : Option (Reader Value)) : Reader Value := fun s =>
  withFirst .unfinishedValue s fun b r h =>
    match scalar? b r with
    | some reading => reading.map fun x => (x.map Scalar.toValue).within h
    | none =>
      if b = openList ∨ b = openObject then
        match item with
        | none => refuse (.peek .tooDeep (b :: r))
        | some item =>
          if b = openList then
            (list item r).map fun x => (x.map Value.list).within (length_le_of_lt h)
          else (members item r).map fun x => (x.map Value.object).within (length_le_of_lt h)
      else refuse (.peek .expectedValue (b :: r))

/-- Reads a value that nests at most `depth` lists and objects. -/
def value : (depth : Nat) → Reader Value
  | 0 => layer none
  | depth + 1 => layer (some (value depth))

/-- The number of lists and objects that may be open at once. -/
def depthLimit : Nat := 127

/-- Reads an object of any members. -/
def envelope : Reader (Named Value) := fun s =>
  withFirst .unfinishedValue s fun b r h =>
    if b = openObject then (members (value (depthLimit - 1)) r).map (·.within (length_le_of_lt h))
    else refuse (mismatch "a map" b r)

/-! ## Whole documents -/

/-- Reads a document: one value, with nothing but blanks behind it. -/
def document {α : Type} (reader : Reader α) (s : Bytes) : Except Fault α := do
  let x ← reader s
  match skipBlanks x.rest with
  | [] => return x.value
  | b :: r => refuse (.peek .trailingCharacters (b :: r))

/-! ## Writing -/

/-- The text of a number. -/
def Number.render : Number → String
  | .integer z => toString z
  | .float negative x => floatText negative x

mutual

/-- The text of a value, without blanks. -/
def Value.render : Value → String
  | .null => "null"
  | .boolean b => toString b
  | .number x => x.render
  | .text s => writeText s
  | .list items => "[" ++ ",".intercalate (renderItems items) ++ "]"
  | .object members => "\x7b" ++ ",".intercalate (renderMembers members) ++ "\x7d"

/-- The texts of elements. -/
def renderItems : List Value → List String
  | [] => []
  | v :: vs => v.render :: renderItems vs

/-- The texts of members, each with its key. -/
def renderMembers : List (String × Value) → List String
  | [] => []
  | (name, v) :: ms => (writeText name ++ ":" ++ v.render) :: renderMembers ms

end

end Switchboard.Json
