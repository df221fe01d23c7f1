/-
  Passing over a value of any depth.

  `skip` keeps the open brackets in a list, the innermost first, and stands in one of four places:
  where a value must begin, behind an opening bracket, behind a value, and where a key must begin.
  Nothing is kept of the value, and nothing bounds its depth.
-/
import Switchboard.Json.Structure

namespace Switchboard.Json

/-- What is open: a list or an object. -/
inductive Bracket where
  | list
  | object
  deriving Repr, DecidableEq

namespace Bracket

/-- The closing bracket. -/
def close : Bracket → UInt8
  | .list => closeList
  | .object => closeObject

/-- The cause when the document ends inside. -/
def unfinished : Bracket → Cause
  | .list => .unfinishedList
  | .object => .unfinishedObject

/-- The cause when neither a comma nor the closing bracket follows a value. -/
def unclosed : Bracket → Cause
  | .list => .expectedListEnd
  | .object => .expectedObjectEnd

/-- The bracket that `b` opens. -/
def ofByte? (b : UInt8) : Option Bracket :=
  if b = openList then some .list else if b = openObject then some .object else none

end Bracket

/-- Where a reader stands between two brackets, commas or scalars.  The bracket is the innermost
    open one. -/
inductive Place where
  | value
  | opened (bracket : Bracket)
  | after (bracket : Bracket)
  | key
  deriving Repr, DecidableEq

/-- The order in which places may follow each other without a byte in between. -/
def Place.weight : Place → Nat
  | .opened _ => 1
  | _ => 0

/-- Where a value or a key must begin, behind a comma or an opening bracket. -/
def Bracket.inside : Bracket → Place
  | .list => .value
  | .object => .key

theorem Bracket.weight_inside (b : Bracket) : b.inside.weight = 0 := by cases b <;> rfl

/-- Passes over a key behind its opening quote, and the colon. -/
def skipKey : Reader Unit := fun s => do
  let k ← skipText s
  let c ← colonSign k.rest
  return c.within k.rest_le

/-- Goes on behind a complete value: at the end when no bracket is open, and else inside the
    innermost one. -/
@[inline] def completed {n : Nat} (enclosing : List Bracket) (s : Bytes) (hn : s.length < n)
    (go : Bracket → List Bracket → Reading Unit n) : Reading Unit n :=
  match enclosing with
  | [] => .ok ⟨(), s, hn⟩
  | bracket :: outer => go bracket outer

/-- Goes on from a place; `outer` are the open brackets outside the one that the place names, and
    all of them where it names none.  Every round uses up a byte, except from an opening bracket on
    to what must begin inside it. -/
def skipFrom {n : Nat} (place : Place) (outer : List Bracket) (s : Bytes) (hn : s.length ≤ n) :
    Reading Unit n :=
  match place with
  | .value =>
    withFirst .unfinishedValue s fun b r h =>
      match skipScalar? b r with
      | some reading => do
        let x ← reading
        have hx : x.rest.length < s.length := by have := x.shorter; omega
        completed outer x.rest (by omega) fun bracket outer =>
          skipFrom (.after bracket) outer x.rest (by omega)
      | none =>
        match Bracket.ofByte? b with
        | some bracket => skipFrom (.opened bracket) outer r (by omega)
        | none => refuse (.peek .expectedValue (b :: r))
  | .opened bracket =>
    withFirst bracket.unfinished s fun b r h =>
      if b = bracket.close then
        completed outer r (by omega) fun bracket outer =>
          skipFrom (.after bracket) outer r (by omega)
      else
        have inside := bracket.weight_inside
        skipFrom bracket.inside (bracket :: outer) s hn
  | .after bracket =>
    withFirst bracket.unfinished s fun b r h =>
      if b = comma then skipFrom bracket.inside (bracket :: outer) r (by omega)
      else if b = bracket.close then
        completed outer r (by omega) fun bracket outer =>
          skipFrom (.after bracket) outer r (by omega)
      else refuse (.peek bracket.unclosed (b :: r))
  | .key =>
    withFirst .unfinishedObject s fun b r h =>
      if b = quote then do
        let k ← skipKey r
        have hk : k.rest.length < s.length := by have := k.shorter; omega
        skipFrom .value outer k.rest (by omega)
      else refuse (.peek .keyNotString (b :: r))
  termination_by (s.length, place.weight)
  decreasing_by
  · exact Prod.Lex.left _ _ hx
  · exact Prod.Lex.left _ _ h
  · exact Prod.Lex.left _ _ h
  · exact Prod.Lex.right _ (inside ▸ Nat.one_pos)
  · exact Prod.Lex.left _ _ h
  · exact Prod.Lex.left _ _ h
  · exact Prod.Lex.left _ _ hk

/-- Passes over a value. -/
def skip : Reader Unit := fun s => skipFrom .value [] s (length_le s)

end Switchboard.Json
