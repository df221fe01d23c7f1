/-
  Lists and objects, over readers of what they hold.

    * `list item`            reads elements up to the closing bracket;
    * `object member start`  reads members up to the closing brace; `member` is given what the
                             members so far amount to and the key, and reads on from behind the key.

  Behind a comma another element or member must follow.
-/
import Switchboard.Json.Scalar

namespace Switchboard.Json

variable {α σ : Type}

/-! ## Lists -/

/-- Reads on behind an element; the elements so far are in reverse. -/
def listOnto {n : Nat} (item : Reader α) (found : List α) (s : Bytes) (hn : s.length ≤ n) :
    Reading (List α) n :=
  withFirst .unfinishedList s fun b r h =>
    if b = closeList then .ok ⟨found.reverse, r, Nat.lt_of_lt_of_le h hn⟩
    else if b = comma then
      withFirst .unfinishedValue r fun c t _ =>
        if c = closeList then refuse (.peek .trailingComma (c :: t))
        else do
          let x ← item r
          listOnto item (x.value :: found) x.rest (by have := x.shorter; omega)
    else refuse (.peek .expectedListEnd (b :: r))
  termination_by s.length
  decreasing_by have := x.shorter; omega

/-- Reads a list behind its opening bracket. -/
def list (item : Reader α) : Reader (List α) := fun s =>
  withFirst .unfinishedList s fun b r h =>
    if b = closeList then .ok ⟨[], r, h⟩
    else do
      let x ← item s
      listOnto item [x.value] x.rest x.rest_le

/-- Reads a list of values. -/
def listValue (item : Reader α) : Reader (List α) := fun s =>
  withFirst .unfinishedValue s fun b r h =>
    if b = openList then (list item r).map (·.within (length_le_of_lt h))
    else refuse (mismatch "a sequence" b r)

/-! ## Objects -/

/-- Reads the colon behind a key. -/
def colonSign : Reader Unit := fun s =>
  withFirst .unfinishedObject s fun b r h =>
    if b = colon then .ok ⟨(), r, h⟩ else refuse (.peek .expectedColon (b :: r))

/-- Reads a colon and then a value. -/
def afterColon (value : Reader α) : Reader α := fun s => do
  let c ← colonSign s
  let v ← value c.rest
  return v.within c.rest_le

/-- Reads a member behind the opening quote of its key. -/
def keyed (member : σ → String → Reader σ) (state : σ) : Reader σ := fun s => do
  let key ← textBody s
  let next ← member state key.value key.rest
  return next.within key.rest_le

/-- Reads on behind a member. -/
def objectOnto {n : Nat} (member : σ → String → Reader σ) (state : σ) (s : Bytes)
    (hn : s.length ≤ n) : Reading σ n :=
  withFirst .unfinishedObject s fun b r h =>
    if b = closeObject then .ok ⟨state, r, Nat.lt_of_lt_of_le h hn⟩
    else if b = comma then
      withFirst .unfinishedValue r fun c t _ =>
        if c = quote then do
          let next ← keyed member state t
          objectOnto member next.value next.rest (by have := next.shorter; omega)
        else if c = closeObject then refuse (.peek .trailingComma (c :: t))
        else refuse (.peek .keyNotString (c :: t))
    else refuse (.peek .expectedObjectEnd (b :: r))
  termination_by s.length
  decreasing_by have := next.shorter; omega

/-- Reads an object behind its opening brace. -/
def object (member : σ → String → Reader σ) (start : σ) : Reader σ := fun s =>
  withFirst .unfinishedObject s fun b r h =>
    if b = closeObject then .ok ⟨start, r, h⟩
    else if b = quote then do
      let next ← keyed member start r
      objectOnto member next.value next.rest (by have := next.shorter; omega)
    else refuse (.peek .keyNotString (b :: r))

end Switchboard.Json
