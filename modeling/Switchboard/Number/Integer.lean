/-
  Whole numbers in decimal, as they are given on a command line.

    * `parseNatural`  reads a number from zero up to a limit;
    * `parseInteger`  reads a number of a signed width.

  The first character that decides makes the fault: one that is no digit, or the digit with which
  the number leaves its range.
-/

namespace Switchboard.Number

/-- Why a text is no number. -/
inductive IntegerFault where
  | empty
  | digit
  | tooLarge
  | tooSmall
  deriving Repr, DecidableEq

/-- What is said of a text that is no number. -/
def IntegerFault.message : IntegerFault → String
  | empty => "cannot parse integer from empty string"
  | digit => "invalid digit found in string"
  | tooLarge => "number too large to fit in target type"
  | tooSmall => "number too small to fit in target type"

/-- Reads digits behind a number; `beyond` is the fault above the limit. -/
def digitsOnto (limit : Nat) (beyond : IntegerFault) (n : Nat) : List Char → Except IntegerFault Nat
  | [] => .ok n
  | c :: cs =>
    if !c.isDigit then .error .digit
    else
      let next := n * 10 + (c.toNat - '0'.toNat)
      if limit < next then .error beyond else digitsOnto limit beyond next cs

/-- Reads a number without its sign. -/
def magnitude (limit : Nat) (beyond : IntegerFault) : List Char → Except IntegerFault Nat
  | [] => .error .digit
  | cs => digitsOnto limit beyond 0 cs

/-- A number from zero up to `limit`, which may have a plus. -/
def parseNatural (limit : Nat) (s : String) : Except IntegerFault Nat :=
  match s.toList with
  | [] => .error .empty
  | '+' :: cs => magnitude limit .tooLarge cs
  | cs => magnitude limit .tooLarge cs

/-- A number from `-limit - 1` up to `limit`. -/
def parseInteger (limit : Nat) (s : String) : Except IntegerFault Int :=
  match s.toList with
  | '-' :: cs => (magnitude (limit + 1) .tooSmall cs).map fun n => -(n : Int)
  | _ => (parseNatural limit s).map Int.ofNat

/-- The largest number of 64 bits without a sign. -/
def maxUnsigned64 : Nat := Nat.pow 2 64 - 1

/-- The largest number of 64 bits with a sign. -/
def maxSigned64 : Nat := Nat.pow 2 63 - 1

end Switchboard.Number
