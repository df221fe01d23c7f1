/-
  The grammar of JSON texts.

  A `Tree` is a JSON value as a text gives it: numbers keep their spelling, and objects keep all
  their members in order.  `Written depth tree s rest` says that the bytes `s` give `tree`, after
  any blanks, and go on with `rest`; `depth` is the number of lists and objects that may be open at
  once.

    * `NumeralText x text`      the texts of a number: any digits, a sign where one may stand;
    * `CharacterText c text`    the texts of a character in a string: itself, or one of its escapes;
    * `ListText`, `ObjectText`  what stands behind an opening bracket, over the texts of what it
      holds.

  A text goes on with what comes behind it, so that the end of one part is where the next begins.
-/
import Switchboard.Json.Value

namespace Switchboard.Json

/-! ## Numbers -/

/-- One digit or more. -/
structure Digits (ds : Bytes) : Prop where
  nonempty : ds ≠ []
  digit : ∀ b ∈ ds, isDigit b = true

/-- Digits with no zero in front of another. -/
structure WholeDigits (ds : Bytes) : Prop extends Digits ds where
  zero : ∀ t, ds = 0x30 :: t → t = []

/-- A fraction: nothing, or a point and digits. -/
inductive FractionText : Bytes → Bytes → Prop where
  | absent : FractionText [] []
  | digits {ds : Bytes} (h : Digits ds) : FractionText ds (0x2E :: ds)

/-- The sign of an exponent. -/
inductive SignText : Bool → Bytes → Prop where
  | absent : SignText false []
  | plus : SignText false [0x2B]
  | minus : SignText true [Json.minus]

/-- An exponent: nothing, or a letter of either case, a sign, and digits. -/
inductive ExponentText : Option (Bool × Bytes) → Bytes → Prop where
  | absent : ExponentText none []
  | digits {letter : UInt8} {negative : Bool} {sign ds : Bytes}
      (hletter : letter = 0x65 ∨ letter = 0x45) (hsign : SignText negative sign) (hds : Digits ds) :
      ExponentText (some (negative, ds)) (letter :: (sign ++ ds))

/-- The digits, fraction and exponent of a number. -/
inductive UnsignedText (x : Numeral) : Bytes → Prop where
  | intro {fraction exponent : Bytes} (hwhole : WholeDigits x.whole)
      (hfraction : FractionText x.fraction fraction)
      (hexponent : ExponentText x.exponent exponent) :
      UnsignedText x (x.whole ++ (fraction ++ exponent))

/-- The texts of a number. -/
inductive NumeralText (x : Numeral) : Bytes → Prop where
  | positive {text : Bytes} (hsign : x.negative = false) (h : UnsignedText x text) :
      NumeralText x text
  | negative {text : Bytes} (hsign : x.negative = true) (h : UnsignedText x text) :
      NumeralText x (minus :: text)

/-- The number is an integer: it has no fraction and no exponent, and it is not zero with a
    minus. -/
structure Numeral.Spells (x : Numeral) (z : Int) : Prop where
  fraction : x.fraction = []
  exponent : x.exponent = none
  nonzero : x.negative = true → digitsValue x.whole ≠ 0
  value : z = if x.negative then -(digitsValue x.whole : Int) else digitsValue x.whole

/-! ## Strings -/

/-- The texts of a character behind a backslash: one letter, four digits, or the digits of two
    surrogates for a character beyond their range. -/
inductive EscapeText : Char → Bytes → Prop where
  | short {b : UInt8} {c : Char} (h : shortEscape? b = some c) : EscapeText c [b]
  | numbered {w x y z : UInt8} {c : Char} (h : fourHex? w x y z = some c.toNat) :
      EscapeText c [0x75, w, x, y, z]
  | pair {w x y z w' x' y' z' : UInt8} {high low : Nat} (h : fourHex? w x y z = some high)
      (hhigh : isHighSurrogate high = true) (h' : fourHex? w' x' y' z' = some low)
      (hlow : isLowSurrogate low = true) :
      EscapeText (joinSurrogates high low) [0x75, w, x, y, z, backslash, 0x75, w', x', y', z']

/-- The texts of a character in a string: itself, if it is free to stand there, or an escape. -/
inductive CharacterText : Char → Bytes → Prop where
  | plain {c : Char} (hquote : c ≠ '"') (hbackslash : c ≠ '\\') (hcontrol : ¬c < ' ') :
      CharacterText c (String.utf8EncodeChar c)
  | escaped {c : Char} {text : Bytes} (h : EscapeText c text) : CharacterText c (backslash :: text)

/-- A string behind its opening quote. -/
inductive CharactersText : List Char → Bytes → Bytes → Prop where
  | done (rest : Bytes) : CharactersText [] (quote :: rest) rest
  | next {c : Char} {cs : List Char} {text s rest : Bytes} (h : CharacterText c text)
      (others : CharactersText cs s rest) : CharactersText (c :: cs) (text ++ s) rest

/-! ## Values -/

/-- A JSON value as a text gives it. -/
inductive Tree where
  | null
  | boolean (value : Bool)
  | number (spelling : Numeral)
  | text (value : String)
  | list (items : List Tree)
  | object (members : List (String × Tree))
  deriving Repr

section Texts

variable (item : Tree → Bytes → Bytes → Prop)

/-- Behind an element of a list: the others, behind a comma each, up to the closing bracket. -/
inductive ItemsText : List Tree → Bytes → Bytes → Prop where
  | done {s rest : Bytes} (hs : skipBlanks s = closeList :: rest) : ItemsText [] s rest
  | next {tree : Tree} {trees : List Tree} {s r t rest : Bytes} (hs : skipBlanks s = comma :: r)
      (h : item tree r t) (others : ItemsText trees t rest) : ItemsText (tree :: trees) s rest

/-- A list behind its opening bracket. -/
inductive ListText : List Tree → Bytes → Bytes → Prop where
  | empty {s rest : Bytes} (hs : skipBlanks s = closeList :: rest) : ListText [] s rest
  | items {tree : Tree} {trees : List Tree} {s t rest : Bytes} (h : item tree s t)
      (others : ItemsText item trees t rest) : ListText (tree :: trees) s rest

/-- A member of an object: a string, a colon and a value. -/
inductive MemberText : String → Tree → Bytes → Bytes → Prop where
  | intro {name : String} {tree : Tree} {s r t u rest : Bytes} (hs : skipBlanks s = quote :: r)
      (hname : CharactersText name.toList r t) (ht : skipBlanks t = colon :: u)
      (h : item tree u rest) :
      MemberText name tree s rest

/-- Behind a member of an object: the others, behind a comma each, up to the closing brace. -/
inductive MembersText : List (String × Tree) → Bytes → Bytes → Prop where
  | done {s rest : Bytes} (hs : skipBlanks s = closeObject :: rest) : MembersText [] s rest
  | next {name : String} {tree : Tree} {members : List (String × Tree)} {s r t rest : Bytes}
      (hs : skipBlanks s = comma :: r) (h : MemberText item name tree r t)
      (others : MembersText members t rest) :
      MembersText ((name, tree) :: members) s rest

/-- An object behind its opening brace. -/
inductive ObjectText : List (String × Tree) → Bytes → Bytes → Prop where
  | empty {s rest : Bytes} (hs : skipBlanks s = closeObject :: rest) : ObjectText [] s rest
  | members {name : String} {tree : Tree} {members : List (String × Tree)} {s t rest : Bytes}
      (h : MemberText item name tree s t) (others : MembersText item members t rest) :
      ObjectText ((name, tree) :: members) s rest

end Texts

/-- A value whose lists and objects hold what `item` says; without `item` there may be none. -/
inductive LayerText (item : Option (Tree → Bytes → Bytes → Prop)) :
    Tree → Bytes → Bytes → Prop where
  | null {s rest : Bytes} (hs : skipBlanks s = Utf8.encode "null" ++ rest) :
      LayerText item .null s rest
  | true {s rest : Bytes} (hs : skipBlanks s = Utf8.encode "true" ++ rest) :
      LayerText item (.boolean true) s rest
  | false {s rest : Bytes} (hs : skipBlanks s = Utf8.encode "false" ++ rest) :
      LayerText item (.boolean false) s rest
  | number {x : Numeral} {s text rest : Bytes} (hs : skipBlanks s = text ++ rest)
      (h : NumeralText x text) :
      LayerText item (.number x) s rest
  | text {t : String} {s r rest : Bytes} (hs : skipBlanks s = quote :: r)
      (h : CharactersText t.toList r rest) :
      LayerText item (.text t) s rest
  | list {inner : Tree → Bytes → Bytes → Prop} {items : List Tree} {s r rest : Bytes}
      (hitem : item = some inner)
      (hs : skipBlanks s = openList :: r) (h : ListText inner items r rest) :
      LayerText item (.list items) s rest
  | object {inner : Tree → Bytes → Bytes → Prop} {members : List (String × Tree)} {s r rest : Bytes}
      (hitem : item = some inner) (hs : skipBlanks s = openObject :: r)
      (h : ObjectText inner members r rest) :
      LayerText item (.object members) s rest

/-- The bytes give the value, with no more lists and objects open at once than `depth`, and go on
    with `rest`. -/
def Written : (depth : Nat) → Tree → Bytes → Bytes → Prop
  | 0 => LayerText none
  | depth + 1 => LayerText (some (Written depth))

end Switchboard.Json
