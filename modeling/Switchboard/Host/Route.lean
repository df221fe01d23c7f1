/-
  Routes: patterns of paths.

  In a pattern `{name}` stands for at least one character up to the next slash, `{*name}` for any
  rest that is not empty, and a doubled brace for a brace; everything else stands for itself.  Names
  do not matter.  A parameter ends its segment and a rest ends the pattern.

    * `Pattern.parse`     reads a pattern;
    * `Pattern.covers`    says whether a path fits;
    * `Pattern.clashes`   says whether two patterns may not stand side by side;
    * `select`            finds the pattern a path goes to: of those it fits, the one that is
                          literal where they first differ.
-/

namespace Switchboard.Host

/-- A piece of a pattern: a character for itself, a parameter, or the rest of the path. -/
inductive Token where
  | literal (char : Char)
  | param
  | rest
  deriving Repr, DecidableEq

/-- The order of tokens: what stands for itself comes first. -/
def Token.rank : Token → Nat
  | .literal _ => 0
  | .param => 1
  | .rest => 2

/-- A pattern of paths, from left to right. -/
abbrev Pattern := List Token

namespace Pattern

/-! ## Reading -/

/-- The characters of a pattern, and whether each is a doubled brace. -/
def unescape : List Char → List (Char × Bool)
  | [] => []
  | [c] => [(c, false)]
  | c :: d :: cs =>
    if (c = '{' ∨ c = '}') ∧ c = d then (c, true) :: unescape cs
    else (c, false) :: unescape (d :: cs)

/-- The characters of a parameter behind its first, up to the closing brace, and what follows it;
    none of them is a star or a slash. -/
def nameEnd : List (Char × Bool) → Option (List (Char × Bool))
  | [] => none
  | (c, escaped) :: cs =>
    if c = '}' ∧ escaped = false then some cs
    else if c = '*' ∨ c = '/' then none
    else nameEnd cs

theorem length_nameEnd_lt {cs rest : List (Char × Bool)} (h : nameEnd cs = some rest) :
    rest.length < cs.length := by
  induction cs with
  | nil => simp [nameEnd] at h
  | cons x cs ih =>
    obtain ⟨c, escaped⟩ := x
    simp only [nameEnd] at h
    split at h
    · simp only [Option.some.injEq] at h
      subst h
      exact Nat.lt_succ_self _
    · split at h
      · simp at h
      · exact Nat.lt_succ_of_lt (ih h)

/-- Reads the tokens of a pattern. -/
def tokens : List (Char × Bool) → Option Pattern
  | [] => some []
  | ('}', false) :: _ => none
  | ('{', false) :: (first, _) :: cs =>
    if first = '}' then none
    else if first = '*' then
      -- The name of a rest must not be empty, and nothing may follow.
      if cs.head? = some ('}', false) ∨ nameEnd cs ≠ some [] then none else some [.rest]
    else
      match _ : nameEnd cs with
      | some [] => some [.param]
      | some (('/', b) :: more) => (tokens (('/', b) :: more)).map (.param :: ·)
      | _ => none
  | [('{', false)] => none
  | (c, _) :: cs => (tokens cs).map (.literal c :: ·)
  termination_by cs => cs.length
  decreasing_by
  · exact Nat.lt_succ_of_lt (Nat.lt_succ_of_lt (length_nameEnd_lt ‹_›))
  · exact Nat.lt_succ_self _

/-- Whether a segment begins with a colon or a star, which older patterns used for parameters. -/
def hasOldStyle : List Char → Bool
  | '/' :: ':' :: _ => true
  | '/' :: '*' :: _ => true
  | _ :: cs => hasOldStyle cs
  | [] => false

/-- Reads a pattern that begins with a slash. -/
def parse (path : String) : Option Pattern :=
  if hasOldStyle path.toList then none else tokens (unescape path.toList)

/-- The pattern in which a text stands for itself. -/
def ofText (path : String) : Pattern := path.toList.map .literal

/-! ## Fitting -/

/-- Whether a path fits a pattern. -/
def covers : Pattern → List Char → Bool
  | [], cs => cs.isEmpty
  | .literal c :: ts, d :: cs => c == d && covers ts cs
  | .literal _ :: _, [] => false
  | .param :: ts, cs =>
    let value := cs.takeWhile (· != '/')
    !value.isEmpty && covers ts (cs.dropWhile (· != '/'))
  | .rest :: _, cs => !cs.isEmpty

/-- Whether the first of two patterns goes before the second, where a path fits both. -/
def precedes : Pattern → Pattern → Bool
  | t :: ts, u :: us =>
    Token.rank t < Token.rank u || (Token.rank t == Token.rank u && precedes ts us)
  | _, _ => false

/-- Whether two patterns may not stand side by side: they are the same, or the one has a rest where
    the other has a rest or a parameter, behind the same tokens. -/
def clashes : Pattern → Pattern → Bool
  | [], [] => true
  | .rest :: _, .rest :: _ => true
  | .rest :: _, .param :: _ => true
  | .param :: _, .rest :: _ => true
  | t :: ts, u :: us => t == u && clashes ts us
  | _, _ => false

end Pattern

/-- The better of a candidate and another entry, for a path that fits both. -/
def better {α : Type} (found : Option (Pattern × α)) (entry : Pattern × α) : Option (Pattern × α) :=
  match found with
  | none => some entry
  | some best => if entry.1.precedes best.1 then some entry else some best

/-- The entry that a path goes to. -/
def select {α : Type} (routes : List (Pattern × α)) (path : String) : Option α :=
  ((routes.filter fun r => r.1.covers path.toList).foldl better none).map (·.2)

end Switchboard.Host
