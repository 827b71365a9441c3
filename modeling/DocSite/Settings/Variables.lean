import DocSite.Text.Letters

/-!
# References to variables

A text may refer to variables of the environment: `${NAME}` and `${NAME:-default}`, and `$NAME` in a
text that also has a reference in braces. What a variable or a default holds is not looked at again.

* `Variables.required` : the names in references `${NAME}`, which have to be set.
* `Variables.pieces` : a text cut into plain text and references.
* `Variables.expand` : a text with its references replaced, or the first name that is not set.
-/

namespace DocSite

namespace Variables

/-! ### Names that have to be set -/

/-- A character of a name that has to be set. -/
def isNameChar (c : Char) : Bool := c.isAlphanum || c = '_'

/-- The name in a reference `${NAME}` at the start of a text. -/
def requiredAt? (s : Text) : Option Text := do
  let rest ← ['$', '{'].isPrefixOf? s
  let name := rest.takeWhile isNameChar
  let first ← name.head?
  if !first.isDigit ∧ (rest.dropWhile isNameChar).head? = some '}' then some name else none

/-- The names in references `${NAME}` from left to right. -/
def required : Text → List Text
  | [] => []
  | c :: rest => (requiredAt? (c :: rest)).toList ++ required rest

/-! ### Pieces -/

/-- A part of a text: plain text, or a reference to a variable. -/
inductive Piece where
  /-- Text that stands for itself. -/
  | plain (s : Text)
  /-- A reference with its source, and what it holds if the variable is not set. -/
  | reference (source name : Text) (default? : Option Text)
  deriving DecidableEq, Repr

/-- What a piece stands for where `value?` holds the variables. A reference without a value stands
for itself. -/
def Piece.fill (value? : Text → Option Text) : Piece → Text
  | plain s => s
  | reference source name default? => ((value? name).or default?).getD source

/-- The reference with a text between its braces: a default follows the first `:-` unless there is
no name before it. -/
def braced (body : Text) : Piece :=
  let source := '$' :: '{' :: body ++ ['}']
  match Text.splitFirstText? [':', '-'] body with
  | some (c :: name, default) => .reference source (c :: name) (some default)
  | _ => .reference source body none

/-- A character of a name without braces around it. -/
def isBareChar (c : Char) : Bool := Text.isAlphanumeric c || c = '_'

/-- The piece after a dollar sign that starts a text, and what follows it. Two dollar signs stand
for one, and one that refers to nothing for itself. -/
def dollar : Text → Piece × Text
  | [] => (.plain ['$'], [])
  | c :: rest =>
    if c = '$' then (.plain ['$'], rest)
    else if c = '{' then
      match Text.splitFirst? '}' rest with
      | some (body, rest) => (braced body, rest)
      | none => (.plain ['$', '{'], rest)
    else
      match (c :: rest).takeWhile isBareChar with
      | [] => (.plain ['$'], c :: rest)
      | name => (.reference ('$' :: name) name none, (c :: rest).dropWhile isBareChar)

theorem length_splitFirst? {sep : Char} {s a b : Text} (h : Text.splitFirst? sep s = some (a, b)) :
    b.length < s.length := by
  induction s generalizing a with
  | nil => simp [Text.splitFirst?] at h
  | cons c s ih =>
    simp only [Text.splitFirst?] at h
    split at h
    · simp at h; simp [h.2]
    · simp only [Option.map_eq_some_iff, Prod.mk.injEq] at h
      obtain ⟨⟨a', b'⟩, h, _, rfl⟩ := h
      exact Nat.lt_succ_of_lt (ih h)

theorem length_dollar (s : Text) : (dollar s).2.length ≤ s.length := by
  unfold dollar
  split
  · simp
  · split
    · simp
    · split
      · split
        · exact Nat.le_succ_of_le (Nat.le_of_lt (length_splitFirst? ‹_›))
        · simp
      · split
        · simp
        · exact (List.dropWhile_sublist _).length_le

/-- A text cut into plain text and references, from left to right. -/
def pieces : Text → List Piece
  | [] => []
  | c :: rest =>
    if c = '$' then
      have := length_dollar rest
      (dollar rest).1 :: pieces (dollar rest).2
    else .plain [c] :: pieces rest
termination_by s => s.length

/-! ### Expansion -/

/-- The text with its references replaced. -/
def substitute (value? : Text → Option Text) (s : Text) : Text :=
  (pieces s).flatMap (Piece.fill value?)

/-- The text with its references replaced where `value?` holds the variables, or the first name that
has to be set and is not. A text without a reference in braces stands for itself. -/
def expand (value? : Text → Option Text) (s : Text) : Except Text Text :=
  if Text.contains ['$', '{'] s then
    match (required s).find? fun name => (value? name).isNone with
    | some name => .error name
    | none => .ok (substitute value? s)
  else .ok s

end Variables

end DocSite
