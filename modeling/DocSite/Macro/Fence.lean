import DocSite.Text.Basic

/-!
# Fences

Text between two delimiter lines is verbatim. A delimiter is a line of at least four equal
characters out of `-`, `.`, `+` and `/`, closed by the same line, or a line that starts with at
least three backticks, closed by a line of at least as many backticks and nothing else.

* `Delimiter.opening?`, `Delimiter.isClosedBy` : the lines that open a block, and those that close
  it.
* `FenceTracker` : what is remembered of the lines so far.
* `FenceTracker.update` : what is remembered after one more line.
-/

namespace DocSite

/-- The line that opened a verbatim block. -/
structure Delimiter where
  /-- The character that is repeated. -/
  char : Char
  /-- How often it is repeated. -/
  length : Nat
  deriving DecidableEq, Repr

namespace Delimiter

/-- The character of code fences. -/
def backtick : Char := '\x60'

/-- The characters that delimit a block by themselves. -/
def blockChars : List Char := ['-', '.', '+', '/']

/-- How often a character is repeated at the start of a text. -/
def runLength (c : Char) (s : Text) : Nat := (s.takeWhile (· = c)).length

/-- The delimiter that a line without blanks at its ends opens. -/
def opening? (s : Text) : Option Delimiter :=
  match s with
  | [] => none
  | c :: _ =>
    let n := runLength c s
    if c = backtick then (if 3 ≤ n then some ⟨c, n⟩ else none)
    else if blockChars.contains c ∧ 4 ≤ n ∧ n = s.length then some ⟨c, n⟩
    else none

/-- Whether a line without blanks at its ends closes the block that a delimiter opened. -/
def isClosedBy (d : Delimiter) (s : Text) : Bool :=
  let n := runLength d.char s
  s ≠ [] && n = s.length && (if d.char = backtick then d.length ≤ n else n = d.length)

end Delimiter

/-- What is remembered of the lines so far: the delimiter of the verbatim block that is open. -/
structure FenceTracker where
  /-- The character of the delimiter, if a block is open. -/
  char? : Option Char := none
  /-- How often the character is repeated. -/
  length : Nat := 0
  deriving DecidableEq, Repr

namespace FenceTracker

/-- Whether a block is open. -/
def inFence (t : FenceTracker) : Bool := t.char?.isSome

/-- What is remembered after one more line, and whether the line opens or closes a block. -/
def update (t : FenceTracker) (line : Text) : FenceTracker × Bool :=
  match t.char? with
  | some c =>
    if Delimiter.isClosedBy ⟨c, t.length⟩ line.trim then (⟨none, 0⟩, true) else (t, false)
  | none =>
    match Delimiter.opening? line.trim with
    | some d => (⟨some d.char, d.length⟩, true)
    | none => (t, false)

end FenceTracker

end DocSite
