import DocSite.Macro.Fence
import DocSite.Text.Lines

/-!
# The outline of a source

What the place of a line means for the macros in it follows from the lines before it alone: its
number, the level of the section it stands in, and whether its text is verbatim.

* `headingLevel?` : the level of a heading.
* `SourceLine` : a line with what its place means.
* `outline` : the lines of a source.
-/

namespace DocSite

/-- The level of a heading: one less than the number of equals signs, one to six, that start it. -/
def headingLevel? (line : Text) : Option Nat :=
  let n := (line.takeWhile (· = '=')).length
  let rest := line.dropWhile (· = '=')
  if 1 ≤ n ∧ n ≤ 6 ∧ rest.head? = some ' ' ∧ !Text.isBlank rest then some (n - 1)
  else none

/-- Whether a line is a comment. -/
def isCommentLine (line : Text) : Bool := ['/', '/'].isPrefixOf line.trimStart

/-- A line of a source with what its place means for the macros in it. -/
structure SourceLine where
  /-- The number of the line, from one on. -/
  number : Nat
  /-- The level of the section that the line stands in. -/
  level : Nat
  /-- Whether the line is left as it is: a delimiter, verbatim text or a comment. -/
  verbatim : Bool
  /-- The line. -/
  text : Text
  deriving DecidableEq, Repr

/-- The lines that follow in a section of the level `level`, from a number on. -/
def linesFrom (tracker : FenceTracker) (level number : Nat) : List Text → List SourceLine
  | [] => []
  | line :: rest =>
    let (after, delimits) := tracker.update line
    if delimits || after.inFence || isCommentLine line then
      ⟨number, level, true, line⟩ :: linesFrom after level (number + 1) rest
    else
      let level := (headingLevel? line).getD level
      ⟨number, level, false, line⟩ :: linesFrom after level (number + 1) rest

/-- The lines of a source that stands in a section of the level `level`. -/
def outline (level : Nat) (s : Text) : List SourceLine := linesFrom {} level 1 s.lines

end DocSite
