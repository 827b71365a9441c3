import DocSite.Text.Basic

/-!
# Lines

A line ends at a line feed, and a carriage return just before that line feed belongs to the ending.
What follows the last line feed is a line if it is not empty, and keeps its carriage return.

* `Text.lines` : the lines of a text without their endings.
* `Text.unlines` : lines with line feeds between them, and one at the end if asked for.
-/

namespace DocSite

namespace Text

/-- The line without a carriage return at its end. -/
def dropReturn (line : Text) : Text :=
  if line.getLast? = some '\r' then line.dropLast else line

/-- The lines in the pieces between line feeds. -/
def linesOfPieces : List Text → List Text
  | [] => []
  | [last] => if last = [] then [] else [last]
  | piece :: next :: rest => dropReturn piece :: linesOfPieces (next :: rest)

/-- The lines of a text without their endings. -/
def lines (s : Text) : List Text := linesOfPieces (s.splitOn '\n')

/-- Whether the last line of a text has a line feed. -/
def endsWithNewline (s : Text) : Bool := s.getLast? = some '\n'

/-- Lines joined by line feeds, with one more at the end if `final` holds. -/
def unlines (final : Bool) (ls : List Text) : Text :=
  join ['\n'] ls ++ (if final then ['\n'] else [])

end Text

end DocSite
