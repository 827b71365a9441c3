import DocSite.Text.Basic

/-!
# Brackets

A macro ends with a text in brackets. Within them a backslash before a closing bracket makes the
bracket part of the text; before any other character the backslash is itself.

* `Bracket.close?` : the text up to the closing bracket, and what follows the bracket.
* `Bracket.escape` : a text whose closing brackets are part of it.
-/

namespace DocSite

namespace Bracket

/-- The text up to the closing bracket, and what follows the bracket, where `escaped` says whether a
backslash stands before the text. -/
def closeFrom? : (escaped : Bool) → Text → Option (Text × Text)
  | _, [] => none
  | true, c :: rest =>
    (closeFrom? false rest).map fun (s, rest) =>
      (if c = ']' then c :: s else '\\' :: c :: s, rest)
  | false, c :: rest =>
    if c = '\\' then closeFrom? true rest
    else if c = ']' then some ([], rest)
    else (closeFrom? false rest).map fun (s, rest) => (c :: s, rest)

/-- The text up to the closing bracket of an open one, and what follows the bracket. -/
def close? (s : Text) : Option (Text × Text) := closeFrom? false s

/-- A text whose closing brackets are part of it. -/
def escape (s : Text) : Text := Text.replace ']' ['\\', ']'] s

end Bracket

end DocSite
