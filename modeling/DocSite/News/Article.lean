import DocSite.Macro.Outline
import DocSite.Table
import DocSite.Text.Letters

/-!
# News articles

Of a news article, the listing needs the title, the attribute entries and the first paragraph.

* `Article` : what is read of an article.
* `Article.assignment?` : the attribute that a line sets.
* `Article.read` : the article in a text.
-/

namespace DocSite

/-- What is read of a news article. -/
structure Article where
  /-- The title, from the title line or else from the attribute `doctitle`. -/
  title? : Option Text := none
  /-- The attributes that entries in the header and before the first paragraph set. -/
  attributes : Table Text := []
  /-- The lines of the first paragraph. -/
  firstBlock : List Text := []
  deriving DecidableEq, Repr

namespace Article

/-- The first paragraph as one text. -/
def summary (a : Article) : Text := Text.join ['\n'] a.firstBlock

/-! ### Kinds of lines -/

/-- A name that an entry can set. -/
def isEntryName (s : Text) : Bool :=
  s ≠ [] && s.all fun c => Text.isAlphanumeric c || c = '-' || c = '_'

/-- The attribute that a line sets: `:name: value`. -/
def assignment? (line : Text) : Option (Text × Text) :=
  match line with
  | ':' :: rest =>
    match Text.splitFirst? ':' rest with
    | some (name, value) => if isEntryName name then some (name, value.trim) else none
    | none => none
  | _ => none

/-- A line that starts with two slashes, or three, but not with four. -/
def isComment (line : Text) : Bool :=
  "//".toList.isPrefixOf line && !"////".toList.isPrefixOf line

/-- The line that starts and ends a comment block. -/
def isCommentFence (line : Text) : Bool := line.trim = "////".toList

/-- Attributes or a title of the block that follows, in a line without blanks at its ends. -/
def isBlockMetadata (s : Text) : Bool :=
  (s.head? = some '[' && s.getLast? = some ']') ||
    match s with
    | '.' :: c :: _ => c ≠ '.'
    | _ => false

/-- A heading below the title, in a line without blanks at its ends. -/
def isSectionHeading (s : Text) : Bool :=
  "==".toList.isPrefixOf s && (s.dropWhile (· = '=')).head? = some ' '

/-- A line before the first paragraph that says nothing. -/
def isSkipped (line : Text) : Bool :=
  Text.isBlank line || isComment line || isBlockMetadata line.trim

/-! ### Reading -/

/-- Attributes with the one that a line sets. -/
def setEntry (attributes : Table Text) (line : Text) : Table Text :=
  match assignment? line with
  | some (name, value) => attributes.insert name value
  | none => attributes

/-- The title in a title line. -/
def titleOf? (line : Text) : Option Text := ("= ".toList.isPrefixOf? line).map Text.trim

/-- The lines of the paragraph that goes on, where `commented` says whether a comment block is
open. -/
def paragraph : (commented : Bool) → List Text → List Text
  | _, [] => []
  | commented, line :: rest =>
    if isCommentFence line then paragraph (!commented) rest
    else if commented then paragraph commented rest
    else if Text.isBlank line then []
    else line :: paragraph commented rest

/-- The attributes and the first paragraph in the lines of a body, where `commented` says whether a
comment block is open. -/
def body (attributes : Table Text) : (commented : Bool) → List Text → Table Text × List Text
  | _, [] => (attributes, [])
  | commented, line :: rest =>
    if isCommentFence line then body attributes (!commented) rest
    else if commented then body attributes commented rest
    else if isSkipped line then body attributes commented rest
    else if (assignment? line).isSome then body (setEntry attributes line) commented rest
    else if isSectionHeading line.trim then body attributes commented rest
    else (attributes, line :: paragraph commented rest)

/-- The article in a list of lines. What stands before the title line are blank lines and comments;
the header goes on after it up to a blank line. -/
def ofLines (lines : List Text) : Article :=
  let lines := lines.dropWhile fun line => Text.isBlank line || isComment line
  let title? := lines.head?.bind titleOf?
  let (header, lines) :=
    if title?.isSome then
      ((lines.drop 1).takeWhile (!Text.isBlank ·), (lines.drop 1).dropWhile (!Text.isBlank ·))
    else ([], lines)
  let (attributes, firstBlock) := body (header.foldl setEntry []) false lines
  { title? := title?.or (attributes.find? "doctitle".toList), attributes, firstBlock }

/-- The article in a text. -/
def read (s : Text) : Article := ofLines s.lines

end Article

end DocSite
