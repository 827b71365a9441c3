import DocSite.Text.Basic

/-!
# XML documents

An element holds a text or other elements. Elements within an element stand on lines of their own,
four blanks to a level; a text follows its tag at once.

* `Xml.Element` : an element.
* `Xml.escape` : a text as character data.
* `Xml.Element.render`, `Xml.document` : an element and a document as text.
-/

namespace DocSite

namespace Xml

/-- An element of a document. -/
inductive Element where
  /-- An element that holds a text. -/
  | leaf (name : Text) (attributes : List (Text × Text)) (content : Text)
  /-- An element that holds elements. -/
  | node (name : Text) (attributes : List (Text × Text)) (children : List Element)
  deriving Repr

/-- A character as character data: what has a meaning in markup is written as an entity. -/
def escapeChar (c : Char) : Text :=
  if c = '<' then "&lt;".toList
  else if c = '>' then "&gt;".toList
  else if c = '&' then "&amp;".toList
  else if c = '\'' then "&apos;".toList
  else if c = '"' then "&quot;".toList
  else [c]

/-- A text as character data. -/
def escape (s : Text) : Text := s.flatMap escapeChar

/-- A tag that opens an element. -/
def openTag (name : Text) (attributes : List (Text × Text)) : Text :=
  '<' :: name ++
    (attributes.flatMap fun (key, value) => ' ' :: key ++ '=' :: '"' :: escape value ++ ['"']) ++
    ['>']

/-- A tag that closes an element. -/
def closeTag (name : Text) : Text := '<' :: '/' :: name ++ ['>']

/-- A line break and the blanks of a level. -/
def newline (level : Nat) : Text := '\n' :: List.replicate (4 * level) ' '

mutual

/-- An element at a level. -/
def Element.render (level : Nat) : Element → Text
  | .leaf name attributes content => openTag name attributes ++ escape content ++ closeTag name
  | .node name attributes children =>
    openTag name attributes ++ renderAll (level + 1) children ++ newline level ++ closeTag name

/-- Elements at a level, each on a line of its own. -/
def renderAll (level : Nat) : List Element → Text
  | [] => []
  | e :: rest => newline level ++ e.render level ++ renderAll level rest

end

/-- A document with a root element. -/
def document (root : Element) : Text :=
  "<?xml version=\"1.0\" encoding=\"UTF-8\"?>".toList ++ newline 0 ++ root.render 0

end Xml

end DocSite
