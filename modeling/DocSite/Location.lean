import DocSite.Text.Basic

/-!
# Locations

Where a file of the documentation site stands: a component in one of its versions, a module of it,
a family of files in the module, and a path below the family's directory.

* `Family` : the six kinds of files, each with its name in references.
* `Location` : the five parts that tell one file from every other.
* `Location.id` : the location written out, `version@component:module:family$relative`.
* `Source` : a location with what else is known of the file on disk.
-/

namespace DocSite

/-- The families of files within a module. -/
inductive Family where
  | page
  | partialPage
  | exampleFile
  | image
  | attachment
  | nav
  deriving DecidableEq, Repr

namespace Family

/-- The name of a family in references. -/
def name : Family → Text
  | page => "page".toList
  | partialPage => "partial".toList
  | exampleFile => "example".toList
  | image => "image".toList
  | attachment => "attachment".toList
  | nav => "nav".toList

/-- Every family. -/
def all : List Family := [page, partialPage, exampleFile, image, attachment, nav]

/-- The family with a name. -/
def ofName? (s : Text) : Option Family := all.find? fun f => f.name = s

end Family

/-- The place of a file in the site. -/
structure Location where
  /-- The documentation product. -/
  component : Text
  /-- The release of the component. -/
  version : Text
  /-- The module within the component. -/
  module : Text
  /-- The kind of file. -/
  family : Family
  /-- The path below the directory of the family. -/
  relative : Text
  deriving DecidableEq, Repr

namespace Location

/-- The location written out in full. -/
def id (l : Location) : Text :=
  l.version ++ '@' :: l.component ++ ':' :: l.module ++ ':' :: l.family.name ++ '$' :: l.relative

/-- Whether two locations share component, version and module. -/
def sameModule (a b : Location) : Bool :=
  a.component = b.component && a.version = b.version && a.module = b.module

/-- The last segment of the path. -/
def basename (l : Location) : Text :=
  match Text.splitLast? '/' l.relative with
  | some (_, name) => name
  | none => l.relative

/-- The last segment without its extension; a dot at its start opens no extension. -/
def stem (l : Location) : Text :=
  match Text.splitLast? '.' l.basename with
  | some (c :: stem, _) => c :: stem
  | _ => l.basename

/-- What follows the last dot of the last segment. -/
def extension? (l : Location) : Option Text := (Text.splitLast? '.' l.basename).map (·.2)

end Location

/-- A location with what is known of the file there. -/
structure Source extends Location where
  /-- The media type, where it is given. -/
  mediaType? : Option Text := none
  /-- The path of the file on disk, where it is known. -/
  path? : Option Text := none
  deriving DecidableEq, Repr

namespace Source

/-- The media types of the extensions that the site knows. -/
def mediaTypes : List (Text × Text) :=
  [("adoc".toList, "text/asciidoc".toList), ("asciidoc".toList, "text/asciidoc".toList),
   ("html".toList, "text/html".toList), ("xml".toList, "application/xml".toList),
   ("json".toList, "application/json".toList), ("png".toList, "image/png".toList),
   ("svg".toList, "image/svg+xml".toList), ("pdf".toList, "application/pdf".toList)]

/-- The given media type, or the one that the extension suggests. -/
def mediaType (s : Source) : Text :=
  match s.mediaType? with
  | some t => t
  | none => (s.extension?.bind fun e => mediaTypes.lookup e).getD "application/octet-stream".toList

/-- What messages call the file: its path on disk, or else its location written out. -/
def displayPath (s : Source) : Text := s.path?.getD s.id

end Source

end DocSite
