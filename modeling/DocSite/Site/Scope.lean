import DocSite.Catalog.Basic
import DocSite.Table
import DocSite.Time.Instant

/-!
# Scopes

What the macros of the site know of the document that is expanded.

* `Scope` : the document, the attributes of the site and the time.
* `Scope.moduleRoot` : the path from the document to the root of its module.
-/

namespace DocSite

/-- The document that is expanded, and what surrounds it. -/
structure Scope where
  /-- The document. -/
  file : Entry
  /-- The attributes of the site. -/
  attributes : Table Text := []
  /-- When the site is built. -/
  buildDate : Instant

namespace Scope

/-- The location of the document. -/
def location (s : Scope) : Location := s.file.location

/-- An attribute of the site. -/
def attribute? (s : Scope) (name : Text) : Option Text := s.attributes.find? name

/-- The path from the published document to the root of its module; unpublished documents are taken
to stand there. -/
def moduleRoot (s : Scope) : Text :=
  match s.file.publication? with
  | some p => p.moduleRoot
  | none => ['.']

end Scope

/-- A link to a URL. -/
def linkMarkup (url content : Text) : Text :=
  "<a href=\"".toList ++ url ++ '"' :: '>' :: content ++ "</a>".toList

end DocSite
