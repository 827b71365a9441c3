import DocSite.Site.ComponentField
import DocSite.Site.FileLink
import DocSite.Site.News

/-!
# Expanding documents

* `Site.processor` : the macros of the site.
* `Site.expand` : a document with its macros expanded, and the catalog with what they registered.
-/

namespace DocSite

namespace Site

/-- The macros of the site. -/
def processor (scope : Scope) : Processor Catalog NewsError where
  inline := [ComponentField.handler, FileLink.handler scope, News.inlineHandler scope]
  block := [News.blockHandler scope]

/-- A document with its macros expanded, and the catalog with what they registered. -/
def expand (scope : Scope) (c : Catalog) : Except (Failure NewsError) Text × Catalog :=
  ((processor scope).process scope.file.contents).run.run c

/-- What a failure says of the document that is expanded. -/
def failureMessage (scope : Scope) (f : Failure NewsError) : Text :=
  f.message scope.file.source.displayPath f.cause.message

end Site

end DocSite
