import DocSite.Macro.Pass
import DocSite.Site.Scope
import DocSite.Url

/-!
# File links

The macro `fref:reference#fragment[text]` links to a published file of any family. A reference that
leads to no published file becomes a link within the page.

* `FileLink.url?` : where a macro links to.
* `FileLink.markup` : the link.
* `FileLink.handler` : the handler of the macro.
-/

namespace DocSite

namespace FileLink

/-- Where the target of a macro leads from a document: a path from the document if it is published
itself. -/
def url? (scope : Scope) (c : Catalog) (target : Text) : Option Text := do
  let (reference, hash) := Url.splitFragment target
  let file ← c.resolve? reference scope.location .page
  let publication ← file.publication?
  some <| match scope.file.publication? with
    | some own => Url.relative own.url publication.url hash
    | none => publication.url ++ hash

/-- The link of a macro. Without a text it shows where it leads. -/
def markup (scope : Scope) (c : Catalog) (call : Call) : Text :=
  let content? := call.attributes.only?.join
  match url? scope c call.target with
  | some url => linkMarkup url (content?.getD url)
  | none => linkMarkup ('#' :: call.target) (content?.getD call.target)

/-- The handler of the macro. -/
def handler (scope : Scope) : InlineHandler Catalog where
  name := "fref".toList
  run call := do return .text (markup scope (← get) call)

end FileLink

end DocSite
