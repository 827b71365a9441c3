import DocSite.Catalog.Glob
import DocSite.Macro.Pass
import DocSite.News.Feed
import DocSite.News.Listing
import DocSite.Site.Scope
import DocSite.Url

/-!
# News

The block macro `news::generate[refs=glob]` becomes a listing of the articles that a glob selects,
and registers a feed of them as an attachment of the document's module. The inline macro
`news:feed[text]` links to that feed.

* `News.maxItems` : how many articles are listed.
* `News.feed` : the feed of a listing.
* `News.generate` : the listing, and the catalog with the feed.
* `News.blockHandler`, `News.inlineHandler` : the handlers of the macros.
-/

namespace DocSite

namespace News

/-- The name of both macros. -/
def name : Text := "news".toList

/-- How many articles are listed where nothing else is said. -/
def defaultMaxItems : Nat := 20

/-- The attribute of the site that says how many articles are listed. -/
def maxItemsAttribute : Text := "news-feed-max-items".toList

/-- How many articles are listed. -/
def maxItems (scope : Scope) : Nat :=
  ((scope.attribute? maxItemsAttribute).bind fun s => Text.toWord? s.trim).getD defaultMaxItems

/-- The articles that are listed. -/
def listed (scope : Scope) (summaries : List Summary) : List Summary :=
  summaries.take (maxItems scope)

/-- The URL of the site. -/
def siteUrl (scope : Scope) : Text := (scope.attribute? "site-url".toList).getD []

/-- The item of an article that is published. -/
def item? (scope : Scope) (c : Catalog) (s : Summary) : Option Feed.Item := do
  let page ← c.resolvePage? s.xref scope.location
  let publication ← page.publication?
  some { title := s.title, description := s.text
         url := Url.absolute (siteUrl scope) publication.url, date := s.date }

/-- The feed of the articles that are listed. -/
def feed (scope : Scope) (c : Catalog) (summaries : List Summary) : Feed where
  title := (scope.attribute? "news-feed-title".toList).getD []
  description := (scope.attribute? "news-feed-description".toList).getD []
  siteUrl := siteUrl scope
  buildDate := scope.buildDate
  items := (listed scope summaries).filterMap (item? scope c)

/-- The location of the feed of the module that a location is in. -/
def feedLocation (l : Location) : Location :=
  { l with family := .attachment, relative := Feed.relative }

/-- The file of a feed. -/
def feedEntry (scope : Scope) (f : Feed) : Entry where
  source := { toLocation := feedLocation scope.location, mediaType? := some Feed.mediaType }
  contents := f.toXml

/-- The listing of the articles that a glob selects, in a section of a level, and the catalog with
the feed of them. -/
def generate (scope : Scope) (c : Catalog) (glob : Text) (level : Nat) :
    Except NewsError (Text × Catalog) := do
  let summaries ← Summary.list (c.select glob scope.location) scope.location
  match c.add (feedEntry scope (feed scope c summaries)) with
  | .ok c => .ok (Listing.render level (listed scope summaries), c)
  | .error cause => .error (.catalog cause)

/-- The glob of a macro that lists articles. -/
def glob? (call : Call) : Option Text :=
  if call.target = "generate".toList then
    (call.attributes.named? "refs".toList).join.filter (· ≠ [])
  else none

/-- The handler of the block macro. A failure leaves the catalog as it was. -/
def blockHandler (scope : Scope) : BlockHandler Catalog NewsError where
  name := name
  run call := ExceptT.mk fun c =>
    match glob? call with
    | none => (.ok (.text []), c)
    | some glob =>
      match generate scope c glob call.level with
      | .ok (listing, c) => (.ok (.markup listing), c)
      | .error e => (.error e, c)

/-- The link of the inline macro. -/
def feedLink (scope : Scope) (call : Call) : Text :=
  linkMarkup (scope.moduleRoot ++ "/_attachments/".toList ++ Feed.relative)
    (call.attributes.only?.join.getD [])

/-- The handler of the inline macro. -/
def inlineHandler (scope : Scope) : InlineHandler Catalog where
  name := name
  run call := return if call.target = "feed".toList then .text (feedLink scope call) else .skip

end News

end DocSite
