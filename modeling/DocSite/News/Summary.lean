import DocSite.Catalog.Basic
import DocSite.News.Article
import DocSite.Time.Reader

/-!
# News summaries

What a listing shows of a news article. Articles are listed from the newest to the oldest.

* `Summary` : what a listing shows of an article.
* `NewsError` : why there is no listing.
* `Summary.ofEntry` : the summary of a file.
* `Summary.list` : the summaries of files, the newest first.
-/

namespace DocSite

/-- What a listing shows of a news article. -/
structure Summary where
  date : Instant
  title : Text
  /-- The first paragraph of the article. -/
  text : Text
  /-- The reference to the article from the page with the listing. -/
  xref : Text
  deriving DecidableEq, Repr

/-- Why there is no listing. -/
inductive NewsError where
  /-- An article has no date. -/
  | missingDate (path : Text)
  /-- The date of an article names no instant. -/
  | invalidDate (path value : Text)
  /-- The feed is not registered. -/
  | catalog (cause : CatalogError)
  deriving DecidableEq, Repr

/-- Why there is no listing, in words. -/
def NewsError.message : NewsError → Text
  | missingDate path => "Publish date not defined in news article: ".toList ++ path
  | invalidDate path value =>
    "Cannot parse publish date '".toList ++ value ++ "' in ".toList ++ path
  | catalog cause => cause.message

namespace Summary

/-- The attribute that holds the date of an article. -/
def dateAttribute : Text := "page-publish_date".toList

/-- The summary of a file for a page at `context`. -/
def ofEntry (e : Entry) (context : Location) : Except NewsError Summary :=
  let article := Article.read e.contents
  match (article.attributes.find? dateAttribute).filter (· ≠ []) with
  | none => .error (.missingDate e.source.displayPath)
  | some value =>
    match Instant.read? value with
    | none => .error (.invalidDate e.source.displayPath value)
    | some date =>
      .ok { date, title := article.title?.getD [], text := article.summary
            xref := e.location.xrefFrom context }

/-- Whether one summary can stand before another: it is not older. -/
def precedes (a b : Summary) : Bool := a.date.notBefore b.date

/-- The summaries of files for a page at `context`, the newest first. The first file without a
summary is the error. -/
def list (files : List Entry) (context : Location) : Except NewsError (List Summary) := do
  return (← files.mapM fun e => ofEntry e context).mergeSort precedes

end Summary

end DocSite
