import DocSite.Macro.Bracket
import DocSite.News.Summary

/-!
# News listings

* `Listing.entry` : the section of a listing about one article.
* `Listing.render` : a listing as markup.
-/

namespace DocSite

namespace Listing

/-- The section about an article in a section of a level: a heading one level below that links to
the article, its date and its summary. -/
def entry (level : Nat) (s : Summary) : Text :=
  List.replicate (level + 2) '=' ++ " xref:".toList ++ s.xref ++
    '[' :: Bracket.escape s.title ++ "]\n\n[.news-date]\n".toList ++ s.date.dayText ++
    "\n\n[.news-summary]\n".toList ++ s.text ++ ['\n']

/-- The sections about articles in a section of a level, with empty lines between them. -/
def render (level : Nat) (summaries : List Summary) : Text :=
  Text.join ['\n'] (summaries.map (entry level))

end Listing

end DocSite
