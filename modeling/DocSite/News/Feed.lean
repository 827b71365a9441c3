import DocSite.Time.Instant
import DocSite.Xml

/-!
# News feeds

* `Feed`, `Feed.Item` : a channel and its items.
* `Feed.toXml` : the feed as an RSS document.
-/

namespace DocSite

/-- An article in a feed. -/
structure Feed.Item where
  title : Text
  description : Text
  /-- The public URL of the article. -/
  url : Text
  date : Instant
  deriving DecidableEq, Repr

/-- A channel with its items. -/
structure Feed where
  title : Text
  description : Text
  /-- The URL of the site. -/
  siteUrl : Text
  /-- When the feed was built. -/
  buildDate : Instant
  items : List Feed.Item
  deriving DecidableEq, Repr

namespace Feed

open Xml (Element)

/-- The path of feeds among the attachments of a module. -/
def relative : Text := "news.atom".toList

/-- The media type of feeds. -/
def mediaType : Text := "application/rss+xml".toList

/-- What feeds name as their maker. -/
def generator : Text := "folio 0.1.0".toList

/-- An element without attributes that holds a text. -/
def leaf (name content : Text) : Element := .leaf name [] content

/-- The element of an item. -/
def Item.element (i : Item) : Element :=
  .node "item".toList []
    [leaf "title".toList i.title, leaf "description".toList i.description,
     leaf "link".toList i.url,
     .leaf "guid".toList [("isPermaLink".toList, "true".toList)] i.url,
     leaf "pubDate".toList i.date.mailText]

/-- The element of a channel. -/
def channel (f : Feed) : Element :=
  .node "channel".toList []
    ([leaf "title".toList f.title, leaf "description".toList f.description,
      leaf "link".toList f.siteUrl, leaf "generator".toList generator,
      leaf "lastBuildDate".toList f.buildDate.mailText,
      leaf "pubDate".toList f.buildDate.mailText] ++ f.items.map Item.element)

/-- The feed as an RSS document. -/
def toXml (f : Feed) : Text :=
  Xml.document (.node "rss".toList [("version".toList, "2.0".toList)] [f.channel])

end Feed

end DocSite
