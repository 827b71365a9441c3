import DocSite.Proofs.Time.Clock
import DocSite.Proofs.Xml.Reading
import DocSite.News.Feed

/-!
# What feed documents say

The document of a feed is read back in three steps: as an element, as the fields of the channel and
of its items, and, for a date, as what a clock shows. What is read is what the feed says
(`Feed.view`): its texts as they are, and its dates to the second. The tags of the document depend
on the number of items alone, whatever the texts are.

* `Feed.read?` : what a document says of a feed.
* `Feed.read?_toXml` : the document of a feed is read back.
* `Feed.tags?_toXml` : its tags.
* `Feed.toXml_eq_iff` : which feeds have the same document.
* `Feed.feed_view` : what a document says makes up the feed again, to the second.
* `Feed.document_carries_its_data` : all of these.
-/

namespace DocSite

namespace Feed

open Xml (Element Tag)

/-! ### What a feed says -/

/-- What a document says of an item. -/
structure ItemView where
  title : Text
  description : Text
  link : Text
  guid : Text
  date : Clock
  deriving DecidableEq, Repr

/-- What a document says of a feed. -/
structure View where
  title : Text
  description : Text
  link : Text
  built : Clock
  published : Clock
  items : List ItemView
  deriving DecidableEq, Repr

/-- An item, with its date to the second. -/
def Item.view (i : Item) : ItemView :=
  ⟨i.title, i.description, i.url, i.url, i.date.clock⟩

/-- A feed, with its dates to the second. -/
def view (f : Feed) : View :=
  ⟨f.title, f.description, f.siteUrl, f.buildDate.clock, f.buildDate.clock, f.items.map Item.view⟩

/-! ### Reading a document -/

/-- The text in an element with a name. -/
def leafText? (name : Text) : Element → Option Text
  | .leaf found _ content => if found = name then some content else none
  | .node _ _ _ => none

/-- What a clock shows at the date in an element with a name. -/
def leafClock? (name : Text) (e : Element) : Option Clock := (leafText? name e).bind Clock.read?

/-- What an element says of an item. -/
def readItem? : Element → Option ItemView
  | .node name _ [title, description, link, guid, date] =>
    if name = "item".toList then do
      let title ← leafText? "title".toList title
      let description ← leafText? "description".toList description
      let link ← leafText? "link".toList link
      let guid ← leafText? "guid".toList guid
      let date ← leafClock? "pubDate".toList date
      return ⟨title, description, link, guid, date⟩
    else none
  | _ => none

/-- What an element says of a feed. -/
def readChannel? : Element → Option View
  | .node name _ (title :: description :: link :: generator :: built :: published :: items) =>
    if name = "channel".toList then do
      let title ← leafText? "title".toList title
      let description ← leafText? "description".toList description
      let link ← leafText? "link".toList link
      let _ ← leafText? "generator".toList generator
      let built ← leafClock? "lastBuildDate".toList built
      let published ← leafClock? "pubDate".toList published
      let items ← items.mapM readItem?
      return ⟨title, description, link, built, published, items⟩
    else none
  | _ => none

/-- What a document says of a feed. -/
def read? (s : Text) : Option View :=
  match Xml.read? s with
  | some (.node name _ [channel]) => if name = "rss".toList then readChannel? channel else none
  | _ => none

/-! ### The document of a feed -/

/-- The root element of the document of a feed. -/
def element (f : Feed) : Element :=
  .node "rss".toList [("version".toList, "2.0".toList)] [f.channel]

theorem toXml_eq (f : Feed) : f.toXml = Xml.document f.element := rfl

theorem isReadable_leaf {name : Text} (h : Xml.isName name = true) (content : Text) :
    (leaf name content).IsReadable :=
  .leaf h (List.forall_mem_nil _)

theorem Item.isReadable_element (i : Item) : i.element.IsReadable := by
  refine .node (by decide) (List.forall_mem_nil _) (List.cons_ne_nil _ _) ?_
  simp only [List.mem_cons, List.not_mem_nil, or_false]
  rintro e (rfl | rfl | rfl | rfl | rfl)
  · exact isReadable_leaf (by decide) _
  · exact isReadable_leaf (by decide) _
  · exact isReadable_leaf (by decide) _
  · exact .leaf (by decide) (by decide)
  · exact isReadable_leaf (by decide) _

theorem isReadable_channel (f : Feed) : f.channel.IsReadable := by
  refine .node (by decide) (List.forall_mem_nil _) (List.cons_ne_nil _ _) ?_
  simp only [List.mem_append, List.mem_cons, List.not_mem_nil, or_false, List.mem_map]
  rintro e ((rfl | rfl | rfl | rfl | rfl | rfl) | ⟨i, -, rfl⟩)
  · exact isReadable_leaf (by decide) _
  · exact isReadable_leaf (by decide) _
  · exact isReadable_leaf (by decide) _
  · exact isReadable_leaf (by decide) _
  · exact isReadable_leaf (by decide) _
  · exact isReadable_leaf (by decide) _
  · exact i.isReadable_element

theorem isReadable_element (f : Feed) : f.element.IsReadable := by
  refine .node (by decide) (by decide) (List.cons_ne_nil _ _) fun e he => ?_
  rw [List.mem_singleton.1 he]
  exact f.isReadable_channel

/-! ### The document read back -/

theorem leafText?_leaf (name content : Text) : leafText? name (leaf name content) = some content :=
  if_pos rfl

theorem leafClock?_leaf (name : Text) (i : Instant) :
    leafClock? name (leaf name i.mailText) = some i.clock := by
  rw [leafClock?, leafText?_leaf, Option.bind_some, Clock.read?_mailText]

theorem Item.readItem?_element (i : Item) : readItem? i.element = some i.view := by
  rw [Item.element, readItem?, if_pos rfl]
  simp only [leafText?_leaf, leafClock?_leaf, Option.bind_eq_bind, Option.bind_some]
  rfl

theorem readChannel?_channel (f : Feed) : readChannel? f.channel = some f.view := by
  have hitems : (f.items.map Item.element).mapM readItem? = some (f.items.map Item.view) :=
    mapM_map_eq_some fun i _ => i.readItem?_element
  rw [channel]
  simp only [List.cons_append, List.nil_append]
  rw [readChannel?, if_pos rfl]
  simp only [leafText?_leaf, leafClock?_leaf, hitems, Option.bind_eq_bind, Option.bind_some]
  rfl

/-- **The document of a feed is read back** as what the feed says. -/
theorem read?_toXml (f : Feed) : read? f.toXml = some f.view := by
  rw [read?, toXml_eq, Xml.read?_document f.isReadable_element, element]
  dsimp only
  rw [if_pos rfl, readChannel?_channel]

/-! ### The tags of a document -/

/-- The tags of an element without attributes that holds a text. -/
def leafTags (name : Text) : List Tag := [.opens name [], .closes name]

/-- The tags of an item. -/
def itemTags : List Tag :=
  .opens "item".toList [] ::
    (leafTags "title".toList ++ leafTags "description".toList ++ leafTags "link".toList ++
      [.opens "guid".toList [("isPermaLink".toList, "true".toList)], .closes "guid".toList] ++
      leafTags "pubDate".toList ++ [.closes "item".toList])

/-- The tags of a document with a number of items. -/
def tags (items : Nat) : List Tag :=
  [.opens "rss".toList [("version".toList, "2.0".toList)], .opens "channel".toList []] ++
    leafTags "title".toList ++ leafTags "description".toList ++ leafTags "link".toList ++
    leafTags "generator".toList ++ leafTags "lastBuildDate".toList ++ leafTags "pubDate".toList ++
    (List.replicate items itemTags).flatten ++ [.closes "channel".toList, .closes "rss".toList]

theorem tagsWithin_items (items : List Item) :
    Xml.tagsWithin (items.map Item.element) = (List.replicate items.length itemTags).flatten := by
  induction items with
  | nil => rfl
  | cons i items ih =>
    rw [List.map_cons, Xml.tagsWithin, ih]
    rfl

theorem tags_element (f : Feed) : f.element.tags = tags f.items.length := by
  have hchannel : f.channel.tags = .opens "channel".toList [] :: (leafTags "title".toList ++
      leafTags "description".toList ++ leafTags "link".toList ++ leafTags "generator".toList ++
      leafTags "lastBuildDate".toList ++ leafTags "pubDate".toList ++
      (List.replicate f.items.length itemTags).flatten ++ [.closes "channel".toList]) := by
    rw [← tagsWithin_items]
    rfl
  rw [element, Xml.Element.tags, Xml.tagsWithin, Xml.tagsWithin, hchannel, tags]
  simp

/-- **The tags of a document depend on the number of items alone.** -/
theorem tags?_toXml (f : Feed) : Xml.tags? f.toXml = some (tags f.items.length) := by
  rw [toXml_eq, Xml.tags?_document f.isReadable_element, tags_element]

/-! ### Feeds with the same document -/

theorem Item.element_eq {i j : Item} (h : i.view = j.view) : i.element = j.element := by
  obtain ⟨htitle, hdescription, hlink, -, hdate⟩ := ItemView.mk.inj h
  rw [element, element, htitle, hdescription, hlink, Instant.mailText_eq_iff.2 hdate]

theorem map_element_eq {xs ys : List Item} (h : xs.map Item.view = ys.map Item.view) :
    xs.map Item.element = ys.map Item.element := by
  induction xs generalizing ys with
  | nil =>
    rw [List.map_eq_nil_iff.1 h.symm]
  | cons x xs ih =>
    obtain ⟨y, rest, rfl, hy, hrest⟩ := List.map_eq_cons_iff.1 h.symm
    rw [List.map_cons, List.map_cons, ih hrest.symm, Item.element_eq hy]

/-- **Feeds have the same document exactly if they say the same.** -/
theorem toXml_eq_iff {f g : Feed} : f.toXml = g.toXml ↔ f.view = g.view := by
  constructor
  · intro h
    have hread := read?_toXml f
    rw [h, read?_toXml] at hread
    exact (Option.some.inj hread).symm
  · intro h
    obtain ⟨htitle, hdescription, hlink, hbuilt, -, hitems⟩ := View.mk.inj h
    rw [toXml_eq, toXml_eq, element, element, channel, channel, htitle, hdescription, hlink,
      Instant.mailText_eq_iff.2 hbuilt, map_element_eq hitems]

/-! ### Feeds to the second -/

/-- An item without the fraction of a second in its date. -/
def Item.toSeconds (i : Item) : Item := { i with date := i.date.wholeSecond }

/-- A feed without the fractions of a second in its dates. -/
def toSeconds (f : Feed) : Feed :=
  { f with buildDate := f.buildDate.wholeSecond, items := f.items.map Item.toSeconds }

/-- The item that a document speaks of. -/
def ItemView.item (v : ItemView) : Item := ⟨v.title, v.description, v.link, v.date.instant⟩

/-- The feed that a document speaks of. -/
def View.feed (v : View) : Feed :=
  ⟨v.title, v.description, v.link, v.built.instant, v.items.map ItemView.item⟩

/-- The dates of a feed are proper instants. -/
structure IsDated (f : Feed) : Prop where
  buildDate : f.buildDate.IsProper
  items : ∀ i ∈ f.items, i.date.IsProper

theorem Item.item_view {i : Item} (h : i.date.IsProper) : i.view.item = i.toSeconds := by
  rw [ItemView.item, Item.view, Item.toSeconds, Instant.instant_clock h]

/-- **What a document says makes up the feed again**, to the second. -/
theorem feed_view {f : Feed} (h : f.IsDated) : f.view.feed = f.toSeconds := by
  have hitems : (f.items.map Item.view).map ItemView.item = f.items.map Item.toSeconds := by
    rw [List.map_map]
    exact List.map_congr_left fun i hi => Item.item_view (h.items i hi)
  rw [View.feed, view, toSeconds, hitems, Instant.instant_clock h.buildDate]

theorem view_toSeconds (f : Feed) : f.toSeconds.view = f.view := by
  have hitem (i : Item) : i.toSeconds.view = i.view := by
    rw [Item.view, Item.view, Item.toSeconds, Instant.clock_wholeSecond]
  have hitems : (f.items.map Item.toSeconds).map Item.view = f.items.map Item.view := by
    rw [List.map_map]
    exact List.map_congr_left fun i _ => hitem i
  rw [view, view, toSeconds, hitems, Instant.clock_wholeSecond]

/-- Feeds say the same exactly if they differ in fractions of a second at most. -/
theorem view_eq_iff {f g : Feed} (hf : f.IsDated) (hg : g.IsDated) :
    f.view = g.view ↔ f.toSeconds = g.toSeconds := by
  constructor
  · intro h
    rw [← feed_view hf, ← feed_view hg, h]
  · intro h
    rw [← view_toSeconds f, ← view_toSeconds g, h]

/-- **A feed document carries its data.** Read as XML, the document of a feed is one element with
the texts of the feed in it. What it says of the channel and of each item, in their order, is what
the feed says, its dates to the second. Which tags it has, and in which order, follows from the
number of items, whatever the texts are. Feeds have the same document exactly if they say the same;
where their dates are proper instants, what they say makes up the feeds again, so that they differ
in nothing but fractions of a second. -/
theorem document_carries_its_data (f : Feed) :
    Xml.read? f.toXml = some f.element ∧ read? f.toXml = some f.view ∧
      Xml.tags? f.toXml = some (tags f.items.length) ∧
      (∀ g : Feed, f.toXml = g.toXml ↔ f.view = g.view) ∧
      (f.IsDated → f.view.feed = f.toSeconds ∧
        ∀ g : Feed, g.IsDated → (f.toXml = g.toXml ↔ f.toSeconds = g.toSeconds)) :=
  ⟨Xml.read?_document f.isReadable_element, f.read?_toXml, f.tags?_toXml,
    fun _ => toXml_eq_iff, fun hf => ⟨feed_view hf, fun _ hg =>
      toXml_eq_iff.trans (view_eq_iff hf hg)⟩⟩

/-- A feed that is built in a leap second, with an article whose title looks like a tag. -/
def leapFeed : Feed where
  title := "A & B".toList
  description := "  \n".toList
  siteUrl := "https://example.org/".toList
  buildDate := ⟨1483228799, 1000000000⟩
  items := [⟨"</title><item>".toList, "&lt;".toList, "https://example.org/a".toList, ⟨0, 5⟩⟩]

/-- The feed has the document of the same feed, half a second later, and one item with the title
that looks like a tag is read back. -/
theorem document_carries_its_data_leap :
    let later : Feed := { leapFeed with buildDate := ⟨1483228799, 1500000000⟩ }
    leapFeed.IsDated ∧ later.IsDated ∧ leapFeed ≠ later ∧ leapFeed.toXml = later.toXml ∧
      Xml.tags? leapFeed.toXml = some (tags 1) ∧
      ∃ v, read? leapFeed.toXml = some v ∧ v.feed = leapFeed.toSeconds ∧
        v.items.map ItemView.title = ["</title><item>".toList] := by
  intro later
  have hdated : leapFeed.IsDated :=
    ⟨⟨by decide, by decide⟩, List.forall_mem_singleton.2 ⟨by decide, by decide⟩⟩
  have hlater : later.IsDated := ⟨⟨by decide, by decide⟩, hdated.items⟩
  obtain ⟨-, hread, htags, -, hdates⟩ := document_carries_its_data leapFeed
  obtain ⟨hfeed, hsame⟩ := hdates hdated
  have hseconds : leapFeed.toSeconds = later.toSeconds := by decide
  exact ⟨hdated, hlater, by decide, (hsame later hlater).2 hseconds, htags, _, hread, hfeed, rfl⟩

end Feed

end DocSite
