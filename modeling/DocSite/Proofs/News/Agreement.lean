import DocSite.Proofs.Catalog.Registration
import DocSite.Proofs.News.FeedDocument
import DocSite.Proofs.News.Sections
import DocSite.Proofs.News.Summaries
import DocSite.Proofs.Text.Ends
import DocSite.Site.News

/-!
# Listing and feed agree

`News.generate` makes two things of the articles that a glob selects: a listing and a feed. The feed
finds each article again by the cross reference of its summary. Where no two files share a location
and the locations of the selected files can be spelled out, it finds the article itself, so that an
item of the feed carries the URL of the file that its title, summary and date are taken from.

* `News.Lists` : the articles that are listed.
* `News.IsItemOf` : the item of an article that is published.
* `News.item?_cases` : an article is found again.
* `News.listing_and_feed_agree` : the listing has one section for each listed article, the feed one
  item for each of them that is published, both in the same order.
-/

namespace DocSite

namespace Url

/-- `url` is the address of a path on a site: the site and the path with one slash between them. -/
def IsOnSite (site path url : Text) : Prop :=
  ∃ base rest, Text.WithoutEnding '/' site base ∧ Text.WithoutBeginning '/' path rest ∧
    url = base ++ '/' :: rest

theorem isOnSite_absolute (site path : Text) : IsOnSite site path (absolute site path) :=
  ⟨_, _, Text.withoutEnding_dropEndWhile '/' site, Text.withoutBeginning_dropWhile '/' path, rfl⟩

end Url

namespace News

/-- The item of an article, a file with its summary, on the site: it has the address of that same
file. -/
structure IsItemOf (scope : Scope) (a : Entry × Summary) (i : Feed.Item) : Prop where
  title : i.title = a.2.title
  description : i.description = a.2.text
  date : i.date = a.2.date
  url : ∃ p, a.1.publication? = some p ∧
    Url.IsOnSite ((scope.attributes.find? "site-url".toList).getD []) p.url i.url

/-- The feed finds an article again by its cross reference. -/
theorem item?_cases {scope : Scope} {c : Catalog} {a : Entry × Summary} (hc : c.Distinct)
    (ha : a.1 ∈ c.files) (haddr : a.1.location.Addressable)
    (hs : Summary.Describes scope.location a.1 a.2) :
    (a.1.publication?.isSome = false ∧ item? scope c a.2 = none) ∨
      a.1.publication?.isSome = true ∧ ∃ i, item? scope c a.2 = some i ∧ IsItemOf scope a i := by
  unfold item?
  rw [hs.xref, Catalog.resolvePage?_xrefFrom hc ha haddr]
  cases hpub : a.1.publication? with
  | none => exact .inl ⟨rfl, by simp [hpub]⟩
  | some p =>
    simp only [Option.bind_eq_bind, Option.bind_some, hpub]
    exact .inr ⟨rfl, _, rfl, rfl, rfl, rfl, p, hpub, Url.isOnSite_absolute _ _⟩

theorem forall₂_items {scope : Scope} {c : Catalog} {articles : List (Entry × Summary)}
    (hc : c.Distinct)
    (h : ∀ a ∈ articles, a.1 ∈ c.files ∧ a.1.location.Addressable ∧
      Summary.Describes scope.location a.1 a.2) :
    List.Forall₂ (IsItemOf scope) (articles.filter fun a => a.1.publication?.isSome)
      (articles.filterMap fun a => item? scope c a.2) := by
  induction articles with
  | nil => exact .nil
  | cons a articles ih =>
    obtain ⟨⟨hmem, haddr, hsummary⟩, hrest⟩ := List.forall_mem_cons.1 h
    simp only [List.filter_cons, List.filterMap_cons]
    rcases item?_cases hc hmem haddr hsummary with ⟨hpub, hitem⟩ | ⟨hpub, i, hitem, hi⟩
    · simpa only [hpub, hitem, Bool.false_eq_true, if_false] using ih hrest
    · simpa only [hpub, hitem, if_true] using .cons hi (ih hrest)

theorem generate_eq_ok {scope : Scope} {c c' : Catalog} {glob listing : Text} {level : Nat}
    (h : generate scope c glob level = .ok (listing, c')) :
    ∃ summaries, Summary.list (c.select glob scope.location) scope.location = .ok summaries ∧
      c.add (feedEntry scope (feed scope c summaries)) = .ok c' ∧
      listing = Listing.render level (listed scope summaries) := by
  unfold generate at h
  cases hlist : Summary.list (c.select glob scope.location) scope.location with
  | error e => rw [hlist] at h; cases h
  | ok summaries =>
    rw [hlist] at h
    cases hadd : c.add (feedEntry scope (feed scope c summaries)) with
    | error e => simp only [bind, Except.bind, hadd] at h; cases h
    | ok c'' =>
      simp only [bind, Except.bind, hadd, Except.ok.injEq, Prod.mk.injEq] at h
      obtain ⟨rfl, rfl⟩ := h
      exact ⟨summaries, rfl, hadd, rfl⟩

/-- `articles` are those that are listed of `files`: each file with its own summary, the newest
first and files of one date in the order in which they come, up to the limit. -/
def Lists (scope : Scope) (files : List Entry) (articles : List (Entry × Summary)) : Prop :=
  ∃ all sorted : List (Entry × Summary),
    all.map Prod.fst = files ∧ (∀ a ∈ all, Summary.Describes scope.location a.1 a.2) ∧
      NewestFirst Summary.dateOf all sorted ∧ articles = sorted.take (maxItems scope)

theorem Lists.mem_files {scope : Scope} {files : List Entry} {articles : List (Entry × Summary)}
    (h : Lists scope files articles) {a : Entry × Summary} (ha : a ∈ articles) :
    a.1 ∈ files ∧ Summary.Describes scope.location a.1 a.2 := by
  obtain ⟨all, sorted, rfl, hall, hsorted, rfl⟩ := h
  have hmem : a ∈ all := hsorted.perm.subset (List.mem_of_mem_take ha)
  exact ⟨List.mem_map_of_mem hmem, hall a hmem⟩

theorem exists_lists {scope : Scope} {files : List Entry} {summaries : List Summary}
    (h : Summary.list files scope.location = .ok summaries) :
    ∃ articles, Lists scope files articles ∧ listed scope summaries = articles.map Prod.snd := by
  obtain ⟨all, sorted, hfst, hall, hsorted, rfl⟩ := Summary.exists_of_list h
  exact ⟨_, ⟨all, sorted, hfst, fun a ha => Summary.describes_of_ofEntry (hall a ha), hsorted, rfl⟩,
    List.map_take.symm⟩

/-- The lines about an article in a listing. -/
def sectionLines (level : Nat) (s : Summary) : List Text :=
  [Listing.heading level s, [], "[.news-date]".toList, s.date.dayText, [],
    "[.news-summary]".toList, s.text]

theorem flatMap_sectionLines (level : Nat) (s : Summary) :
    (sectionLines level s).flatMap (· ++ ['\n']) = Listing.entry level s := by
  simp [sectionLines, Listing.heading, Listing.entry]

/-- **Listing and feed agree.** The listing has one section for each listed article, in their order.
The feed that is registered has, in the same order, one item for each of them that is published,
with the URL of that same file; and what its document says, read as XML, are these items. -/
theorem listing_and_feed_agree {scope : Scope} {c c' : Catalog} {glob listing : Text} {level : Nat}
    (hc : c.Distinct)
    (haddr : ∀ e ∈ c.select glob scope.location, e.location.Addressable)
    (h : generate scope c glob level = .ok (listing, c')) :
    ∃ (articles : List (Entry × Summary)) (f : Feed),
      Lists scope (c.select glob scope.location) articles ∧
      listing = ['\n'].intercalate
        (articles.map fun a => (sectionLines level a.2).flatMap (· ++ ['\n'])) ∧
      List.Forall₂ (IsItemOf scope) (articles.filter fun a => a.1.publication?.isSome) f.items ∧
      Feed.read? (feedEntry scope f).contents = some f.view ∧
      c'.files = c.files ++ [feedEntry scope f] ∧
      c'.added = c.added ++ [feedEntry scope f] := by
  obtain ⟨summaries, hlist, hadd, rfl⟩ := generate_eq_ok h
  obtain ⟨articles, harticles, hlisted⟩ := exists_lists hlist
  obtain rfl := Catalog.eq_of_add hadd
  refine ⟨articles, feed scope c summaries, harticles, ?_, ?_, Feed.read?_toXml _, rfl, rfl⟩
  · simp only [flatMap_sectionLines, hlisted, Listing.render, List.map_map]
    rfl
  · have hitems : (feed scope c summaries).items =
        articles.filterMap fun a => item? scope c a.2 := by
      simp only [feed, hlisted, List.filterMap_map]
      rfl
    rw [hitems]
    refine forall₂_items hc fun a ha => ?_
    obtain ⟨hselected, hsummary⟩ := harticles.mem_files ha
    exact ⟨Catalog.mem_files_of_mem_select hselected, haddr _ hselected, hsummary⟩

/-- A page below the root module of a component. -/
def samplePage (path contents : Text) (url? : Option Text) : Entry where
  source :=
    { component := "docs".toList, version := "1.0".toList, module := "ROOT".toList
      family := .page, relative := path }
  contents := contents
  publication? := url?.map fun url => { url, moduleRoot := ['.'] }

/-- A page with a listing and three articles, two of one date, of which one is not published. -/
def sampleCatalog : Catalog where
  files :=
    [samplePage "news.adoc".toList [] (some "/docs/news.html".toList),
     samplePage "news/old.adoc".toList "= Old\n:page-publish_date: 2023-01-01\n\nOld.".toList
       (some "/docs/news/old.html".toList),
     samplePage "news/draft.adoc".toList "= Draft\n:page-publish_date: 2024-06-01\n\nSoon.".toList
       none,
     samplePage "news/new.adoc".toList "= New\n:page-publish_date: 2024-06-01\n\nNew.".toList
       (some "/docs/news/new.html".toList)]

/-- The page with the listing, on a site that lists two articles. -/
def sampleScope : Scope where
  file := samplePage "news.adoc".toList [] (some "/docs/news.html".toList)
  attributes := [("news-feed-max-items".toList, ['2'])]
  buildDate := ⟨0, 0⟩

/-- Two articles of three are listed, of which one is not published. -/
theorem listing_and_feed_agree_two_of_three :
    sampleCatalog.Distinct ∧
      (∀ e ∈ sampleCatalog.select "news/*".toList sampleScope.location, e.location.Addressable) ∧
      ∃ listing c', generate sampleScope sampleCatalog "news/*".toList 1 = .ok (listing, c') ∧
        ∃ (articles : List (Entry × Summary)) (f : Feed),
          Lists sampleScope (sampleCatalog.select "news/*".toList sampleScope.location) articles ∧
          listing = ['\n'].intercalate
            (articles.map fun a => (sectionLines 1 a.2).flatMap (· ++ ['\n'])) ∧
          List.Forall₂ (IsItemOf sampleScope) (articles.filter fun a => a.1.publication?.isSome)
            f.items ∧
          Feed.read? (feedEntry sampleScope f).contents = some f.view ∧
          c'.files = sampleCatalog.files ++ [feedEntry sampleScope f] ∧
          c'.added = sampleCatalog.added ++ [feedEntry sampleScope f] := by
  have hc : sampleCatalog.Distinct := by decide +kernel
  have haddr : ∀ e ∈ sampleCatalog.select "news/*".toList sampleScope.location,
      e.location.Addressable := by decide +kernel
  have hok : (generate sampleScope sampleCatalog "news/*".toList 1).isOk = true := by
    decide +kernel
  cases h : generate sampleScope sampleCatalog "news/*".toList 1 with
  | error e => rw [h] at hok; cases hok
  | ok result => exact ⟨hc, haddr, result.1, result.2, rfl, listing_and_feed_agree hc haddr h⟩

end News

end DocSite
