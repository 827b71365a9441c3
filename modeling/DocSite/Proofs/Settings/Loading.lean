import DocSite.Proofs.Table
import DocSite.Proofs.Text.Numerals
import DocSite.Settings.Load
import DocSite.Site.News
import Mathlib.Data.List.Basic
import Mathlib.Tactic.SplitIfs

/-!
# Loaded settings

Settings are checked where they come from a file, and once more when settings given with a command
take the place of some of them; settings that come from nowhere have nothing to check. So what is
loaded is always usable (`Settings.isUsable_of_load`), and the macros, which read the number of
articles again from its text, find a number there whenever they find a text.

* `Settings.IsUsable` : what the settings for a run may say.
* `Settings.check_eq_ok_iff` : it is what is checked.
* `Settings.exists_of_settings`, `Settings.exists_of_loadFile` : what is loaded from a file.
* `Settings.find?_documentAttributes` : the macros see the attributes of the site.
* `Settings.loaded_settings_are_usable` : what is loaded, and how many articles macros list by it.
-/

namespace DocSite

theorem bind_eq_ok_iff {ε α β : Type} {x : Except ε α} {f : α → Except ε β} {b : β} :
    x >>= f = .ok b ↔ ∃ a, x = .ok a ∧ f a = .ok b := by
  cases x with
  | error e =>
    constructor
    · intro h
      cases h
    · rintro ⟨a, h, -⟩
      cases h
  | ok a =>
    constructor
    · exact fun h => ⟨a, rfl, h⟩
    · rintro ⟨a', h, hf⟩
      obtain rfl := Except.ok.inj h
      exact hf

namespace Settings

variable {s s' : Settings}

/-- What the settings for a run may say: a URL of one of the two schemes, and a number of articles
that is one. -/
structure IsUsable (s : Settings) : Prop where
  url : ∀ url, s.url? = some url → isWebUrl url = true
  maxItems : ∀ value, s.attributes.find? maxItemsAttribute = some value → isCount value = true

theorem check_eq_ok_iff : s.check = .ok () ↔ s.IsUsable := by
  have hurl : s.url?.all isWebUrl = true ↔ ∀ url, s.url? = some url → isWebUrl url = true := by
    cases s.url? <;> simp
  unfold check
  by_cases hall : s.url?.all isWebUrl = true
  · rw [hall]
    cases hvalue : s.attributes.find? maxItemsAttribute with
    | none =>
      have husable : s.IsUsable := ⟨hurl.1 hall, by simp [hvalue]⟩
      simp [husable]
    | some value =>
      constructor
      · intro h
        refine ⟨hurl.1 hall, fun v hv => ?_⟩
        obtain rfl := Option.some.inj (hvalue ▸ hv)
        by_contra hcount
        simp [hcount] at h
      · intro h
        simp [h.maxItems value hvalue]
  · rw [eq_false_of_ne_true hall]
    constructor
    · intro h
      cases h
    · intro h
      exact absurd (hurl.2 h.url) hall

/-! ### Where settings come from -/

section

variable {f : File} {value? : Text → Option Text} {source : Path}

/-- What a file gives: its fields and attributes with their references replaced, its paths taken
from its directory, and nothing that is not checked. -/
theorem exists_of_settings (h : f.settings value? source = .ok s) :
    ∃ title? url? attributes,
      File.expandField value? "site.title".toList f.title? = .ok title? ∧
      File.expandField value? "site.url".toList f.url? = .ok url? ∧
      (f.attributes.mapM fun (name, a) => do
        return (name, ← File.expandAttribute value? name a)) = .ok attributes ∧
      s.check = .ok () ∧
      s = {
        title?, url?, attributes
        catalog? := f.catalog?.map (File.directory source).join
        outputDirectory :=
          (File.directory source).join (f.outputDirectory?.getD File.defaultOutput)
        source? := some source } := by
  obtain ⟨title?, htitle, h⟩ := bind_eq_ok_iff.1 h
  obtain ⟨url?, hurl, h⟩ := bind_eq_ok_iff.1 h
  obtain ⟨attributes, hattributes, h⟩ := bind_eq_ok_iff.1 h
  obtain ⟨_, hcheck, h⟩ := bind_eq_ok_iff.1 h
  obtain rfl := Except.ok.inj h
  exact ⟨title?, url?, attributes, htitle, hurl, hattributes, hcheck, rfl⟩

theorem isUsable_of_settings (h : f.settings value? source = .ok s) : s.IsUsable := by
  obtain ⟨_, _, _, -, -, -, hcheck, -⟩ := exists_of_settings h
  exact check_eq_ok_iff.1 hcheck

end

variable {surroundings : Surroundings Id}

theorem isUsable_withoutFile : (withoutFile surroundings).IsUsable := ⟨nofun, nofun⟩

theorem loadFile_eq (surroundings : Surroundings Id) (path : Path) :
    loadFile surroundings path =
      match (surroundings.readText path : Except FileError Text) with
      | .error cause => (.error (.file cause) : Except SettingsError Settings)
      | .ok contents =>
        match File.read? contents with
        | none => .error .malformed
        | some f => f.settings surroundings.valueOf? path := rfl

/-- Settings that are loaded from a path come from the text there. -/
theorem exists_of_loadFile {path : Path} (h : loadFile surroundings path = .ok s) :
    ∃ contents f, @Eq (Except FileError Text) (surroundings.readText path) (.ok contents) ∧
      File.read? contents = some f ∧ f.settings surroundings.valueOf? path = .ok s := by
  rw [loadFile_eq] at h
  split at h
  · cases h
  · rename_i contents hread
    split at h
    · cases h
    · exact ⟨contents, _, hread, ‹_›, h⟩

theorem isUsable_of_loadFile {path : Path} (h : loadFile surroundings path = .ok s) :
    s.IsUsable := by
  obtain ⟨_, _, -, -, hsettings⟩ := exists_of_loadFile h
  exact isUsable_of_settings hsettings

theorem loadBase_eq (surroundings : Surroundings Id) (path? : Option Path) :
    loadBase surroundings path? =
      match path? with
      | some path =>
        if (show Bool from surroundings.pathExists path) = true then loadFile surroundings path
        else (.error (.notFound path) : Except SettingsError Settings)
      | none =>
        match (discover? surroundings : Option Path) with
        | some path => loadFile surroundings path
        | none => .ok (withoutFile surroundings) := by
  cases path? <;> rfl

theorem loadFile_of_loadBase {path : Path} (h : loadBase surroundings (some path) = .ok s) :
    loadFile surroundings path = .ok s := by
  rw [loadBase_eq] at h
  dsimp only at h
  split at h
  · exact h
  · cases h

/-- Settings without those given with a command are usable, wherever they come from. -/
theorem isUsable_of_loadBase {path? : Option Path}
    (h : loadBase surroundings path? = .ok s) : s.IsUsable := by
  cases path? with
  | some path => exact isUsable_of_loadFile (loadFile_of_loadBase h)
  | none =>
    rw [loadBase_eq] at h
    dsimp only at h
    split at h
    · exact isUsable_of_loadFile h
    · obtain rfl := Except.ok.inj h
      exact isUsable_withoutFile

/-- Settings given with a command leave usable settings, or there are none. -/
theorem IsUsable.finish {overrides? : Option Overrides} (hs : s.IsUsable)
    (h : s.finish overrides? = .ok s') : s'.IsUsable := by
  cases overrides? with
  | none =>
    obtain rfl := Except.ok.inj h
    exact hs
  | some o =>
    obtain ⟨_, hcheck, h⟩ := bind_eq_ok_iff.1 h
    obtain rfl := Except.ok.inj h
    exact check_eq_ok_iff.1 hcheck

theorem load_eq_ok_iff {path? : Option Path} {overrides? : Option Overrides} :
    load surroundings path? overrides? = .ok s ↔
      ∃ base, loadBase surroundings path? = .ok base ∧ base.finish overrides? = .ok s :=
  bind_eq_ok_iff (x := (loadBase surroundings path? : Except SettingsError Settings))

/-- **What is loaded is usable.** -/
theorem isUsable_of_load {path? : Option Path} {overrides? : Option Overrides}
    (h : load surroundings path? overrides? = .ok s) : s.IsUsable := by
  obtain ⟨base, hbase, hfinish⟩ := load_eq_ok_iff.1 h
  exact (isUsable_of_loadBase hbase).finish hfinish

/-! ### What macros see -/

theorem find?_addMissing_of_ne {name other : Text} (h : other ≠ name) (t : Table Text)
    (value? : Option Text) : (addMissing t name value?).find? other = t.find? other := by
  unfold addMissing
  split
  · exact Table.find?_insert_of_ne h t _
  · rfl

/-- Of the attributes of the site, the macros see all but its URL and title as they are. -/
theorem find?_documentAttributes {name : Text} (hurl : name ≠ "site-url".toList)
    (htitle : name ≠ "site-title".toList) :
    s.documentAttributes.find? name = s.attributes.find? name := by
  rw [documentAttributes, find?_addMissing_of_ne htitle, find?_addMissing_of_ne hurl]

/-- **Loaded settings are usable.** Settings that are loaded, from a file or from none and with
others in their place or without, have no URL or one of the two schemes, and no number of articles
or a text that is one. Macros that are given their attributes list exactly that many articles, and
the number that is meant where nothing is said only if there is no such attribute. -/
theorem loaded_settings_are_usable (surroundings : Surroundings Id) (path? : Option Path)
    (overrides? : Option Overrides) (settings : Settings)
    (h : load surroundings path? overrides? = .ok settings) :
    (∀ url, settings.url? = some url →
        "http://".toList <+: url ∨ "https://".toList <+: url) ∧
      ∀ scope : Scope, scope.attributes = settings.documentAttributes →
        (settings.attributes.find? "news-feed-max-items".toList = none ∧
          News.maxItems scope = 20) ∨
        ∃ value n, settings.attributes.find? "news-feed-max-items".toList = some value ∧
          Text.WritesWord value.trim n ∧ News.maxItems scope = n ∧
          ∀ summaries, News.listed scope summaries = summaries.take n := by
  have husable := isUsable_of_load h
  constructor
  · intro url hsome
    have hweb := husable.url url hsome
    simpa [isWebUrl, List.isPrefixOf_iff_prefix] using hweb
  · intro scope hscope
    have hattribute : scope.attribute? News.maxItemsAttribute =
        settings.attributes.find? maxItemsAttribute := by
      rw [Scope.attribute?, hscope]
      exact find?_documentAttributes (by decide) (by decide)
    cases hvalue : settings.attributes.find? maxItemsAttribute with
    | none =>
      refine .inl ⟨hvalue, ?_⟩
      rw [News.maxItems, hattribute, hvalue]
      rfl
    | some value =>
      obtain ⟨n, hn⟩ := Option.isSome_iff_exists.1 (husable.maxItems value hvalue)
      have hmax : News.maxItems scope = n := by
        rw [News.maxItems, hattribute, hvalue, Option.bind_some, hn]
        rfl
      exact .inr ⟨value, n, hvalue, Text.toWord?_eq_some_iff.1 hn, hmax,
        fun summaries => by rw [News.listed, hmax]⟩

/-- A file asks for seven articles, with blanks around the number, and a command gives the URL. -/
theorem loaded_settings_are_usable_seven :
    let path : Path := "/docs/folio.toml".toList
    let surroundings : Surroundings Id :=
      { workingDirectory := "/docs".toList
        valueOf? := fun _ => none
        pathExists := (· == path)
        readText := fun _ => .ok
          "[site]\nurl = 'http://a.example'\n[attributes]\nnews-feed-max-items = ' 7 '".toList }
    let overrides : Overrides := { url? := some "https://b.example".toList }
    let settings : Settings :=
      { url? := some "https://b.example".toList
        attributes := [("news-feed-max-items".toList, " 7 ".toList)]
        outputDirectory := "/docs/build/site".toList
        source? := some path }
    load surroundings (some path) (some overrides) = .ok settings ∧
      "https://".toList <+: "https://b.example".toList ∧
      ∀ scope : Scope, scope.attributes = settings.documentAttributes →
        News.maxItems scope = 7 ∧ ∀ summaries, News.listed scope summaries = summaries.take 7 := by
  intro path surroundings overrides settings
  have hload : @Eq (Except SettingsError Settings)
      (load surroundings (some path) (some overrides)) (.ok settings) := by
    decide +kernel
  obtain ⟨hurl, hlimit⟩ := loaded_settings_are_usable surroundings _ _ settings hload
  refine ⟨hload, (hurl _ rfl).resolve_left (by decide), fun scope hscope => ?_⟩
  rcases hlimit scope hscope with ⟨hnone, -⟩ | ⟨value, n, hvalue, hn, hmax, hlisted⟩
  · exact absurd hnone (by decide)
  · have hseven : Text.toWord? (Text.trim " 7 ".toList) = some 7 := by decide
    obtain rfl : " 7 ".toList = value := Option.some.inj hvalue
    obtain rfl : 7 = n := Option.some.inj (hseven.symm.trans (Text.toWord?_eq_some_iff.2 hn))
    exact ⟨hmax, hlisted⟩

end Settings

end DocSite
