import DocSite.Proofs.Settings.Loading
import DocSite.Proofs.Traversal

/-!
# Which setting counts

A value comes from a command, from an attribute of the settings file, from a field of the file, or
from nowhere. Settings of a command are put over those of the file when these are complete, and the
attributes that macros see are taken from the outcome, where an attribute of the file counts more
than the URL and title of the site.

* `Settings.File.Means` : what a file says once its references are replaced.
* `Settings.Follows` : where each of the loaded settings comes from.
* `Settings.exists_content`, `Settings.Follows.override` : the settings of a file say what the file
  does, and a command takes the place of what it gives.
* `Settings.settings_take_precedence` : both together, with what macros see.
-/

namespace DocSite

namespace Settings

variable {value? : Text → Option Text}

/-! ### What a file says -/

/-- An attribute says a text: its own with the references replaced, its number in decimal digits, or
whether it holds. -/
inductive Attribute.Says (value? : Text → Option Text) : Attribute → Text → Prop
  | text {s t : Text} : Variables.expand value? s = .ok t → Says value? (.text s) t
  | integer (i : Int) : Says value? (.integer i) (Text.ofInt i)
  | yes : Says value? (.boolean true) "true".toList
  | no : Says value? (.boolean false) "false".toList

namespace File

/-- What can be read in a file. -/
structure Content where
  title? : Option Text
  url? : Option Text
  attribute? : Text → Option Text

/-- What a file says once its references are replaced. It has the fields and attributes that are
written in it, and no others. -/
structure Means (f : File) (value? : Text → Option Text) (c : Content) : Prop where
  title : Option.Rel (fun s t => Variables.expand value? s = .ok t) f.title? c.title?
  url : Option.Rel (fun s t => Variables.expand value? s = .ok t) f.url? c.url?
  attributes : ∀ name, Option.Rel (Attribute.Says value?) (f.attributes.find? name)
    (c.attribute? name)

theorem expand_eq_ok {field s t : Text} (h : expand value? field s = .ok t) :
    Variables.expand value? s = .ok t := by
  unfold expand at h
  cases hs : Variables.expand value? s with
  | error name =>
    rw [hs] at h
    cases h
  | ok u =>
    rw [hs] at h
    cases h
    rfl

theorem expandField_eq_ok {field : Text} {s? t? : Option Text}
    (h : expandField value? field s? = .ok t?) :
    Option.Rel (fun s t => Variables.expand value? s = .ok t) s? t? := by
  cases s? with
  | none =>
    obtain rfl := Except.ok.inj h
    exact .none
  | some s =>
    rw [expandField] at h
    cases hs : expand value? field s with
    | error e =>
      rw [hs] at h
      cases h
    | ok t =>
      rw [hs] at h
      obtain rfl := Except.ok.inj h
      exact .some (expand_eq_ok hs)

theorem says_of_expandAttribute {name t : Text} {a : Attribute}
    (h : expandAttribute value? name a = .ok t) : a.Says value? t := by
  match a with
  | .text s => exact .text (expand_eq_ok h)
  | .integer i =>
    obtain rfl := Except.ok.inj h
    exact .integer i
  | .boolean true =>
    obtain rfl := Except.ok.inj h
    exact .yes
  | .boolean false =>
    obtain rfl := Except.ok.inj h
    exact .no

end File

/-! ### Where settings come from -/

/-- Where settings come from that are loaded from a file and with a command: from the command where
it says something, and else from the file, with the paths taken from its directory. -/
structure Follows (s : Settings) (f : File) (c : File.Content) (o : Overrides) (source : Path) :
    Prop where
  title : s.title? = c.title?
  url : s.url? = o.url?.or c.url?
  attributes : ∀ name, s.attributes.find? name = c.attribute? name
  catalog : s.catalog? = o.catalog?.or (f.catalog?.map (File.directory source).join)
  outputDirectory : s.outputDirectory = o.outputDirectory?.getD
    ((File.directory source).join (f.outputDirectory?.getD "build/site".toList))
  source : s.source? = some source

variable {f : File} {c : File.Content} {o : Overrides} {source : Path} {s base : Settings}

/-- **The settings of a file say what the file does.** -/
theorem exists_content (h : f.settings value? source = .ok s) :
    ∃ c : File.Content, f.Means value? c ∧ s.Follows f c {} source := by
  obtain ⟨title?, url?, attributes, htitle, hurl, hattributes, -, rfl⟩ := exists_of_settings h
  obtain ⟨pairs, hrows, rfl, hpairs⟩ := exists_pairs_of_mapM hattributes
  refine ⟨⟨title?, url?, Table.find? (pairs.map Prod.snd)⟩, ⟨File.expandField_eq_ok htitle,
    File.expandField_eq_ok hurl, fun name => ?_⟩, ⟨rfl, rfl, fun _ => rfl, rfl, rfl, rfl⟩⟩
  rw [← hrows]
  refine Table.rel_find? (fun p hp => ?_) name
  obtain ⟨t, ht, heq⟩ := bind_eq_ok_iff.1 (hpairs p hp)
  rw [← Except.ok.inj heq]
  exact ⟨rfl, File.says_of_expandAttribute ht⟩

/-- A command takes the place of what it gives. -/
theorem Follows.override (h : base.Follows f c {} source) (o : Overrides) :
    (base.override o).Follows f c o source where
  title := h.title
  url := congrArg o.url?.or h.url
  attributes := h.attributes
  catalog := congrArg o.catalog?.or h.catalog
  outputDirectory := congrArg o.outputDirectory?.getD h.outputDirectory
  source := h.source

/-! ### What macros see -/

theorem find?_addMissing_self (t : Table Text) (name : Text) (text? : Option Text) :
    (addMissing t name text?).find? name = (t.find? name).or text? := by
  unfold addMissing
  cases hrow : t.find? name with
  | some row => simp [hrow]
  | none =>
    cases text? with
    | none => simp [hrow]
    | some text => simp [Table.find?_insert_self]

/-- The URL that macros see is the attribute of the file, else that of the command, else the field
of the file. -/
theorem Follows.siteUrl (h : s.Follows f c o source) :
    s.documentAttributes.find? "site-url".toList =
      (c.attribute? "site-url".toList).or (o.url?.or c.url?) := by
  have hne : "site-url".toList ≠ "site-title".toList := by decide
  rw [documentAttributes, find?_addMissing_of_ne hne, find?_addMissing_self, h.attributes, h.url]

theorem Follows.siteTitle (h : s.Follows f c o source) :
    s.documentAttributes.find? "site-title".toList =
      (c.attribute? "site-title".toList).or c.title? := by
  have hne : "site-title".toList ≠ "site-url".toList := by decide
  rw [documentAttributes, find?_addMissing_self, find?_addMissing_of_ne hne, h.attributes, h.title]

/-! ### Loading with a command -/

theorem eq_override_of_finish (h : base.finish (some o) = .ok s) : s = base.override o := by
  obtain ⟨_, -, h⟩ := bind_eq_ok_iff.1 h
  exact (Except.ok.inj h).symm

/-- **Each setting has its place in the order of precedence.** Settings that are loaded from a file
at a path and with a command come from a text that is read there. Macros see the URL and the title
of the site as an attribute of the file gives them; else the URL of the command counts, and then the
field of the file. They see every other attribute as the file has it. The catalog and the directory
for output are those of the command, or else those of the file, taken from its directory, which also
has the directory for output that is used if none is given. With another command that can be loaded
the same holds of the same file, and what the two commands agree in stays. -/
theorem settings_take_precedence (surroundings : Surroundings Id) (path : Path) (o : Overrides)
    (s : Settings) (h : load surroundings (some path) (some o) = .ok s) :
    ∃ contents f c,
      @Eq (Except FileError Text) (surroundings.readText path) (.ok contents) ∧
      File.read? contents = some f ∧ f.Means surroundings.valueOf? c ∧
      (s.documentAttributes.find? "site-url".toList =
          (c.attribute? "site-url".toList).or (o.url?.or c.url?) ∧
        s.documentAttributes.find? "site-title".toList =
          (c.attribute? "site-title".toList).or c.title? ∧
        ∀ name, name ≠ "site-url".toList → name ≠ "site-title".toList →
          s.documentAttributes.find? name = c.attribute? name) ∧
      s.Follows f c o path ∧
      ∀ o' s', load surroundings (some path) (some o') = .ok s' →
        s'.Follows f c o' path ∧ s'.attributes = s.attributes ∧
          (o'.url? = o.url? → s'.documentAttributes = s.documentAttributes ∧ s'.url? = s.url?) ∧
          (o'.catalog? = o.catalog? → s'.catalog? = s.catalog?) ∧
          (o'.outputDirectory? = o.outputDirectory? → s'.outputDirectory = s.outputDirectory) := by
  obtain ⟨base, hbase, hfinish⟩ := load_eq_ok_iff.1 h
  obtain rfl := eq_override_of_finish hfinish
  obtain ⟨contents, f, hread, hfile, hsettings⟩ := exists_of_loadFile (loadFile_of_loadBase hbase)
  obtain ⟨c, hmeans, hfollows⟩ := exists_content hsettings
  have hs := hfollows.override o
  refine ⟨contents, f, c, hread, hfile, hmeans, ⟨hs.siteUrl, hs.siteTitle, ?_⟩, hs, ?_⟩
  · intro name hurl htitle
    rw [find?_documentAttributes hurl htitle, hs.attributes]
  · intro o' s' h'
    obtain ⟨base', hbase', hfinish'⟩ := load_eq_ok_iff.1 h'
    obtain rfl := Except.ok.inj (hbase.symm.trans hbase')
    obtain rfl := eq_override_of_finish hfinish'
    refine ⟨hfollows.override o', rfl, fun hurl => ?_, fun hcatalog => ?_, fun houtput => ?_⟩
    · simp only [documentAttributes, Settings.override, hurl, and_self]
    · simp only [Settings.override, hcatalog]
    · simp only [Settings.override, houtput]

/-- The file has an attribute for the URL, which counts more than the field and the command, and a
title from the environment. -/
theorem settings_take_precedence_mirror :
    let path : Path := "/docs/folio.toml".toList
    let contents := "[site]\ntitle = '$\x7bT\x7d'\nurl = 'http://a.example'\n".toList ++
      "[attributes]\nsite-url = 'http://m.example'\nn = -7\n[build]\ncatalog = 'c.json'".toList
    let surroundings : Surroundings Id :=
      { workingDirectory := "/docs".toList
        valueOf? := Environment.valueOf? ["T=Docs".toList]
        pathExists := (· == path)
        readText := fun _ => .ok contents }
    let overrides : Overrides :=
      { url? := some "https://b.example".toList, outputDirectory? := some "/out".toList }
    let settings : Settings :=
      { title? := some "Docs".toList
        url? := some "https://b.example".toList
        attributes := [("n".toList, "-7".toList), ("site-url".toList, "http://m.example".toList)]
        catalog? := some "/docs/c.json".toList
        outputDirectory := "/out".toList
        source? := some path }
    load surroundings (some path) (some overrides) = .ok settings ∧
      ∃ f c, File.read? contents = some f ∧ f.Means surroundings.valueOf? c ∧
        settings.documentAttributes.find? "site-url".toList =
          (c.attribute? "site-url".toList).or (overrides.url?.or c.url?) ∧
        settings.Follows f c overrides path := by
  intro path contents surroundings overrides settings
  have hload : @Eq (Except SettingsError Settings)
      (load surroundings (some path) (some overrides)) (.ok settings) := by
    decide +kernel
  obtain ⟨read, f, c, hread, hfile, hmeans, hseen, hfollows, -⟩ :=
    settings_take_precedence surroundings path overrides settings hload
  obtain rfl := Except.ok.inj hread
  exact ⟨hload, f, c, hfile, hmeans, hseen.1, hfollows⟩

end Settings

end DocSite
