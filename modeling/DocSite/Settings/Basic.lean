import DocSite.Host
import DocSite.Table

/-!
# Settings

The settings of a site: what it is called, where it is published, the attributes that its documents
share, and where the catalog is read and files are written.

* `Settings` : the settings that a run works with.
* `Settings.Overrides`, `Settings.override` : settings given with a command, which count more.
* `Settings.check` : what no settings may say.
* `Settings.documentAttributes` : the attributes that macros see.
-/

namespace DocSite

/-- The settings that a run works with. -/
structure Settings where
  /-- What the site is called. -/
  title? : Option Text := none
  /-- Where the site is published. -/
  url? : Option Text := none
  /-- The attributes of the site. -/
  attributes : Table Text := []
  /-- The file that holds the catalog. -/
  catalog? : Option Path := none
  /-- Where generated files are written. -/
  outputDirectory : Path
  /-- The file that the settings come from. -/
  source? : Option Path := none
  deriving DecidableEq, Repr

/-- Settings given with a command. -/
structure Settings.Overrides where
  url? : Option Text := none
  catalog? : Option Path := none
  outputDirectory? : Option Path := none
  deriving DecidableEq, Repr

/-- Why there are no settings. -/
inductive SettingsError where
  /-- There is no file at the path that was asked for. -/
  | notFound (path : Path)
  /-- The file cannot be read. -/
  | file (cause : FileError)
  /-- The file holds no settings. -/
  | malformed
  /-- A URL has another scheme than the two that are allowed. -/
  | scheme
  /-- The number of articles to list is none. -/
  | maxItems (value : Text)
  /-- A field refers to a variable that is not set. -/
  | unset (field variableName : Text)
  deriving DecidableEq, Repr

namespace Settings

/-- The attribute that limits how many articles are listed. -/
def maxItemsAttribute : Text := "news-feed-max-items".toList

end Settings

/-- Why there are no settings, in words. -/
def SettingsError.message : SettingsError → Text
  | notFound path => "Configuration file not found: ".toList ++ path
  | file cause => "I/O error: ".toList ++ cause.message
  | malformed => "TOML parse error: the file holds no settings".toList
  | scheme => "Configuration error: site.url must start with http:// or https://".toList
  | maxItems value =>
    "Configuration error: attributes.".toList ++ Settings.maxItemsAttribute ++
      " must be a non-negative integer, got '".toList ++ value ++ ['\'']
  | unset field variableName =>
    "Environment variable error in ".toList ++ field ++ ": $\x7b".toList ++ variableName ++
      "\x7d not set".toList

namespace Settings

/-- The settings with those given with a command in their place. -/
def override (s : Settings) (o : Overrides) : Settings :=
  { s with
    url? := o.url?.or s.url?
    catalog? := o.catalog?.or s.catalog?
    outputDirectory := o.outputDirectory?.getD s.outputDirectory }

/-- Whether a URL has one of the two schemes that are allowed. -/
def isWebUrl (url : Text) : Bool :=
  "http://".toList.isPrefixOf url || "https://".toList.isPrefixOf url

/-- Whether a text is a number of articles. -/
def isCount (value : Text) : Bool := (Text.toWord? value.trim).isSome

/-- What the settings say that no settings may say. The URL is looked at first. -/
def check (s : Settings) : Except SettingsError Unit :=
  if !s.url?.all isWebUrl then .error .scheme
  else
    match s.attributes.find? maxItemsAttribute with
    | none => .ok ()
    | some value => if isCount value then .ok () else .error (.maxItems value)

/-- The table with a row for `name`, unless it has one or there is no value. -/
def addMissing (t : Table Text) (name : Text) (value? : Option Text) : Table Text :=
  match t.find? name, value? with
  | none, some value => t.insert name value
  | _, _ => t

/-- The attributes that macros see: those of the site, and its URL and title where they have no
attribute. -/
def documentAttributes (s : Settings) : Table Text :=
  addMissing (addMissing s.attributes "site-url".toList s.url?) "site-title".toList s.title?

end Settings

end DocSite
