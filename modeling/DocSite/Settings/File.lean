import DocSite.Settings.Basic
import DocSite.Settings.Variables
import DocSite.Toml.Reader
import DocSite.Toml.Record

/-!
# Settings files

* `Settings.File`, `Settings.File.read?` : what a file says.
* `Settings.File.settings` : the settings it gives, with its references to variables replaced and
  its paths taken from its directory.
-/

namespace DocSite

namespace Settings

/-- An attribute as a file writes it. -/
inductive Attribute where
  | text (s : Text)
  | integer (i : Int)
  | boolean (b : Bool)
  deriving DecidableEq, Repr

/-- What a file says. -/
structure File where
  title? : Option Text := none
  url? : Option Text := none
  attributes : Table Attribute := []
  catalog? : Option Path := none
  outputDirectory? : Option Path := none
  deriving DecidableEq, Repr

namespace File

/-! ### Reading -/

/-- The attribute that a value writes: a text, an integer of 64 bits with a sign, or a Boolean. -/
def attribute? : Toml → Option Attribute
  | .string s => some (.text s)
  | .integer i => (i.value?.filter fun n => -Int.pow 2 63 ≤ n ∧ n < Int.pow 2 63).map .integer
  | .boolean b => some (.boolean b)
  | _ => none

/-- The attributes that a table writes. -/
def attributes? (v : Toml) : Option (Table Attribute) := do
  let rows ← (← v.entries?).mapM fun (name, value) => do some (name, ← attribute? value)
  some (Table.ofList rows)

/-- Two texts that a record with the given names may have. -/
def twoTexts? (first second : Text) (v : Toml) : Option (Option Text × Option Text) := do
  let [a, b] ← v.record? [first, second] | none
  some (← Toml.optional? Toml.text? a, ← Toml.optional? Toml.text? b)

/-- What a document says. -/
def ofToml? (v : Toml) : Option File := do
  let [site, attributes, build] ← v.record? ["site".toList, "attributes".toList, "build".toList]
    | none
  let (title?, url?) ←
    Toml.defaulted? (none, none) (twoTexts? "title".toList "url".toList) site
  let attributes ← Toml.defaulted? [] attributes? attributes
  let (catalog?, outputDirectory?) ←
    Toml.defaulted? (none, none) (twoTexts? "catalog".toList "output_dir".toList) build
  some { title?, url?, attributes, catalog?, outputDirectory? }

/-- What a text says. -/
def read? (s : Text) : Option File := (Toml.read? s).bind ofToml?

/-! ### What it means -/

/-- A text of a field with its references to variables replaced. -/
def expand (value? : Text → Option Text) (field s : Text) : Except SettingsError Text :=
  (Variables.expand value? s).mapError fun name => .unset field name

/-- A field that may be missing, with its references to variables replaced. -/
def expandField (value? : Text → Option Text) (field : Text) :
    Option Text → Except SettingsError (Option Text)
  | none => .ok none
  | some s => (expand value? field s).map some

/-- An attribute in words, with its references to variables replaced. -/
def expandAttribute (value? : Text → Option Text) (name : Text) :
    Attribute → Except SettingsError Text
  | .text s => expand value? ("attributes.".toList ++ name) s
  | .integer i => .ok (Text.ofInt i)
  | .boolean b => .ok (if b then "true".toList else "false".toList)

/-- Where generated files are written if nothing else is said. -/
def defaultOutput : Path := "build/site".toList

/-- The directory that the paths in a file are taken from. -/
def directory (source : Path) : Path := (Path.parent? source).getD ['.']

/-- The settings that a file gives. -/
def settings (f : File) (value? : Text → Option Text) (source : Path) :
    Except SettingsError Settings := do
  let title? ← expandField value? "site.title".toList f.title?
  let url? ← expandField value? "site.url".toList f.url?
  let attributes ← f.attributes.mapM fun (name, a) => do
    return (name, ← expandAttribute value? name a)
  let base := directory source
  let s : Settings :=
    { title?, url?, attributes
      catalog? := f.catalog?.map base.join
      outputDirectory := base.join (f.outputDirectory?.getD defaultOutput)
      source? := some source }
  s.check
  return s

end File

end Settings

end DocSite
