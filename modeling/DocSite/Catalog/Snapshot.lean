import DocSite.Catalog.Basic
import DocSite.Json.Record

/-!
# Catalogs in JSON

The records of a catalog as JSON objects. A field without a value is left out when it is written.

* `Source.ofRaw?`, `Entry.ofRaw?`, `Component.ofRaw?`, `Catalog.ofRaw?` : reading.
* `Source.toJson`, `Entry.toJson`, `Component.toJson` : writing.
* `Catalog.read?` : the catalog in a JSON text.
-/

namespace DocSite

open Json (Raw)

/-- A field, if there is a value for it. -/
def optionalField (name : Text) : Option Text → List (Text × Json)
  | some s => [(name, .string s)]
  | none => []

/-- A family: its name, or an object that maps its name to null. -/
def Family.ofRaw? : Raw → Option Family
  | .string (some name) => ofName? name
  | .object [(some name, .null)] => ofName? name
  | _ => none

namespace Source

/-- The names of the fields of a source. -/
def fieldNames : List Text :=
  ["component".toList, "version".toList, "module".toList, "family".toList, "relative".toList,
   "mediaType".toList, "abspath".toList]

/-- Reads a source. -/
def ofRaw? (r : Raw) : Option Source := do
  let [component, version, module, family, relative, mediaType, path] ← r.record? fieldNames
    | none
  some { component := ← Raw.required? Raw.text? component
         version := ← Raw.required? Raw.text? version
         module := ← Raw.required? Raw.text? module
         family := ← Raw.required? Family.ofRaw? family
         relative := ← Raw.required? Raw.text? relative
         mediaType? := ← Raw.optional? Raw.text? mediaType
         path? := ← Raw.optional? Raw.text? path }

/-- Writes a source. -/
def toJson (s : Source) : Json :=
  .object
    ([("component".toList, .string s.component), ("version".toList, .string s.version),
      ("module".toList, .string s.module), ("family".toList, .string s.family.name),
      ("relative".toList, .string s.relative)] ++
     optionalField "mediaType".toList s.mediaType? ++ optionalField "abspath".toList s.path?)

end Source

namespace Publication

/-- The names of the fields of a publication. -/
def fieldNames : List Text := ["url".toList, "moduleRootPath".toList]

/-- Reads a publication. -/
def ofRaw? (r : Raw) : Option Publication := do
  let [url, moduleRoot] ← r.record? fieldNames | none
  some { url := ← Raw.required? Raw.text? url
         moduleRoot := ← Raw.required? Raw.text? moduleRoot }

/-- Writes a publication. -/
def toJson (p : Publication) : Json :=
  .object [("url".toList, .string p.url), ("moduleRootPath".toList, .string p.moduleRoot)]

end Publication

namespace Entry

/-- The names of the fields of a file. -/
def fieldNames : List Text := ["src".toList, "contents".toList, "pub".toList]

/-- Reads a file. -/
def ofRaw? (r : Raw) : Option Entry := do
  let [source, contents, publication] ← r.record? fieldNames | none
  some { source := ← Raw.required? Source.ofRaw? source
         contents := ← Raw.defaulted? [] Raw.text? contents
         publication? := ← Raw.optional? Publication.ofRaw? publication }

/-- Writes a file. -/
def toJson (e : Entry) : Json :=
  .object
    ([("src".toList, e.source.toJson), ("contents".toList, .string e.contents)] ++
     (e.publication?.map fun p => ("pub".toList, p.toJson)).toList)

end Entry

namespace Release

/-- The names of the fields of a release. -/
def fieldNames : List Text := ["version".toList, "displayVersion".toList, "title".toList]

/-- Reads a release. -/
def ofRaw? (r : Raw) : Option Release := do
  let [version, displayVersion, title] ← r.record? fieldNames | none
  some { version := ← Raw.required? Raw.text? version
         displayVersion := ← Raw.required? Raw.text? displayVersion
         title := ← Raw.required? Raw.text? title }

/-- Writes a release. -/
def toJson (r : Release) : Json :=
  .object [("version".toList, .string r.version),
    ("displayVersion".toList, .string r.displayVersion), ("title".toList, .string r.title)]

end Release

namespace Component

/-- The names of the fields of a component. -/
def fieldNames : List Text :=
  ["name".toList, "title".toList, "versions".toList, "latest".toList]

/-- Reads a component. -/
def ofRaw? (r : Raw) : Option Component := do
  let [name, title, releases, latest] ← r.record? fieldNames | none
  some { name := ← Raw.required? Raw.text? name
         title := ← Raw.defaulted? [] Raw.text? title
         releases := ← Raw.required? (Raw.list? Release.ofRaw?) releases
         latest? := ← Raw.optional? Raw.text? latest }

/-- Writes a component. -/
def toJson (c : Component) : Json :=
  .object
    ([("name".toList, .string c.name), ("title".toList, .string c.title),
      ("versions".toList, .array (c.releases.map Release.toJson))] ++
     optionalField "latest".toList c.latest?)

end Component

namespace Catalog

/-- The names of the fields of a catalog. -/
def fieldNames : List Text := ["components".toList, "files".toList]

/-- Reads a catalog. -/
def ofRaw? (r : Raw) : Option Catalog := do
  let [components, files] ← r.record? fieldNames | none
  some { components := ← Raw.defaulted? [] (Raw.list? Component.ofRaw?) components
         files := ← Raw.defaulted? [] (Raw.list? Entry.ofRaw?) files }

/-- The catalog in a JSON text. -/
def read? (s : Text) : Option Catalog := (Raw.read? s).bind ofRaw?

end Catalog

end DocSite
