import DocSite.Reference

/-!
# The catalog

The catalog holds the components of the site and its files, in an order that look-ups respect: the
first file at a location is the one found there. Files can be registered while documents are
expanded; those are also kept apart, so that they can be written out afterwards.

* `Entry` : a file with its contents and where it is published.
* `Catalog.at?`, `Catalog.resolve?` : the file at a location, the file that a reference names.
* `Catalog.add` : registers a file unless its location is taken.
* `Component.latestRelease?`, `Component.release?` : releases of a component.
-/

namespace DocSite

/-- Where a file is published. -/
structure Publication where
  /-- The root-relative URL. -/
  url : Text
  /-- The relative path from the published file to the root of its module. -/
  moduleRoot : Text
  deriving DecidableEq, Repr

/-- A file of the site. -/
structure Entry where
  /-- Where the file stands. -/
  source : Source
  /-- What the file holds. -/
  contents : Text := []
  /-- Where the file is published, if it is. -/
  publication? : Option Publication := none
  deriving DecidableEq, Repr

/-- The location of a file. -/
abbrev Entry.location (e : Entry) : Location := e.source.toLocation

/-- A release of a component. -/
structure Release where
  version : Text
  displayVersion : Text
  title : Text
  deriving DecidableEq, Repr

/-- A documentation product and its releases. -/
structure Component where
  name : Text
  title : Text := []
  /-- The releases, by convention the newest first. -/
  releases : List Release
  /-- The version of the release that counts as the latest. -/
  latest? : Option Text := none
  deriving DecidableEq, Repr

namespace Component

/-- The first release with a version. -/
def release? (c : Component) (version : Text) : Option Release :=
  c.releases.find? fun r => r.version = version

/-- The release that counts as the latest: the designated one, or else the first. -/
def latestRelease? (c : Component) : Option Release :=
  (c.latest?.bind c.release?).or c.releases.head?

end Component

/-- Why a file is not registered. -/
inductive CatalogError where
  /-- There is a file at its location. -/
  | duplicate (location : Location)
  /-- The catalog takes no files. -/
  | unavailable (reason : Text)
  deriving DecidableEq, Repr

/-- Why a file is not registered, in words. -/
def CatalogError.message : CatalogError → Text
  | duplicate location => "Duplicate resource: ".toList ++ location.id
  | unavailable reason => "Catalog unavailable: ".toList ++ reason

/-- The components and the files of the site. -/
structure Catalog where
  components : List Component := []
  /-- The files in catalog order, registered ones at the end. -/
  files : List Entry := []
  /-- The files registered so far. -/
  added : List Entry := []
  /-- Why no file can be registered, if none can. -/
  refusal? : Option Text := none
  deriving DecidableEq, Repr

namespace Catalog

/-- The first component with a name. -/
def component? (c : Catalog) (name : Text) : Option Component :=
  c.components.find? fun k => k.name = name

/-- The first file at a location. -/
def at? (c : Catalog) (l : Location) : Option Entry := c.files.find? fun e => e.location = l

/-- The file that a reference names for a file at `context`, where `family` is meant if the
reference names none. -/
def resolve? (c : Catalog) (reference : Text) (context : Location) (family : Family) :
    Option Entry :=
  (Location.ofReference? reference context family).bind c.at?

/-- The page that a reference names for a file at `context`. -/
def resolvePage? (c : Catalog) (reference : Text) (context : Location) : Option Entry :=
  c.resolve? reference context .page

/-- The catalog with one more file. -/
def add (c : Catalog) (e : Entry) : Except CatalogError Catalog :=
  match c.refusal? with
  | some reason => .error (.unavailable reason)
  | none =>
    match c.at? e.location with
    | some _ => .error (.duplicate e.location)
    | none => .ok { c with files := c.files ++ [e], added := c.added ++ [e] }

/-- The first file whose location, written out, is `id`. -/
def ofId? (c : Catalog) (id : Text) : Option Entry := c.files.find? fun e => e.location.id = id

end Catalog

end DocSite
