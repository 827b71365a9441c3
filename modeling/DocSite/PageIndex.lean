import DocSite.Json.Record

/-!
# Page indexes

An index lists the pages below a directory. Pages with an explicit position come first, in the order
of their positions; equal pages keep the order they had.

* `Page` : a page as an index sees it.
* `PageIndex.build` : the index of the pages below a directory.
* `PageIndex.read?`, `PageIndex.toJson` : lists of pages as JSON.
-/

namespace DocSite

/-- A page as an index sees it. -/
structure Page where
  /-- The path of the source. -/
  path : Text
  /-- The title. -/
  title : Text := []
  /-- The explicit position among the pages of an index. -/
  index? : Option Int := none
  /-- Where a link to the page leads. -/
  href? : Option Text := none
  deriving DecidableEq, Repr

namespace Page

/-- Whether one page can stand before another: by position, pages without one last. -/
def precedes (a b : Page) : Bool :=
  match a.index?, b.index? with
  | some i, some j => i ≤ j
  | some _, none => true
  | none, some _ => false
  | none, none => true

/-- The names of the fields of a page. -/
def fieldNames : List Text := ["path".toList, "title".toList, "index".toList, "href".toList]

/-- Reads a page. -/
def ofRaw? (r : Json.Raw) : Option Page := do
  let [path, title, index, href] ← r.record? fieldNames | none
  some { path := ← Json.Raw.required? Json.Raw.text? path
         title := ← Json.Raw.defaulted? [] Json.Raw.text? title
         index? := ← Json.Raw.optional? Json.Raw.int64? index
         href? := ← Json.Raw.optional? Json.Raw.text? href }

/-- Writes a page; fields without a value are left out. -/
def toJson (p : Page) : Json :=
  .object
    ([("path".toList, .string p.path), ("title".toList, .string p.title)] ++
     (p.index?.map fun i => ("index".toList, Json.integer i)).toList ++
     (p.href?.map fun h => ("href".toList, Json.string h)).toList)

end Page

namespace PageIndex

/-- The index of the pages below `dir`. Each page links to its own path. -/
def build (pages : List Page) (dir : Text) : List Page :=
  ((pages.filter fun p => (dir ++ ['/']).isPrefixOf p.path).map
    fun p => { p with href? := some p.path }).mergeSort Page.precedes

/-- The list of pages in a JSON text. -/
def read? (s : Text) : Option (List Page) := (Json.Raw.read? s).bind (Json.Raw.list? Page.ofRaw?)

/-- A list of pages as JSON. -/
def toJson (pages : List Page) : Json := .array (pages.map Page.toJson)

end PageIndex

end DocSite
