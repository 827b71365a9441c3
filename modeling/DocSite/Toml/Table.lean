import DocSite.Toml.Basic

/-!
# Tables in TOML

A document sets keys one after the other and opens tables with headers. Nothing may be set twice,
and a table may be added to only in the way it was begun.

* `Toml.modify?` : the tables on a path, made where they are missing, and the last of them changed.
* `Toml.assign?` : a key with dots set in a table.
* `Toml.Section`, `Toml.ofSections?` : a header with what follows it, and the document of sections.
-/

namespace DocSite

namespace Toml

/-! ### Paths -/

/-- How a table that is passed on the way to another one counts from then on. One in braces is never
passed, and one with a header of its own only by headers. One that stands above headers and is
passed by the dots of a key is begun by them. -/
def Origin.pass? (byDots : Bool) : Origin → Option Origin
  | .header => if byDots then none else some .header
  | .implied => some (if byDots then .dotted else .implied)
  | .dotted => some .dotted
  | .inline => none

/-- The entries of a table where `f` changes the table at the end of a path, and is told how it came
to be. Missing tables come to be by the dots of a key or by a header, as `byDots` says. A path goes
on in the last of the tables that share a header. -/
def modify? (byDots : Bool) (f : Origin → Entries → Option Entries) :
    List Text → Origin → Entries → Option Entries
  | [], origin, es => f origin es
  | key :: path, _, es =>
    match es.find? key with
    | none => do
      let origin := if byDots then .dotted else .implied
      let sub ← modify? byDots f path origin []
      some (es ++ [(key, .table origin sub)])
    | some (.table origin sub) => do
      let origin ← origin.pass? byDots
      some (es.set key (.table origin (← modify? byDots f path origin sub)))
    | some (.tables items) => do
      let sub ← modify? byDots f path .header (← items.getLast?)
      some (es.set key (.tables (items.dropLast ++ [sub])))
    | some _ => none

/-! ### Keys -/

/-- A key set in a table. A key without dots stands in a table not begun by dots, a key with dots in
one begun by them. -/
def setNew? (byDots : Bool) (key : Text) (value : Toml) (origin : Origin) (es : Entries) :
    Option Entries :=
  if decide (origin = .dotted) = byDots ∧ (es.find? key).isNone then some (es ++ [(key, value)])
  else none

/-- A key with dots, in parts, set in a table. -/
def assign? (origin : Origin) (es : Entries) : List Text × Toml → Option Entries
  | (parts, value) => do
    let key ← parts.getLast?
    let path := parts.dropLast
    modify? (path ≠ []) (setNew? (path ≠ []) key value) path origin es

/-- Keys set one after the other in a table. -/
def assignAll? (origin : Origin) (es : Entries) (rows : List (List Text × Toml)) :
    Option Entries :=
  rows.foldlM (assign? origin) es

/-! ### Headers -/

/-- A header: the parts of its name, and whether it stands in double brackets. -/
structure Header where
  parts : List Text
  repeated : Bool
  deriving DecidableEq, Repr

/-- A header and the keys that are set after it. -/
structure Section where
  header : Header
  rows : List (List Text × Toml)
  deriving Repr

/-- A table opened in another one. What headers of tables below it have begun goes on. -/
def open? (key : Text) (rows : List (List Text × Toml)) (es : Entries) : Option Entries :=
  match es.find? key with
  | none => do some (es ++ [(key, .table .header (← assignAll? .header [] rows))])
  | some (.table .implied sub) => do
    some (es.set key (.table .header (← assignAll? .header sub rows)))
  | some _ => none

/-- A table added to those that share a header. -/
def openNext? (key : Text) (rows : List (List Text × Toml)) (es : Entries) : Option Entries :=
  match es.find? key with
  | none => do some (es ++ [(key, .tables [← assignAll? .header [] rows])])
  | some (.tables items) => do
    some (es.set key (.tables (items ++ [← assignAll? .header [] rows])))
  | some _ => none

/-- The entries of a document with one more section. -/
def addSection? (es : Entries) (s : Section) : Option Entries := do
  let key ← s.header.parts.getLast?
  let add := if s.header.repeated then openNext? key s.rows else open? key s.rows
  modify? false (fun _ es => add es) s.header.parts.dropLast .header es

/-- The document of the keys before all headers and of sections. -/
def ofSections? (rows : List (List Text × Toml)) (sections : List Section) : Option Toml := do
  let es ← assignAll? .header [] rows
  some (.table .header (← sections.foldlM addSection? es))

end Toml

end DocSite
