import DocSite.Json.Raw
import DocSite.Pipeline.Schema

/-!
# Pipeline configurations

Which extensions an analysis pipeline uses, and which transforms it applies together.

* `Pipeline.Filter` : the ids of one kind of extension that are included and excluded.
* `Pipeline.Configuration` : the filters of the five kinds, and the transform blocks.
* `Pipeline.Configuration.read` : the configuration in a JSON text.
* `Pipeline.Configuration.distinctBlocks` : each transform block once.
-/

namespace DocSite

namespace Pipeline

/-- Why a text is no configuration. -/
inductive ConfigurationError where
  /-- The text is not JSON. -/
  | notJson
  /-- The value violates the schema. -/
  | invalid (violations : List Schema.Violation)
  deriving DecidableEq, Repr

/-- The violations of a value in words. -/
def ConfigurationError.message : ConfigurationError → Text
  | notJson => "Invalid JSON: ".toList
  | invalid violations =>
    "Invalid pipeline configuration: ".toList ++
      Text.join "; ".toList (violations.map Schema.Violation.message)

/-- The fields of a record with the given names: those of an object, or the elements of an array, in
order and with none missing but at the end. -/
def recordFields? (names : List Text) : Json → Option (Table Json)
  | .object fields => some fields
  | .array values => if values.length ≤ names.length then some (names.zip values) else none
  | _ => none

/-- The ids of one kind of extension that take part. -/
structure Filter where
  /-- The ids that are named as included. -/
  include? : Option (List Text) := none
  /-- The ids that are named as excluded. -/
  exclude? : Option (List Text) := none
  deriving DecidableEq, Repr

namespace Filter

/-- The included ids. -/
def includes (f : Filter) : List Text := f.include?.getD []

/-- The excluded ids. -/
def excludes (f : Filter) : List Text := f.exclude?.getD []

/-- Whether an extension takes part. Exclusion wins, and no included ids mean all of them. -/
def isEnabled (f : Filter) (id : Text) : Bool :=
  !f.excludes.contains id && (f.includes.isEmpty || f.includes.contains id)

/-- The ids in a JSON value: one, or a list. -/
def ids? : Json → Option (List Text)
  | .string id => some [id]
  | .array ids => ids.mapM Json.text?
  | _ => none

/-- The ids in a field that may be missing or null. -/
def optionalIds? : Option Json → Option (Option (List Text))
  | none => some none
  | some .null => some none
  | some v => (ids? v).map some

/-- The filter in a JSON value. -/
def ofJson? (v : Json) : Option Filter := do
  let fields ← recordFields? ["include".toList, "exclude".toList] v
  some { include? := ← optionalIds? (fields.find? "include".toList)
         exclude? := ← optionalIds? (fields.find? "exclude".toList) }

/-- The filter in a field that may be missing. -/
def ofField? : Option Json → Option Filter
  | none => some {}
  | some v => ofJson? v

end Filter

/-- Which extensions an analysis pipeline uses. -/
structure Configuration where
  /-- Groups of transforms that are applied together. -/
  transformBlocks : List (List Text) := []
  analyzers : Filter := {}
  filters : Filter := {}
  transforms : Filter := {}
  reporters : Filter := {}
  matchers : Filter := {}
  deriving DecidableEq, Repr

namespace Configuration

/-- A transform block in a JSON value. -/
def block? (v : Json) : Option (List Text) := do (← v.items?).mapM Json.text?

/-- The transform blocks in a field that may be missing. -/
def blocks? : Option Json → Option (List (List Text))
  | none => some []
  | some v => do (← v.items?).mapM block?

/-- The configuration in a JSON value. -/
def ofJson? (v : Json) : Option Configuration := do
  let fields ← recordFields? ["transformBlocks".toList, "analyzers".toList, "filters".toList,
    "transforms".toList, "reporters".toList, "matchers".toList] v
  some { transformBlocks := ← blocks? (fields.find? "transformBlocks".toList)
         analyzers := ← Filter.ofField? (fields.find? "analyzers".toList)
         filters := ← Filter.ofField? (fields.find? "filters".toList)
         transforms := ← Filter.ofField? (fields.find? "transforms".toList)
         reporters := ← Filter.ofField? (fields.find? "reporters".toList)
         matchers := ← Filter.ofField? (fields.find? "matchers".toList) }

/-- The configuration in a JSON value that the schema accepts. -/
def ofValue (v : Json) : Except ConfigurationError Configuration :=
  match violations v with
  | [] =>
    match ofJson? v with
    | some c => .ok c
    | none => .error .notJson
  | found => .error (.invalid found)

/-- The configuration in a JSON text. -/
def read (s : Text) : Except ConfigurationError Configuration :=
  match Json.read? s with
  | some v => ofValue v
  | none => .error .notJson

/-- The transform blocks, each at its first occurrence only. -/
def distinctBlocks (c : Configuration) : List (List Text) := c.transformBlocks.eraseDups

end Configuration

end Pipeline

end DocSite
