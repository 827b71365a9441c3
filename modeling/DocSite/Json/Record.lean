import DocSite.Json.Raw

/-!
# Records in JSON

A record is read from an object or from an array. In an object, fields with unknown names are
ignored whatever they hold, and a known name must not be repeated. An array lists the fields in
their order, and may leave out some at its end.

* `Raw.record?` : the fields of a record in the order of their names.
* `Raw.text?`, `Raw.int64?`, `Raw.list?` : values of fields.
* `Raw.defaulted?`, `Raw.optional?`, `Raw.required?` : what a missing field means.
-/

namespace DocSite

namespace Json

namespace Raw

/-- The fields with the given names. There are none if a name of the object is no text, or if one
of the given names is repeated. -/
def select? (names : List Text) (fields : List (Option Text × Raw)) : Option (List (Option Raw)) :=
  if fields.all (·.1.isSome) then
    names.mapM fun name =>
      match fields.filter (·.1 = some name) with
      | [] => some none
      | [(_, v)] => some (some v)
      | _ => none
  else none

/-- The fields of a record with the given names, in their order. -/
def record? (names : List Text) : Raw → Option (List (Option Raw))
  | object fields => select? names fields
  | array items =>
    if items.length ≤ names.length then
      some (items.map some ++ List.replicate (names.length - items.length) none)
    else none
  | _ => none

/-- A text. -/
def text? : Raw → Option Text
  | string s => s
  | _ => none

/-- A whole number that fits 64 bits with a sign. -/
def int64? : Raw → Option Int
  | number n => n.integer?.filter fun i => -Int.pow 2 63 ≤ i ∧ i < Int.pow 2 63
  | _ => none

variable {α : Type}

/-- A list of values. -/
def list? (f : Raw → Option α) : Raw → Option (List α)
  | array items => items.mapM f
  | _ => none

/-- A field that must be there. -/
def required? (f : Raw → Option α) (v : Option Raw) : Option α := v.bind f

/-- A field with a value for when it is not there. -/
def defaulted? (d : α) (f : Raw → Option α) : Option Raw → Option α
  | none => some d
  | some v => f v

/-- A field that may be missing or null. -/
def optional? (f : Raw → Option α) : Option Raw → Option (Option α)
  | none => some none
  | some null => some none
  | some v => (f v).map some

end Raw

end Json

end DocSite
