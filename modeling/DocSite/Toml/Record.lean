import DocSite.Toml.Basic

/-!
# Records in TOML

A record is read from a table or from an array. In a table, keys with unknown names are ignored, but
the numbers in their values must be well written and not too large. An array lists the fields in
their order; what follows the last of them is not looked at.

* `Toml.record?` : the fields of a record in the order of their names.
* `Toml.entries?` : the entries of a value that stands for a table.
* `Toml.fits` : whether the numbers in a value are well written and not too large.
-/

namespace DocSite

namespace Toml

/-- Whether the integers in a value are numbers of 128 bits, with or without a sign, and its floats
are finite. -/
def fits : Toml → Bool
  | integer i => i.value?.any fun n => -Int.pow 2 127 ≤ n && n < Int.pow 2 128
  | real n => !n.isTooLarge
  | array items => fitsItems items
  | table _ entries => fitsEntries entries
  | tables items => fitsTables items
  | _ => true
where
  /-- Whether all items fit. -/
  fitsItems : List Toml → Bool
    | [] => true
    | v :: rest => v.fits && fitsItems rest
  /-- Whether the values of all entries fit. -/
  fitsEntries : List (Text × Toml) → Bool
    | [] => true
    | (_, v) :: rest => v.fits && fitsEntries rest
  /-- Whether the values of all entries of tables fit. -/
  fitsTables : List (List (Text × Toml)) → Bool
    | [] => true
    | es :: rest => fitsEntries es && fitsTables rest

/-- The key of the entry that a date or a time stands for. -/
def momentKey : Text := "$__toml_private_datetime".toList

/-- The entries of a value that stands for a table. A date or a time stands for a table with one
entry. -/
def entries? : Toml → Option Entries
  | table _ entries => some entries
  | moment m => some [(momentKey, .string m.text)]
  | _ => none

/-- The items of a value that stands for an array. -/
def listItems? : Toml → Option (List Toml)
  | array items => some items
  | tables items => some (items.map (table .header))
  | _ => none

/-- The fields of a record with the given names, in their order. -/
def record? (names : List Text) (v : Toml) : Option (List (Option Toml)) :=
  match v.listItems? with
  | some items => some (names.zipIdx.map fun (_, i) => items[i]?)
  | none => do
    let es ← v.entries?
    if es.all fun (key, value) => names.contains key || value.fits then some (names.map es.find?)
    else none

/-- A text. -/
def text? : Toml → Option Text
  | string s => some s
  | _ => none

/-- A field that may be missing. -/
def optional? {α : Type} (f : Toml → Option α) : Option Toml → Option (Option α)
  | none => some none
  | some v => (f v).map some

/-- A field with a value for when it is missing. -/
def defaulted? {α : Type} (d : α) (f : Toml → Option α) : Option Toml → Option α
  | none => some d
  | some v => f v

end Toml

end DocSite
