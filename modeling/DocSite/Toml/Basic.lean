import DocSite.Numeral
import DocSite.Toml.Integer
import DocSite.Toml.Moment

/-!
# TOML values

* `Toml` : a value of a TOML document.
* `Toml.Origin` : how a table came to be, on which it depends who may add to it.
* `Toml.depth` : how many brackets and braces stand within each other.
-/

namespace DocSite

/-- How a table came to be. -/
inductive Toml.Origin where
  /-- It has a header of its own, or is the root. -/
  | header
  /-- The header of a table below it names it. -/
  | implied
  /-- A key with dots names it. -/
  | dotted
  /-- It is written in braces. -/
  | inline
  deriving DecidableEq, Repr

/-- A value of a TOML document. -/
inductive Toml where
  | string (s : Text)
  | integer (i : Toml.Integer)
  | real (n : Numeral)
  | infinity (negative : Bool)
  | notANumber
  | boolean (b : Bool)
  | moment (m : Toml.Moment)
  | array (items : List Toml)
  | table (origin : Toml.Origin) (entries : List (Text × Toml))
  /-- The tables that have one header in double brackets. -/
  | tables (items : List (List (Text × Toml)))
  deriving Repr

namespace Toml

/-- The entries of a table in their order. -/
abbrev Entries := List (Text × Toml)

namespace Entries

/-- The value of a key. -/
def find? (es : Entries) (key : Text) : Option Toml := List.lookup key es

/-- The entries with the value of a key replaced. -/
def set (es : Entries) (key : Text) (value : Toml) : Entries :=
  es.map fun (k, v) => if k = key then (k, value) else (k, v)

end Entries

/-- How many arrays and tables in braces stand within each other. -/
def depth : Toml → Nat
  | array items => depthItems items + 1
  | table origin entries => depthEntries entries + (if origin = .inline then 1 else 0)
  | _ => 0
where
  /-- The depth of the deepest item. -/
  depthItems : List Toml → Nat
    | [] => 0
    | v :: rest => max v.depth (depthItems rest)
  /-- The depth of the deepest entry. -/
  depthEntries : List (Text × Toml) → Nat
    | [] => 0
    | (_, v) :: rest => max v.depth (depthEntries rest)

end Toml

end DocSite
