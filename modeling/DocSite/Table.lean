import DocSite.Text.Basic

/-!
# Tables

A table maps names to values. Its rows stand in ascending order of their names, and no name has two
rows.

* `Table.insert` : the table with one row set.
* `Table.ofList` : the table of a list of rows, where the last of equal names wins.
* `Table.find?` : the value of a name.
-/

namespace DocSite

/-- Rows of a name and its value. -/
abbrev Table (α : Type) := List (Text × α)

namespace Table

variable {α : Type}

/-- The value of a name. -/
def find? (t : Table α) (name : Text) : Option α := t.lookup name

/-- The table with `value` in the row of `name`. -/
def insert (t : Table α) (name : Text) (value : α) : Table α :=
  match t with
  | [] => [(name, value)]
  | (n, v) :: rest =>
    if name = n then (n, value) :: rest
    else if name < n then (name, value) :: (n, v) :: rest
    else (n, v) :: insert rest name value

/-- The table of a list of rows, where the last of equal names wins. -/
def ofList (rows : List (Text × α)) : Table α :=
  rows.foldl (fun t (name, value) => insert t name value) []

end Table

end DocSite
