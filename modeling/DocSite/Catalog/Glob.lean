import DocSite.Catalog.Basic

/-!
# Globs

A glob is a reference whose path may hold stars. It selects the files that have the other parts of
the reference and in whose paths the fragments between the stars occur one after the other: the
first occurrence of each starts after the first occurrence of the one before.

* `Glob.fragments` : the fragments between the stars.
* `Glob.fits` : whether the fragments occur in order.
* `Catalog.select` : the files that a glob selects.
-/

namespace DocSite

namespace Glob

/-- The fragments between the stars. -/
def fragments (path : Text) : List Text := (path.splitOn '*').filter (· ≠ [])

/-- Whether the first occurrences of the fragments start at rising positions, all after `last`. -/
def fitsAfter (path : Text) : Option Nat → List Text → Bool
  | _, [] => true
  | last, fragment :: rest =>
    match Text.position? fragment path with
    | some i => last.all (· < i) && fitsAfter path (some i) rest
    | none => false

/-- Whether the fragments occur one after the other. -/
def fits (path : Text) (fragments : List Text) : Bool := fitsAfter path none fragments

/-- Whether the location `l` is one that the location of a glob describes. -/
def describes (glob l : Location) : Bool :=
  l.sameModule glob && l.family = glob.family && fits l.relative (fragments glob.relative)

end Glob

namespace Catalog

/-- The files that a glob selects for a file at `context`, in catalog order. The family is that of
`context` if the glob names none. -/
def select (c : Catalog) (glob : Text) (context : Location) : List Entry :=
  match Location.ofReference? glob context context.family with
  | some described => c.files.filter fun e => Glob.describes described e.location
  | none => []

end Catalog

end DocSite
