import DocSite.Location

/-!
# References

A reference names a file as `version@component:module:family$relative`, where every part but the
last may be left out and is then taken from the file that holds the reference.

* `Reference.parse?` : the parts that a text spells out.
* `Reference.render` : the text of the parts.
* `Reference.resolve?` : the location that a reference names from a given place.
* `Location.xrefFrom` : the reference to a location from another one.
-/

namespace DocSite

/-- The parts that a reference spells out. -/
structure Reference where
  /-- The version, followed by `@`. -/
  version : Option Text := none
  /-- The component, followed by `:`. -/
  component : Option Text := none
  /-- The module, followed by `:`. -/
  module : Option Text := none
  /-- The name of the family, followed by `$`. -/
  family : Option Text := none
  /-- The path below the directory of the family. -/
  relative : Text
  deriving DecidableEq, Repr

namespace Reference

/-- A character that can stand within a part: none of the three separators. -/
def isPartChar (c : Char) : Bool := c ≠ '@' && c ≠ ':' && c ≠ '$'

/-- A text that can be a part. -/
def isPart (s : Text) : Bool := s ≠ [] && s.all isPartChar

/-- A leading part that ends at `sep`, and what follows the separator. -/
def leadingPart? (sep : Char) (s : Text) : Option (Text × Text) :=
  match s.takeWhile isPartChar, s.dropWhile isPartChar with
  | c :: part, d :: rest => if d = sep then some (c :: part, rest) else none
  | _, _ => none

/-- A leading part that may be left out, and what follows it. -/
def optionalPart (sep : Char) (s : Text) : Option Text × Text :=
  match leadingPart? sep s with
  | some (part, rest) => (some part, rest)
  | none => (none, s)

/-- The component and the module before the rest of a reference. One part is the module; a colon
without a part before it names neither, and after a component it leaves the module out. -/
def optionalPlace (s : Text) : Option Text × Option Text × Text :=
  match leadingPart? ':' s with
  | some (first, ':' :: rest) => (some first, none, rest)
  | some (first, rest) =>
    match leadingPart? ':' rest with
    | some (second, rest) => (some first, some second, rest)
    | none => (none, some first, rest)
  | none =>
    match s with
    | ':' :: rest => (none, none, rest)
    | _ => (none, none, s)

/-- The parts that a text spells out, if it is a reference. -/
def parse? (s : Text) : Option Reference :=
  let (version, s) := optionalPart '@' s
  let (component, module, s) := optionalPlace s
  let (family, s) := optionalPart '$' s
  if isPart s then some { version, component, module, family, relative := s } else none

/-- A part and its separator, or nothing. -/
def renderPart (sep : Char) : Option Text → Text
  | some part => part ++ [sep]
  | none => []

/-- The component and the module of a reference, each with its colon. -/
def renderPlace : Option Text → Option Text → Text
  | some c, some m => c ++ ':' :: m ++ [':']
  | some c, none => c ++ [':', ':']
  | none, some m => m ++ [':']
  | none, none => []

/-- The text of a reference. -/
def render (r : Reference) : Text :=
  renderPart '@' r.version ++ renderPlace r.component r.module ++ renderPart '$' r.family ++
    r.relative

/-- The location that a reference names for a file at `context`, where `family` is meant if the
reference names none. There is none if it names an unknown family. -/
def resolve? (r : Reference) (context : Location) (family : Family) : Option Location :=
  let place (family : Family) : Location :=
    { component := r.component.getD context.component
      version := r.version.getD context.version
      module := r.module.getD context.module
      family
      relative := r.relative }
  match r.family with
  | some name => (Family.ofName? name).map place
  | none => some (place family)

end Reference

namespace Location

/-- The location that the text `s` names for a file at `context`. -/
def ofReference? (s : Text) (context : Location) (family : Family) : Option Location :=
  (Reference.parse? s).bind fun r => r.resolve? context family

/-- The reference to a location from a file at `context`: parts that both share are left out. A
component is always followed by its module, since one part alone is a module. -/
def xrefFrom (l context : Location) : Text :=
  let far := l.component ≠ context.component
  (if far ∨ l.version ≠ context.version then l.version ++ ['@'] else []) ++
  (if far then l.component ++ ':' :: l.module ++ [':']
   else if l.module ≠ context.module then l.module ++ [':'] else []) ++
  (if l.family ≠ .page then l.family.name ++ ['$'] else []) ++
  l.relative

end Location

end DocSite
