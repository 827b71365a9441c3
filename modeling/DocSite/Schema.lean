import DocSite.Json.Basic

/-!
# Schemas

A schema is a JSON value that says which values it accepts. Its keywords are `type`, `properties`,
`items`, `oneOf` and `$ref`; a value that is no object accepts everything.

* `Schema.Violation` : a place in a value and what is wrong there.
* `Schema.check` : the violations of a value with a bound on the steps, since references may lead
  around in a circle.
* `Schema.violations?` : the violations of a value, with a bound that suffices unless the schema
  leads from a node back to itself without going down in the value.
-/

namespace DocSite

namespace Schema

/-- What is wrong with a value. -/
inductive Fault where
  /-- The value has none of the types that the schema names. -/
  | wrongType (expected : List Text) (found : Text)
  /-- Not exactly one of the alternatives accepts the value. -/
  | alternatives (total accepting : Nat)
  /-- The schema refers to a place that is not there. -/
  | unresolved (reference : Text)
  deriving DecidableEq, Repr

/-- What is wrong, in words. -/
def Fault.message : Fault → Text
  | wrongType expected found =>
    "expected ".toList ++ Text.join " or ".toList expected ++ ", found ".toList ++ found
  | alternatives total accepting =>
    "expected exactly one of ".toList ++ Text.ofNat total ++ " alternatives to match, ".toList ++
      Text.ofNat accepting ++ " matched".toList
  | unresolved reference => "unresolvable schema reference ".toList ++ reference

/-- A fault and the pointer to the value that has it. -/
structure Violation where
  /-- The JSON pointer to the value. -/
  pointer : Text
  /-- What is wrong with it. -/
  fault : Fault
  deriving DecidableEq, Repr

/-- A violation in words; the root is shown as a slash. -/
def Violation.message (v : Violation) : Text :=
  (if v.pointer = [] then ['/'] else v.pointer) ++ ':' :: ' ' :: v.fault.message

/-- The pointer to a part of the value at `here`. -/
def below (here name : Text) : Text := here ++ '/' :: Json.escapeSegment name

/-- The place that a reference names: the root itself, or a pointer into it. -/
def resolve? (root : Json) (reference : Text) : Option Json :=
  match reference with
  | '#' :: pointer => root.pointer? pointer
  | _ => none

/-- The types that a `type` keyword names: one, or the texts of a list. Any other value names no
types and restricts nothing. -/
def typeNames? : Json → Option (List Text)
  | .string name => some [name]
  | .array names => some (names.filterMap Json.text?)
  | _ => none

/-- Whether a value has the named type. An unknown name fits every value. -/
def hasType (v : Json) (name : Text) : Bool :=
  if name = "number".toList then v.typeName = name
  else if name = "integer".toList then match v with | .integer _ => true | _ => false
  else if ["object".toList, "array".toList, "string".toList, "boolean".toList,
      "null".toList].contains name then v.typeName = name
  else true

/-- Whether a value has one of the types that a `type` keyword names. -/
def typeFault? (expected v : Json) : Option Fault :=
  match typeNames? expected with
  | some names => if names.any (hasType v) then none else some (.wrongType names v.typeName)
  | none => none

/-- The fault of a value that exactly one of some alternatives should accept, from the violations
that each of them finds. -/
def alternativesFault? (found : List (List Violation)) : Option Fault :=
  let accepting := found.countP List.isEmpty
  if accepting = 1 then none else some (.alternatives found.length accepting)

/-- The violations of the value `v` at `here` against a schema of the document `root`, unless they
take more than the given number of nested steps. A reference stands for the schema it names, and a
value of the wrong type is not looked into. -/
def check (root : Json) : Nat → Json → Json → Text → Option (List Violation)
  | 0, _, _, _ => none
  | fuel + 1, schema, v, here =>
    match schema.fields? with
    | none => some []
    | some keywords =>
      match (keywords.find? "$ref".toList).bind Json.text? with
      | some reference =>
        match resolve? root reference with
        | some target => check root fuel target v here
        | none => some [⟨here, .unresolved reference⟩]
      | none =>
        match (keywords.find? "type".toList).bind fun expected => typeFault? expected v with
        | some fault => some [⟨here, fault⟩]
        | none => do
          let ofAlternatives ←
            match (keywords.find? "oneOf".toList).bind Json.items? with
            | some schemas => do
              let found ← schemas.mapM fun s => check root fuel s v []
              some ((alternativesFault? found).map (⟨here, ·⟩)).toList
            | none => some []
          let ofProperties ←
            match (keywords.find? "properties".toList).bind Json.fields?, v.fields? with
            | some schemas, some fields => do
              let found ← schemas.mapM fun (name, s) =>
                match Table.find? fields name with
                | some part => check root fuel s part (below here name)
                | none => some []
              some found.flatten
            | _, _ => some []
          let ofItems ←
            match keywords.find? "items".toList, v.items? with
            | some s, some items => do
              let found ← items.zipIdx.mapM fun (part, i) =>
                check root fuel s part (below here (Text.ofNat i))
              some found.flatten
            | _, _ => some []
          some (ofAlternatives ++ ofProperties ++ ofItems)

/-- Steps enough for every schema that never leads from a node back to itself at one value: at each
level of the value every node of the document is passed at most once. -/
def fuelFor (root v : Json) : Nat := (root.size + 1) * (v.depth + 1)

/-- The violations of a value against the schema `root`. -/
def violations? (root v : Json) : Option (List Violation) := check root (fuelFor root v) root v []

end Schema

end DocSite
