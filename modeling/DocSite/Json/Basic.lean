import DocSite.Table

/-!
# JSON values

* `Json` : a value. A whole number that fits 64 bits is an `integer`, every other number a `real`.
* `Json.typeName` : the name of a value's type.
* `Json.size`, `Json.depth` : how large and how deep a value is.
* `Json.pointer?` : the value that a JSON pointer selects.
-/

namespace DocSite

/-- A JSON value. The fields of an object stand in ascending order of distinct names if the value
was read from text. -/
inductive Json where
  | null
  | bool (b : Bool)
  /-- A whole number. -/
  | integer (n : Int)
  /-- The number `mantissa * 10 ^ exponent`. -/
  | real (mantissa exponent : Int)
  | string (s : Text)
  | array (items : List Json)
  | object (fields : List (Text × Json))
  deriving Repr

namespace Json

/-- The name of the type of a value. -/
def typeName : Json → Text
  | null => "null".toList
  | bool _ => "boolean".toList
  | integer _ => "number".toList
  | real _ _ => "number".toList
  | string _ => "string".toList
  | array _ => "array".toList
  | object _ => "object".toList

/-- The fields of an object. -/
def fields? : Json → Option (Table Json)
  | object fields => some fields
  | _ => none

/-- The elements of an array. -/
def items? : Json → Option (List Json)
  | array items => some items
  | _ => none

/-- The text of a string. -/
def text? : Json → Option Text
  | string s => some s
  | _ => none

/-- The value of a field of an object. -/
def field? (v : Json) (name : Text) : Option Json := v.fields?.bind (·.find? name)

/-! ### Measures -/

mutual

/-- How many values there are in a value, itself included. -/
def size : Json → Nat
  | array items => sizeItems items + 1
  | object fields => sizeFields fields + 1
  | _ => 1

/-- How many values there are in the elements of an array. -/
def sizeItems : List Json → Nat
  | [] => 0
  | v :: rest => size v + sizeItems rest

/-- How many values there are in the fields of an object. -/
def sizeFields : List (Text × Json) → Nat
  | [] => 0
  | (_, v) :: rest => size v + sizeFields rest

end

mutual

/-- How many arrays and objects stand within each other. -/
def depth : Json → Nat
  | array items => depthItems items + 1
  | object fields => depthFields fields + 1
  | _ => 0

/-- The greatest depth of the elements of an array. -/
def depthItems : List Json → Nat
  | [] => 0
  | v :: rest => max (depth v) (depthItems rest)

/-- The greatest depth of the fields of an object. -/
def depthFields : List (Text × Json) → Nat
  | [] => 0
  | (_, v) :: rest => max (depth v) (depthFields rest)

end

/-! ### Pointers -/

/-- A segment of a pointer as it is written: `~` and `/` stand as `~0` and `~1`. -/
def escapeSegment (name : Text) : Text :=
  Text.replace '/' ['~', '1'] (Text.replace '~' ['~', '0'] name)

/-- The name that a written segment stands for. A tilde before any other character is itself. -/
def unescapeSegment : Text → Text
  | '~' :: '0' :: rest => '~' :: unescapeSegment rest
  | '~' :: '1' :: rest => '/' :: unescapeSegment rest
  | c :: rest => c :: unescapeSegment rest
  | [] => []

/-- The position that a written segment names in an array: digits with no zero before others. -/
def arrayIndex? (segment : Text) : Option Nat :=
  if segment.head? = some '0' ∧ segment.length ≠ 1 then none else Text.toNat? segment

/-- The part of a value that one segment selects. -/
def child? (v : Json) (segment : Text) : Option Json :=
  match v with
  | object fields => Table.find? fields (unescapeSegment segment)
  | array items => (arrayIndex? segment).bind fun i => items[i]?
  | _ => none

/-- The part of a value that a pointer selects: each segment follows a slash. -/
def pointer? (v : Json) (pointer : Text) : Option Json :=
  match pointer with
  | [] => some v
  | '/' :: path => (path.splitOn '/').foldlM child? v
  | _ => none

end Json

end DocSite
