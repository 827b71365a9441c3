import DocSite.Text.Letters

/-!
# Attribute lists

The brackets of a macro hold attributes: slots separated by commas, each named (`key=value`) or
known by its number. A comma within single or double quotes separates nothing, and a value loses the
quotes around it.

* `Attribute.slots` : the texts of the slots.
* `Attributes.read` : the attributes in a list.
* `Attributes.find?` : what a list says of a key: nothing, that it is there, or its value.
* `Attributes.only?` : the attribute of a list that holds one slot without a name.
-/

namespace DocSite

/-- What an attribute is known by. -/
inductive Attribute.Key where
  /-- The number of its slot, from one on. -/
  | slot (n : Nat)
  /-- Its name. -/
  | name (s : Text)
  deriving DecidableEq, Repr

/-- An entry of an attribute list. An empty slot is there without a value. -/
structure Attribute where
  key : Attribute.Key
  value? : Option Text
  deriving DecidableEq, Repr

/-- The attributes of a macro in order. -/
abbrev Attributes := List Attribute

namespace Attribute

/-- A quote that keeps commas from separating slots. -/
def isQuote (c : Char) : Bool := c = '"' || c = '\''

/-- The texts with a character before the first of them. -/
def onFirst (c : Char) : List Text → List Text
  | [] => [[c]]
  | s :: rest => (c :: s) :: rest

/-- The texts of the slots that follow, where `quote` is the quote that is open. -/
def slotsFrom : (quote : Option Char) → Text → List Text
  | _, [] => [[]]
  | none, c :: rest =>
    if c = ',' then [] :: slotsFrom none rest
    else onFirst c (slotsFrom (if isQuote c then some c else none) rest)
  | some q, c :: rest => onFirst c (slotsFrom (if c = q then none else some q) rest)

/-- The texts of the slots of a list. -/
def slots (list : Text) : List Text := slotsFrom none list

/-- A name that an attribute can have. -/
def isName : Text → Bool
  | [] => false
  | c :: rest =>
    (Text.isLetter c || c = '_') &&
      rest.all fun d => Text.isAlphanumeric d || d = '_' || d = '-'

/-- The text between two quotes `q` at its ends. -/
def between? (q : Char) : Text → Option Text
  | [] => none
  | c :: rest => if c = q ∧ rest.getLast? = some q then some rest.dropLast else none

/-- A value without the quotes around it. -/
def unquote (s : Text) : Text := ((between? '"' s).or (between? '\'' s)).getD s

/-- The name and the value of a slot that has a name. -/
def named? (slot : Text) : Option (Text × Text) :=
  match Text.splitFirst? '=' slot with
  | some (key, value) =>
    if isName key.trim then some (key.trim, unquote value.trim) else none
  | none => none

/-- The attribute in the slot with number `n`. -/
def ofSlot (n : Nat) (slot : Text) : Attribute :=
  match named? slot.trim with
  | some (name, value) => ⟨.name name, some value⟩
  | none =>
    let value := unquote slot.trim
    ⟨.slot n, if value = [] then none else some value⟩

end Attribute

namespace Attributes

/-- The attributes in a list. A blank list has none. -/
def read (list : Text) : Attributes :=
  if Text.isBlank list then []
  else (Attribute.slots list).zipIdx.map fun (slot, i) => Attribute.ofSlot (i + 1) slot

/-- What the list says of a key: nothing, or a value that may be missing. -/
def find? (as : Attributes) (key : Attribute.Key) : Option (Option Text) :=
  (List.find? (fun a => a.key = key) as).map (·.value?)

/-- What the list says of a name. -/
def named? (as : Attributes) (name : Text) : Option (Option Text) := as.find? (.name name)

/-- What the list says of a slot. -/
def slot? (as : Attributes) (n : Nat) : Option (Option Text) := as.find? (.slot n)

/-- What the first slot says, if it is the only one and has no name. -/
def only? : Attributes → Option (Option Text)
  | [⟨.slot 1, value⟩] => some value
  | _ => none

end Attributes

end DocSite
