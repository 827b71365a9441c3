import DocSite.Toml.Scalar
import DocSite.Toml.Strings
import DocSite.Toml.Table

/-!
# Reading TOML

* `Toml.valueAt?` : the value at the start of a text.
* `Toml.sections?` : the keys before all headers, and the sections of a text.
* `Toml.read?` : the document in a text.
-/

namespace DocSite

namespace Toml

/-! ### Space -/

/-- What follows the white space in a line. -/
def skipBlanks (s : Text) : Text := s.dropWhile isBlankChar

/-- What follows white space, line ends and comments, where `comment` says whether a comment has
begun. -/
def gapFrom? : (comment : Bool) → Text → Option Text
  | _, [] => some []
  | _, '\n' :: rest => gapFrom? false rest
  | _, '\r' :: '\n' :: rest => gapFrom? false rest
  | true, c :: rest => if isPlain c then gapFrom? true rest else none
  | false, c :: rest =>
    if isBlankChar c then gapFrom? false rest
    else if c = '#' then gapFrom? true rest
    else some (c :: rest)

/-- What follows white space, line ends and comments. -/
def gap? (s : Text) : Option Text := gapFrom? false s

/-- What follows the end of a line, and the white space, line ends and comments after it. -/
def lineEnd? (s : Text) : Option Text :=
  match skipBlanks s with
  | [] => some []
  | c :: rest => if c = '#' ∨ c = '\r' ∨ c = '\n' then gap? (c :: rest) else none

/-! ### Keys -/

/-- A character of a key without quotes. -/
def isKeyChar (c : Char) : Bool := c.isAlphanum || c = '-' || c = '_'

/-- The part of a key at the start of a text, and what follows it. -/
def keyPart? (s : Text) : Option (Text × Text) :=
  match s with
  | '"' :: '"' :: '"' :: _ => none
  | '\'' :: '\'' :: '\'' :: _ => none
  | '"' :: rest => basic? rest
  | '\'' :: rest => literal? rest
  | _ =>
    match s.takeWhile isKeyChar with
    | [] => none
    | part => some (part, s.dropWhile isKeyChar)

/-- The parts of the key at the start of a text, and what follows it and white space. -/
def keyWithin? : (fuel : Nat) → Text → Option (List Text × Text)
  | 0, _ => none
  | fuel + 1, s => do
    let (part, s) ← keyPart? s
    match skipBlanks s with
    | '.' :: rest =>
      (keyWithin? fuel (skipBlanks rest)).map fun (parts, rest) => (part :: parts, rest)
    | rest => some ([part], rest)

/-- How many parts a key may have. -/
def maxParts : Nat := 80

/-- The parts of the key at the start of a text, and what follows it and white space. -/
def key? (s : Text) : Option (List Text × Text) :=
  (keyWithin? (s.length + 1) s).filter fun (parts, _) => parts.length ≤ maxParts

/-- What follows a character at the start of a text. -/
def mark? (c : Char) : Text → Option Text
  | [] => none
  | d :: rest => if d = c then some rest else none

/-! ### Values -/

mutual

/-- The value at the start of a text, and what follows it. -/
def valueWithin? : (fuel : Nat) → Text → Option (Toml × Text)
  | 0, _ => none
  | fuel + 1, s =>
    match s with
    | '"' :: '"' :: '"' :: rest => (longBasic? rest).map fun (t, rest) => (.string t, rest)
    | '\'' :: '\'' :: '\'' :: rest => (longLiteral? rest).map fun (t, rest) => (.string t, rest)
    | '"' :: rest => (basic? rest).map fun (t, rest) => (.string t, rest)
    | '\'' :: rest => (literal? rest).map fun (t, rest) => (.string t, rest)
    | '[' :: rest => (items? fuel rest).map fun (items, rest) => (.array items, rest)
    | '\x7b' :: rest => do
      let (rows, rest) ← rows? fuel rest
      some (.table .inline (← assignAll? .inline [] rows), rest)
    | _ => scalarAt? s

/-- The items of an array up to its closing bracket, and what follows it. -/
def items? : (fuel : Nat) → Text → Option (List Toml × Text)
  | 0, _ => none
  | fuel + 1, s => do
    match ← gap? s with
    | ']' :: rest => some ([], rest)
    | s => do
      let (item, s) ← valueWithin? fuel s
      match ← gap? s with
      | ',' :: rest => (items? fuel rest).map fun (items, rest) => (item :: items, rest)
      | ']' :: rest => some ([item], rest)
      | _ => none

/-- The keys of a table in braces and their values, up to its closing brace, and what follows it. -/
def rows? : (fuel : Nat) → Text → Option (List (List Text × Toml) × Text)
  | 0, _ => none
  | fuel + 1, s => do
    match ← gap? s with
    | '\x7d' :: rest => some ([], rest)
    | s => do
      let (parts, s) ← key? s
      let (value, s) ← valueWithin? fuel (← mark? '=' (← gap? s) >>= gap?)
      match ← gap? s with
      | ',' :: rest => (rows? fuel rest).map fun (rows, rest) => ((parts, value) :: rows, rest)
      | '\x7d' :: rest => some ([(parts, value)], rest)
      | _ => none

end

/-- How many brackets and braces may stand within each other. -/
def maxDepth : Nat := 80

/-- The value at the start of a text, and what follows it. Every step of the reader passes a
character, so twice the length of the text is fuel enough. -/
def valueAt? (s : Text) : Option (Toml × Text) :=
  (valueWithin? (2 * s.length + 1) s).filter fun (v, _) => v.depth ≤ maxDepth

/-! ### Documents -/

/-- The key at the start of a text with its value, and what follows the end of the line. -/
def row? (s : Text) : Option ((List Text × Toml) × Text) := do
  let (parts, s) ← key? s
  let (value, s) ← valueAt? (skipBlanks (← mark? '=' s))
  some ((parts, value), ← lineEnd? s)

/-- The header that follows an opening bracket, and what follows the end of the line. -/
def header? (s : Text) : Option (Header × Text) :=
  match s with
  | '[' :: rest => do
    let (parts, s) ← key? (skipBlanks rest)
    some (⟨parts, true⟩, ← lineEnd? (← mark? ']' (← mark? ']' s)))
  | _ => do
    let (parts, s) ← key? (skipBlanks s)
    some (⟨parts, false⟩, ← lineEnd? (← mark? ']' s))

/-- The keys before the first header of a text, and the sections from there on. -/
def sectionsWithin? : (fuel : Nat) → Text → Option (List (List Text × Toml) × List Section)
  | _, [] => some ([], [])
  | 0, _ => none
  | fuel + 1, '[' :: s => do
    let (header, s) ← header? s
    let (rows, sections) ← sectionsWithin? fuel s
    some ([], ⟨header, rows⟩ :: sections)
  | fuel + 1, s => do
    let (row, s) ← row? s
    let (rows, sections) ← sectionsWithin? fuel s
    some (row :: rows, sections)

/-- The keys before the first header of a text, and the sections from there on. A byte order mark at
its start is left out. -/
def sections? (s : Text) : Option (List (List Text × Toml) × List Section) := do
  let s := if s.head? = some '\uFEFF' then s.drop 1 else s
  let s ← (gap? s)
  sectionsWithin? s.length s

/-- The document in a text. -/
def read? (s : Text) : Option Toml := do
  let (rows, sections) ← sections? s
  ofSections? rows sections

end Toml

end DocSite
