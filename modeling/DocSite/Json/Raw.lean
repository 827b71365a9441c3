import DocSite.Json.Number

/-!
# JSON as it is written

Reading happens in two steps. The first finds the structure of the text and accepts all that the
grammar allows: objects with repeated keys, numbers of any size, escapes that pair with nothing.
What these mean is decided by what the text is read for: `Raw.toJson?` makes a value of all of it,
a record (see `DocSite.Json.Record`) looks only at the fields it knows.

* `Raw` : the structure of a text.
* `Raw.read?` : the structure, if the text follows the grammar.
* `Raw.toJson?` : the value, if every part of the text has one.
-/

namespace DocSite

namespace Json

/-- The structure of a JSON text. A string that holds half of a surrogate pair has no text. -/
inductive Raw where
  | null
  | bool (b : Bool)
  | number (n : Numeral)
  | string (s : Option Text)
  | array (items : List Raw)
  | object (fields : List (Option Text × Raw))
  deriving Repr

/-! ### Numbers -/

/-- The digits that lead a text, and the rest. -/
def digits (s : Text) : Text × Text := (s.takeWhile Char.isDigit, s.dropWhile Char.isDigit)

/-- The digits before the point: a zero stands alone. -/
def wholePart? (s : Text) : Option (Text × Text) :=
  match s with
  | '0' :: rest => if (rest.head?.map Char.isDigit).getD false then none else some (['0'], rest)
  | _ =>
    match digits s with
    | ([], _) => none
    | part => some part

/-- The digits after a point, none if there is no point. -/
def fractionPart? (s : Text) : Option (Option Text × Text) :=
  match s with
  | '.' :: rest =>
    match digits rest with
    | ([], _) => none
    | (ds, rest) => some (some ds, rest)
  | _ => some (none, s)

/-- The exponent, none if there is no `e`. -/
def exponentPart? (s : Text) : Option (Option Int × Text) :=
  match s with
  | c :: rest =>
    if c = 'e' ∨ c = 'E' then
      let (negative, rest) : Bool × Text :=
        match rest with
        | '-' :: r => (true, r)
        | '+' :: r => (false, r)
        | r => (false, r)
      match digits rest with
      | ([], _) => none
      | (ds, rest) =>
        let e : Int := Nat.ofDigitChars 10 ds 0
        some (some (if negative then -e else e), rest)
    else some (none, s)
  | [] => some (none, s)

/-- A numeral without its sign at the start of a text, and what follows it. -/
def numeral? (negative : Bool) (s : Text) : Option (Numeral × Text) := do
  let (ws, s) ← wholePart? s
  let (fs, s) ← fractionPart? s
  let (e, s) ← exponentPart? s
  some ({ negative, whole := ws, fraction? := fs, exponent? := e }, s)

/-! ### Strings -/

/-- The character that a letter after a backslash stands for. -/
def escaped? : Char → Option Char
  | '"' => some '"'
  | '\\' => some '\\'
  | '/' => some '/'
  | 'b' => some '\x08'
  | 'f' => some '\x0c'
  | 'n' => some '\n'
  | 'r' => some '\r'
  | 't' => some '\t'
  | _ => none

/-- What follows an opening quote: the code points and halves of surrogate pairs up to the closing
quote, and what comes after it. -/
def stringUnits? : Text → Option (List Nat × Text)
  | [] => none
  | '"' :: rest => some ([], rest)
  | '\\' :: 'u' :: a :: b :: c :: d :: rest => do
    let unit ← Text.hex? [a, b, c, d]
    let (units, rest) ← stringUnits? rest
    some (unit :: units, rest)
  | '\\' :: e :: rest => do
    let c ← escaped? e
    let (units, rest) ← stringUnits? rest
    some (c.toNat :: units, rest)
  | c :: rest =>
    if c.toNat < 0x20 ∨ c = '\\' then none
    else (stringUnits? rest).map fun (units, rest) => (c.toNat :: units, rest)

/-- Half of a surrogate pair that comes first. -/
def isHighHalf (n : Nat) : Bool := 0xD800 ≤ n && n < 0xDC00

/-- Half of a surrogate pair that comes second. -/
def isLowHalf (n : Nat) : Bool := 0xDC00 ≤ n && n < 0xE000

/-- The text of code points in which halves of surrogate pairs stand two by two. -/
def joinHalves? : List Nat → Option Text
  | [] => some []
  | n :: rest =>
    if isLowHalf n then none
    else if isHighHalf n then
      match rest with
      | m :: rest =>
        if isLowHalf m then
          (joinHalves? rest).map (Char.ofNat (0x10000 + (n - 0xD800) * 0x400 + (m - 0xDC00)) :: ·)
        else none
      | [] => none
    else (joinHalves? rest).map (Char.ofNat n :: ·)

/-- The string that follows an opening quote, and what comes after it. -/
def stringRest? (s : Text) : Option (Option Text × Text) :=
  (stringUnits? s).map fun (units, rest) => (joinHalves? units, rest)

/-! ### Structure -/

/-- White space between the parts of a JSON text. -/
def isSpace (c : Char) : Bool := c = ' ' || c = '\n' || c = '\t' || c = '\r'

/-- The text without leading white space. -/
def skipSpace (s : Text) : Text := s.dropWhile isSpace

mutual

/-- The value at the start of a text, and what follows it. -/
def rawValue? : Nat → Text → Option (Raw × Text)
  | 0, _ => none
  | fuel + 1, s =>
    match skipSpace s with
    | 'n' :: 'u' :: 'l' :: 'l' :: rest => some (.null, rest)
    | 't' :: 'r' :: 'u' :: 'e' :: rest => some (.bool true, rest)
    | 'f' :: 'a' :: 'l' :: 's' :: 'e' :: rest => some (.bool false, rest)
    | '"' :: rest => (stringRest? rest).map fun (s, rest) => (.string s, rest)
    | '[' :: rest =>
      match skipSpace rest with
      | ']' :: rest => some (.array [], rest)
      | _ => (rawItems? fuel rest).map fun (items, rest) => (.array items, rest)
    | '{' :: rest =>
      match skipSpace rest with
      | '}' :: rest => some (.object [], rest)
      | _ => (rawFields? fuel rest).map fun (fields, rest) => (.object fields, rest)
    | '-' :: rest => (numeral? true rest).map fun (n, rest) => (.number n, rest)
    | rest => (numeral? false rest).map fun (n, rest) => (.number n, rest)

/-- The elements of an array up to its closing bracket. -/
def rawItems? : Nat → Text → Option (List Raw × Text)
  | 0, _ => none
  | fuel + 1, s => do
    let (item, s) ← rawValue? fuel s
    match skipSpace s with
    | ',' :: rest => (rawItems? fuel rest).map fun (items, rest) => (item :: items, rest)
    | ']' :: rest => some ([item], rest)
    | _ => none

/-- The fields of an object up to its closing brace. -/
def rawFields? : Nat → Text → Option (List (Option Text × Raw) × Text)
  | 0, _ => none
  | fuel + 1, s =>
    match skipSpace s with
    | '"' :: rest => do
      let (name, s) ← stringRest? rest
      match skipSpace s with
      | ':' :: rest => do
        let (value, s) ← rawValue? fuel rest
        match skipSpace s with
        | ',' :: rest =>
          (rawFields? fuel rest).map fun (fields, rest) => ((name, value) :: fields, rest)
        | '}' :: rest => some ([(name, value)], rest)
        | _ => none
      | _ => none
    | _ => none

end

namespace Raw

/-- The structure of a text that is one JSON value. Every step of the reader passes a character, so
twice the length of the text is fuel enough. -/
def read? (s : Text) : Option Raw := do
  let (v, rest) ← rawValue? (2 * s.length + 1) s
  if skipSpace rest = [] then some v else none

/-- How many arrays and objects may stand within each other. -/
def maxNesting : Nat := 127

/-- The value of a structure with at most `depth` arrays and objects within each other. The last of
repeated keys wins. -/
def toJsonWithin? : Nat → Raw → Option Json
  | _, null => some .null
  | _, bool b => some (.bool b)
  | _, number n => ofNumeral? n
  | _, string s => s.map .string
  | 0, array _ => none
  | 0, object _ => none
  | depth + 1, array items => (items.mapM (toJsonWithin? depth)).map .array
  | depth + 1, object fields => do
    let rows ← fields.mapM fun (name, value) => do
      some (← name, ← toJsonWithin? depth value)
    some (.object (Table.ofList rows))

/-- The value of a structure. -/
def toJson? (r : Raw) : Option Json := r.toJsonWithin? maxNesting

end Raw

/-- The value that a text writes. -/
def read? (s : Text) : Option Json := (Raw.read? s).bind Raw.toJson?

end Json

end DocSite
