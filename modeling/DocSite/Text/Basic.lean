/-!
# Text

A text is a list of characters, so every rule of the library is a recursion on the text it reads.

* `Text.trim`, `Text.isBlank` : white space at the ends of a text, in all of it.
* `Text.splitFirst?`, `Text.splitLast?`, `Text.splitFirstText?` : cutting a text at a separator.
* `Text.position?` : where a fragment first occurs.
* `Text.ofNat`, `Text.toNat?` : decimal numerals.
-/

namespace DocSite

/-- A text: its characters in order. -/
abbrev Text := List Char

namespace Text

/-! ### White space -/

/-- The twenty-five characters with the `White_Space` property. -/
def isBlankChar (c : Char) : Bool :=
  let n := c.toNat
  (9 ≤ n && n ≤ 13) || n == 0x20 || n == 0x85 || n == 0xA0 || n == 0x1680 ||
    (0x2000 ≤ n && n ≤ 0x200A) || n == 0x2028 || n == 0x2029 || n == 0x202F || n == 0x205F ||
    n == 0x3000

/-- Nothing but white space. -/
def isBlank (s : Text) : Bool := s.all isBlankChar

/-- The text without the longest ending of characters that satisfy `p`. -/
def dropEndWhile (p : Char → Bool) (s : Text) : Text := (s.reverse.dropWhile p).reverse

/-- The text without leading white space. -/
def trimStart (s : Text) : Text := s.dropWhile isBlankChar

/-- The text without trailing white space. -/
def trimEnd (s : Text) : Text := s.dropEndWhile isBlankChar

/-- The text without white space at either end. -/
def trim (s : Text) : Text := trimEnd (trimStart s)

/-! ### Size -/

/-- How many bytes the text has in UTF-8. -/
def byteCount (s : Text) : Nat := s.foldr (fun c n => c.utf8Size + n) 0

/-! ### Cutting at a separator -/

/-- What stands before and after the first `sep`. -/
def splitFirst? (sep : Char) : Text → Option (Text × Text)
  | [] => none
  | c :: r => if c = sep then some ([], r) else (splitFirst? sep r).map fun (a, b) => (c :: a, b)

/-- What stands before and after the last `sep`. -/
def splitLast? (sep : Char) : Text → Option (Text × Text)
  | [] => none
  | c :: r =>
    match splitLast? sep r with
    | some (a, b) => some (c :: a, b)
    | none => if c = sep then some ([], r) else none

/-- What stands before and after the first occurrence of the text `sep`. -/
def splitFirstText? (sep : Text) : Text → Option (Text × Text)
  | [] => if sep = [] then some ([], []) else none
  | c :: r =>
    match sep.isPrefixOf? (c :: r) with
    | some rest => some ([], rest)
    | none => (splitFirstText? sep r).map fun (a, b) => (c :: a, b)

/-- How many characters stand before the first occurrence of `fragment`. -/
def position? (fragment s : Text) : Option Nat :=
  (splitFirstText? fragment s).map fun (a, _) => a.length

/-- Whether `fragment` occurs in the text. -/
def contains (fragment s : Text) : Bool := (splitFirstText? fragment s).isSome

/-- Each character of the text replaced by a text. -/
def replace (c : Char) (replacement s : Text) : Text :=
  s.flatMap fun d => if d = c then replacement else [d]

/-- Texts one after the other with `sep` between them. -/
def join (sep : Text) (parts : List Text) : Text := sep.intercalate parts

/-! ### Numerals -/

/-- A number in decimal digits. -/
def ofNat (n : Nat) : Text := Nat.toDigits 10 n

/-- An integer in decimal digits, with a minus sign if it is negative. -/
def ofInt : Int → Text
  | .ofNat n => ofNat n
  | .negSucc n => '-' :: ofNat (n + 1)

/-- The number that a non-empty run of decimal digits writes. -/
def toNat? (s : Text) : Option Nat :=
  if s ≠ [] ∧ s.all Char.isDigit then some (Nat.ofDigitChars 10 s 0) else none

/-- The number that decimal digits, with or without a plus sign before them, write, if it fits a
64-bit word. -/
def toWord? (s : Text) : Option Nat :=
  let digits := match s with | '+' :: r => r | r => r
  (toNat? digits).filter (· < Nat.pow 2 64)

/-- The number that a hexadecimal digit writes. -/
def hexDigit? (c : Char) : Option Nat :=
  if '0' ≤ c ∧ c ≤ '9' then some (c.toNat - 48)
  else if 'a' ≤ c ∧ c ≤ 'f' then some (c.toNat - 87)
  else if 'A' ≤ c ∧ c ≤ 'F' then some (c.toNat - 55)
  else none

/-- The number that hexadecimal digits write. -/
def hex? (digits : Text) : Option Nat :=
  digits.foldlM (fun n c => (hexDigit? c).map (16 * n + ·)) 0

/-- The order of texts by the code points of their characters. -/
def le (a b : Text) : Bool := !(b < a)

end Text

end DocSite
