import DocSite.Text.Basic

/-!
# Strings in TOML

Strings stand in double quotes, where a backslash escapes characters, or in single quotes, where it
does not. In three quotes a string goes on over line ends.

* `Toml.basic?`, `Toml.literal?` : what follows a double or a single quote.
* `Toml.longBasic?`, `Toml.longLiteral?` : what follows three quotes.
-/

namespace DocSite

namespace Toml

/-- A character that may stand in a comment or a string: no control character but the tab. -/
def isPlain (c : Char) : Bool := c = '\t' || (0x20 ≤ c.toNat && c.toNat ≠ 0x7F)

/-- White space in a line. -/
def isBlankChar (c : Char) : Bool := c = ' ' || c = '\t'

/-! ### Escapes -/

/-- The character whose code point hexadecimal digits write. -/
def codePoint? (digits : Text) : Option Char := do
  let n ← Text.hex? digits
  if n.isValidChar then some (Char.ofNat n) else none

/-- The character that a letter after a backslash stands for. -/
def escaped? : Char → Option Char
  | '"' => some '"'
  | '\\' => some '\\'
  | 'b' => some '\x08'
  | 'e' => some '\x1b'
  | 'f' => some '\x0c'
  | 'n' => some '\n'
  | 'r' => some '\r'
  | 't' => some '\t'
  | _ => none

/-- The characters before those that a reader finds. -/
def after? (s : Text) (found : Option (Text × Text)) : Option (Text × Text) :=
  found.map fun (t, rest) => (s ++ t, rest)

/-! ### Strings in one line -/

/-- The string after a double quote, and what follows the quote that ends it. -/
def basic? : Text → Option (Text × Text)
  | [] => none
  | '"' :: rest => some ([], rest)
  | '\\' :: 'x' :: a :: b :: rest => do
    after? [← codePoint? [a, b]] (basic? rest)
  | '\\' :: 'u' :: a :: b :: c :: d :: rest => do
    after? [← codePoint? [a, b, c, d]] (basic? rest)
  | '\\' :: 'U' :: a :: b :: c :: d :: e :: f :: g :: h :: rest => do
    after? [← codePoint? [a, b, c, d, e, f, g, h]] (basic? rest)
  | '\\' :: c :: rest => do after? [← escaped? c] (basic? rest)
  | c :: rest => if isPlain c && c ≠ '\\' then after? [c] (basic? rest) else none

/-- The string after a single quote, and what follows the quote that ends it. -/
def literal? : Text → Option (Text × Text)
  | [] => none
  | '\'' :: rest => some ([], rest)
  | c :: rest => if isPlain c then after? [c] (literal? rest) else none

/-! ### Strings over line ends -/

/-- The text without the line end that it starts with. -/
def dropNewline : Text → Text
  | '\n' :: rest => rest
  | '\r' :: '\n' :: rest => rest
  | s => s

/-- Where the reader of a long string is: in the string, or after a backslash at the end of a line,
which leaves out that line end and all white space after it. -/
inductive LineJoin where
  | none
  /-- The end of the line is still to come. -/
  | pending
  /-- The end of the line has come. -/
  | joined
  deriving DecidableEq, Repr

/-- The string after three double quotes, and what follows the quotes that end it: up to two more
quotes before those are part of it. -/
def longBasicFrom? : LineJoin → Text → Option (Text × Text)
  | _, [] => none
  | .pending, '\r' :: '\n' :: rest => longBasicFrom? .joined rest
  | .joined, '\r' :: '\n' :: rest => longBasicFrom? .joined rest
  | .pending, c :: rest =>
    if isBlankChar c then longBasicFrom? .pending rest
    else if c = '\n' then longBasicFrom? .joined rest
    else none
  | .joined, ' ' :: rest => longBasicFrom? .joined rest
  | .joined, '\t' :: rest => longBasicFrom? .joined rest
  | .joined, '\n' :: rest => longBasicFrom? .joined rest
  | _, '"' :: '"' :: '"' :: '"' :: '"' :: rest => some (['"', '"'], rest)
  | _, '"' :: '"' :: '"' :: '"' :: rest => some (['"'], rest)
  | _, '"' :: '"' :: '"' :: rest => some ([], rest)
  | _, '\\' :: 'x' :: a :: b :: rest => do
    after? [← codePoint? [a, b]] (longBasicFrom? .none rest)
  | _, '\\' :: 'u' :: a :: b :: c :: d :: rest => do
    after? [← codePoint? [a, b, c, d]] (longBasicFrom? .none rest)
  | _, '\\' :: 'U' :: a :: b :: c :: d :: e :: f :: g :: h :: rest => do
    after? [← codePoint? [a, b, c, d, e, f, g, h]] (longBasicFrom? .none rest)
  | _, '\\' :: '\r' :: '\n' :: rest => longBasicFrom? .joined rest
  | _, '\\' :: '\n' :: rest => longBasicFrom? .joined rest
  | _, '\\' :: c :: rest =>
    if isBlankChar c then longBasicFrom? .pending rest
    else do after? [← escaped? c] (longBasicFrom? .none rest)
  | _, '\r' :: '\n' :: rest => after? ['\r', '\n'] (longBasicFrom? .none rest)
  | _, c :: rest =>
    if (isPlain c && c ≠ '\\') || c = '\n' then after? [c] (longBasicFrom? .none rest) else none

/-- The string after three double quotes, and what follows the quotes that end it. A line end right
at its start is not part of it. -/
def longBasic? (s : Text) : Option (Text × Text) := longBasicFrom? .none (dropNewline s)

/-- The string after three single quotes and a line end, and what follows the quotes that end it: up
to two more quotes before those are part of it. -/
def longLiteralFrom? : Text → Option (Text × Text)
  | [] => none
  | '\'' :: '\'' :: '\'' :: '\'' :: '\'' :: rest => some (['\'', '\''], rest)
  | '\'' :: '\'' :: '\'' :: '\'' :: rest => some (['\''], rest)
  | '\'' :: '\'' :: '\'' :: rest => some ([], rest)
  | '\r' :: '\n' :: rest => after? ['\r', '\n'] (longLiteralFrom? rest)
  | c :: rest => if isPlain c || c = '\n' then after? [c] (longLiteralFrom? rest) else none

/-- The string after three single quotes, and what follows the quotes that end it. A line end right
at its start is not part of it. -/
def longLiteral? (s : Text) : Option (Text × Text) := longLiteralFrom? (dropNewline s)

end Toml

end DocSite
