import DocSite.Json.Basic

/-!
# Printing JSON

* `Json.quote` : a text as a JSON string.
* `Json.compact` : a value on one line without blanks.
* `Json.pretty` : a value with one element or field a line, two blanks to a level.
-/

namespace DocSite

namespace Json

/-- A hexadecimal digit. -/
def hexChar (n : Nat) : Char := Nat.digitChar n

/-- A character within a JSON string: quotes, backslashes and control characters are escaped. -/
def escapeChar (c : Char) : Text :=
  if c = '"' then ['\\', '"']
  else if c = '\\' then ['\\', '\\']
  else if c = '\n' then ['\\', 'n']
  else if c = '\r' then ['\\', 'r']
  else if c = '\t' then ['\\', 't']
  else if c = '\x08' then ['\\', 'b']
  else if c = '\x0c' then ['\\', 'f']
  else if c.toNat < 0x20 then ['\\', 'u', '0', '0', hexChar (c.toNat / 16), hexChar (c.toNat % 16)]
  else [c]

/-- A text as a JSON string. -/
def quote (s : Text) : Text := '"' :: s.flatMap escapeChar ++ ['"']

/-- A value that has no parts. -/
def scalar : Json → Text
  | null => "null".toList
  | bool true => "true".toList
  | bool false => "false".toList
  | integer n => Text.ofInt n
  | real m e => Text.ofInt m ++ 'e' :: Text.ofInt e
  | string s => quote s
  | array _ => "[]".toList
  | object _ => ['\x7b', '\x7d']

mutual

/-- A value on one line without blanks. -/
def compact : Json → Text
  | array items => '[' :: compactItems items ++ [']']
  | object fields => '\x7b' :: compactFields fields ++ ['\x7d']
  | v => scalar v

/-- Elements with commas between them. -/
def compactItems : List Json → Text
  | [] => []
  | [v] => compact v
  | v :: w :: rest => compact v ++ ',' :: compactItems (w :: rest)

/-- Fields with commas between them. -/
def compactFields : List (Text × Json) → Text
  | [] => []
  | [(name, v)] => quote name ++ ':' :: compact v
  | (name, v) :: f :: rest => quote name ++ ':' :: compact v ++ ',' :: compactFields (f :: rest)

end

/-- A line break and the blanks of a level. -/
def newline (level : Nat) : Text := '\n' :: List.replicate (2 * level) ' '

mutual

/-- A value at a level, one element or field a line. -/
def prettyAt (level : Nat) : Json → Text
  | array (v :: rest) =>
    '[' :: prettyItems (level + 1) (v :: rest) ++ newline level ++ [']']
  | object (f :: rest) =>
    '\x7b' :: prettyFields (level + 1) (f :: rest) ++ newline level ++ ['\x7d']
  | v => scalar v

/-- Elements on lines of their own. -/
def prettyItems (level : Nat) : List Json → Text
  | [] => []
  | [v] => newline level ++ prettyAt level v
  | v :: w :: rest => newline level ++ prettyAt level v ++ ',' :: prettyItems level (w :: rest)

/-- Fields on lines of their own. -/
def prettyFields (level : Nat) : List (Text × Json) → Text
  | [] => []
  | [(name, v)] => newline level ++ quote name ++ ':' :: ' ' :: prettyAt level v
  | (name, v) :: f :: rest =>
    newline level ++ quote name ++ ':' :: ' ' :: prettyAt level v ++
      ',' :: prettyFields level (f :: rest)

end

/-- A value with one element or field a line. -/
def pretty (v : Json) : Text := prettyAt 0 v

end Json

end DocSite
