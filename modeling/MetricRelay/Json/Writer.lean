import MetricRelay.Json.Token

/-!
# Writing JSON texts

A string is written between quotes.  A quote, a backslash and the control characters below the
space are escaped; every other character stands as it is.

Main definitions:

- `quote`: a string.
- `object`, `list`: compact brackets around parts.
-/

namespace MetricRelay.Json

/-- One character of a string. -/
def quoteChar (c : Char) : List Char :=
  if c = '"' then ['\\', '"']
  else if c = '\\' then ['\\', '\\']
  else if c = '\x08' then ['\\', 'b']
  else if c = '\x0c' then ['\\', 'f']
  else if c = '\n' then ['\\', 'n']
  else if c = '\r' then ['\\', 'r']
  else if c = '\t' then ['\\', 't']
  else if c.toNat < 0x20 then
    ['\\', 'u', '0', '0', Hex.digit (c.toNat / 16), Hex.digit (c.toNat % 16)]
  else [c]

/-- A string. -/
def quote (s : String) : List Char :=
  '"' :: s.toList.flatMap quoteChar ++ ['"']

/-- Parts with a separator between them. -/
def separated (separator : List Char) : List (List Char) → List Char
  | [] => []
  | [x] => x
  | x :: xs => x ++ separator ++ separated separator xs

/-- A key with the text of its value. -/
def member (key : String) (value : List Char) : List Char :=
  quote key ++ ':' :: value

/-- An object without blanks. -/
def object (members : List (List Char)) : List Char :=
  '\x7b' :: separated [','] members ++ ['\x7d']

/-- A list without blanks. -/
def list (items : List (List Char)) : List Char :=
  '[' :: separated [','] items ++ [']']

end MetricRelay.Json
