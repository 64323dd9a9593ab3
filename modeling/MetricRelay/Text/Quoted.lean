import MetricRelay.Text.Visible

/-!
# Quoted text

Messages show foreign text between double quotes, so that blanks at its ends and characters that
cannot be seen are noticed.  A quote and a backslash are escaped, four controls have short
escapes, and every other character that is not visible is written by its code point.

Main definition:

- `quoted`: a text as a message shows it.
-/

namespace MetricRelay.Text

/-- A number in base sixteen, in lower case and without leading zeros. -/
def hexNumber (n : Nat) : List Char :=
  Nat.toDigits 16 n

/-- One character inside a quoted text. -/
def quotedChar (c : Char) : List Char :=
  match c with
  | '"' => ['\\', '"']
  | '\\' => ['\\', '\\']
  | '\n' => ['\\', 'n']
  | '\r' => ['\\', 'r']
  | '\t' => ['\\', 't']
  | '\x00' => ['\\', '0']
  | c => if isVisible c then [c] else ['\\', 'u', '\x7b'] ++ hexNumber c.toNat ++ ['\x7d']

/-- A text between double quotes, with its unseen characters escaped. -/
def quoted (s : String) : String :=
  String.ofList (['"'] ++ s.toList.flatMap quotedChar ++ ['"'])

end MetricRelay.Text
