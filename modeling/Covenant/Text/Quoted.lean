import Covenant.Text.Printable

/-!
# Quoted texts

How messages show a text: in single quotes, or in double quotes when it has a single quote and no
double one. The quote in use, the backslash and what cannot be printed are escaped.
-/

namespace Covenant.Text

/-- The last `n` hexadecimal digits of `k`. -/
def hexDigits : Nat → Nat → List Char
  | 0, _ => []
  | n + 1, k => hexDigits n (k / 16) ++ [Nat.digitChar (k % 16)]

/-- One character of a text that is quoted with `quote`. -/
def escape (quote c : Char) : List Char :=
  let n := c.toNat
  if c = quote ∨ c = '\\' then ['\\', c]
  else if c = '\t' then ['\\', 't']
  else if c = '\n' then ['\\', 'n']
  else if c = '\r' then ['\\', 'r']
  else if 0x20 ≤ n ∧ n < 0x7f then [c]
  else if 0x7f < n ∧ isPrintable c then [c]
  else if n < 0x100 then '\\' :: 'x' :: hexDigits 2 n
  else if n < 0x10000 then '\\' :: 'u' :: hexDigits 4 n
  else '\\' :: 'U' :: hexDigits 8 n

/-- The quote for a text. -/
def quoteFor (s : List Char) : Char :=
  if s.elem '\'' && !s.elem '"' then '"' else '\''

/-- The text in quotes. -/
def quotedChars (s : List Char) : List Char :=
  let q := quoteFor s
  q :: s.flatMap (escape q) ++ [q]

def quoted (s : String) : String := String.ofList (quotedChars s.toList)

end Covenant.Text
