/-!
# Base 64

Three bytes are written as four letters; a last group of one or two bytes is padded with `=`.
-/

namespace Covenant.Text

/-- The letter for a value below 64. -/
def base64Letter (n : Nat) : Char :=
  if n < 26 then Char.ofNat (65 + n)
  else if n < 52 then Char.ofNat (71 + n)
  else if n < 62 then Char.ofNat (n - 4)
  else if n = 62 then '+'
  else '/'

/-- The letters for the bytes. -/
def base64Chars : List UInt8 → List Char
  | a :: b :: c :: r =>
    let n := a.toNat * 65536 + b.toNat * 256 + c.toNat
    base64Letter (n / 262144) :: base64Letter (n / 4096 % 64) :: base64Letter (n / 64 % 64) ::
      base64Letter (n % 64) :: base64Chars r
  | [a, b] =>
    let n := a.toNat * 256 + b.toNat
    [base64Letter (n / 1024), base64Letter (n / 16 % 64), base64Letter (n % 16 * 4), '=']
  | [a] => [base64Letter (a.toNat / 4), base64Letter (a.toNat % 4 * 16), '=', '=']
  | [] => []

def base64 (bytes : List UInt8) : String := String.ofList (base64Chars bytes)

end Covenant.Text
