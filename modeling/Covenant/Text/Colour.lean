/-!
# Coloured output

A coloured text is wrapped in the sequences with which a terminal changes its colour.
-/

namespace Covenant.Text

inductive Colour
  | red | green | blue | yellow | magenta
  deriving DecidableEq, Repr

/-- The terminal's number for the colour. -/
def Colour.code : Colour → String
  | .red => "31"
  | .green => "32"
  | .blue => "34"
  | .yellow => "33"
  | .magenta => "35"

/-- The text in the colour, with the terminal's own colour again after it. -/
def Colour.paint (c : Colour) (s : String) : String :=
  "\x1b[" ++ c.code ++ "m" ++ s ++ "\x1b[0m"

end Covenant.Text
