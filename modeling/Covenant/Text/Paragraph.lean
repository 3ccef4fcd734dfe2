/-!
# Indented paragraphs

Messages to the models are paragraphs with a margin: a newline, the lines behind the margin, and
the margin of what would follow.
-/

namespace Covenant.Text

def spaces (n : Nat) : String := String.ofList (List.replicate n ' ')

/-- A line behind a margin; an empty line has none. -/
def marginLine (margin : Nat) (l : String) : String :=
  if l = "" then "\n" else spaces margin ++ l ++ "\n"

/-- The lines behind `margin` spaces, after a newline and before `closing` spaces. -/
def paragraph (margin closing : Nat) (ls : List String) : String :=
  "\n" ++ String.join (ls.map (marginLine margin)) ++ spaces closing

end Covenant.Text
