/-!
# The sides of a pair

Contrast is between text and what is behind it.
-/

namespace ContrastAudit

/-- One of the two sides of a pair of colors. -/
inductive Side
  | foreground
  | background
  deriving DecidableEq, Repr

/-- The property that sets the color of a side. -/
def Side.property : Side → String
  | .foreground => "color"
  | .background => "background-color"

end ContrastAudit
