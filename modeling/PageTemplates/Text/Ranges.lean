/-!
Sets of characters given by ranges of code points, for the character classes that the library reads
from tables.
-/

namespace PageTemplates.Text

/-- Code points in closed ranges, first to last. -/
abbrev Ranges := List (Nat × Nat)

/-- Whether a character's code point lies in one of the ranges. -/
def Ranges.contains (ranges : Ranges) (c : Char) : Bool :=
  ranges.any fun (first, last) => first ≤ c.toNat && c.toNat ≤ last

end PageTemplates.Text
