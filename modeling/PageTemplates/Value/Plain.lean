import PageTemplates.Value.Compact

/-!
The text of values as arguments of a link: as a page shows them, but for floating-point numbers, which are
written in plain digits.
-/

namespace PageTemplates

/-- In plain digits there is never an exponent and no mark on whole numbers, and a tie goes away from
zero. -/
def Number.plainLayout : Binary64.Layout where
  positional _ := true
  wholeMark := []
  tie := .away

/-- A value as an argument of a link. -/
def Value.plain : Value → Text
  | .number (.float x) => x.text Number.plainLayout
  | v => v.display

end PageTemplates
