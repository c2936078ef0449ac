import PageTemplates.Text.Quoted

/-!
The reasons why there is no link.
-/

namespace PageTemplates.Route

inductive LinkError where
  /-- No route has the name. -/
  | aliasNotFound (name : Text)
  /-- The pattern needs more arguments than were given. -/
  | insufficientArguments (pattern : Text) (given : Nat)
  /-- There are no routes to look in. -/
  | linksNotInstalled
  /-- The pattern goes on after a segment that takes everything. -/
  | unreachableSegments (pattern wildcard : Text)
deriving Repr, DecidableEq

def LinkError.message : LinkError → String
  | aliasNotFound name => s!"alias {name.string} not found"
  | insufficientArguments pattern given =>
    s!"not enough arguments to build path {pattern.string}: got {given}"
  | linksNotInstalled => "links are not installed"
  | unreachableSegments pattern wildcard =>
    s!"pattern {pattern.string} has segments after wildcard *{wildcard.string}"

end PageTemplates.Route
