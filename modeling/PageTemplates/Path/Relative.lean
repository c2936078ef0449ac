import PageTemplates.Path.Basic

/-!
Links from one page to another: a rooted target is written relative to the page that shows it, so that
a whole site can be served below any address.
-/

namespace PageTemplates.Path

/-- Whether a target names its own scheme or host, and so is no path of this site. -/
def isExternal (target : Text) : Bool :=
  ['/', '/'].isPrefixOf target ||
    match Text.cut [':'] target with
    | some (first :: others, _) =>
      first.isAlpha && others.all fun c => c.isAlphanum || c == '+' || c == '-' || c == '.'
    | _ => false

/-- The way up from a rooted page to the root, one step per directory above it.  A page that is not
rooted is its own way. -/
def toRoot (current : Text) : Text :=
  if isRooted current then
    Text.joined ['/'] (List.replicate ((Text.pieces '/' current).length - 2) up)
  else current

/-- The target and the names below it, as the page `current` links to it. -/
def relative (current target : Text) (more : List Text) : Text :=
  if isExternal target then
    Text.joined ['/']
      (Text.dropEndWhile (· == '/') target :: more.map (Text.dropBothWhile (· == '/')))
  else
    let joined := join target more
    if isRooted joined then normalize (here ++ ['/'] ++ toRoot current ++ joined) else joined

example : relative "/admin/events/".toList "/event/1234".toList [] = "../../event/1234".toList := by
  decide
example : relative "/abc/".toList "https://example.com/x".toList [] = "https://example.com/x".toList := by
  decide

end PageTemplates.Path
