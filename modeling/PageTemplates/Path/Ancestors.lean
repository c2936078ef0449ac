import PageTemplates.Path.Basic

/-!
The way from a path up to the root: the path itself, then what is left of it before each of its slashes,
from the last to the first.
-/

namespace PageTemplates.Path

/-- The ancestors of a path that is given from its last character to its first. -/
def above : Text → List Text
  | [] => []
  | c :: rest =>
    if c = '/' then
      if rest = [] ∨ rest = ['/'] then [['/']]
      else rest.reverse :: above rest
    else above rest

/-- A path and its ancestors, innermost first.  The root is the end; a path that is not rooted ends at
its first name. -/
def ancestors (path : Text) : List Text :=
  if path = ['/'] then [path] else path :: above path.reverse

/-- A path and its ancestors, outermost first. -/
def ancestorsRootFirst (path : Text) : List Text :=
  (ancestors path).reverse

example : ancestors "/a/b".toList = ["/a/b".toList, "/a".toList, "/".toList] := by decide
example : ancestors "//a".toList = ["//a".toList, "/".toList] := by decide
example : ancestors "a/b".toList = ["a/b".toList, "a".toList] := by decide

end PageTemplates.Path
