import PageTemplates.Text.Basic

/-!
Paths: names between slashes, rooted when the first character is a slash.  Every path has one normal
form, written from the names that are left when empty names and dots are skipped and each double dot
has taken back the name before it.
-/

namespace PageTemplates.Path

def isRooted (path : Text) : Bool :=
  path.head? == some '/'

/-- The name that stays where it is. -/
def here : Text := ['.']

/-- The name that goes up. -/
def up : Text := ['.', '.']

/-- One more name after the names reached so far, the last of them first.  A double dot takes back the
name before it; with none to take back it is kept, or dropped at the root. -/
def enter (rooted : Bool) (reached : List Text) (name : Text) : List Text :=
  if name = [] ∨ name = here then reached
  else if name = up then
    match reached with
    | last :: earlier => if last = up then up :: reached else earlier
    | [] => if rooted then [] else [up]
  else name :: reached

/-- What is left of a list of names, first to last. -/
def resolve (rooted : Bool) (names : List Text) : List Text :=
  (names.foldl (enter rooted) []).reverse

/-- The names on the way to a path. -/
def names (path : Text) : List Text :=
  resolve (isRooted path) (Text.pieces '/' path)

def ofNames (rooted : Bool) (names : List Text) : Text :=
  if rooted then '/' :: Text.joined ['/'] names
  else if names = [] then here
  else Text.joined ['/'] names

def normalize (path : Text) : Text :=
  ofNames (isRooted path) (names path)

/-- The non-empty ones of `base` and `more` as one normal path; empty when there are none. -/
def join (base : Text) (more : List Text) : Text :=
  match (base :: more).filter (· ≠ []) with
  | [] => []
  | parts => normalize (Text.joined ['/'] parts)

/-- The path that goes on from `base`; a rooted one starts over. -/
def continued (base path : Text) : Text :=
  if isRooted path then path
  else if base.getLast? == some '/' then base ++ path
  else base ++ '/' :: path

/-- Whether `current` is `path` or lies below it. -/
def isWithin (current path : Text) : Bool :=
  let current := normalize current
  let path := normalize path
  if path = ['/'] then isRooted current
  else current = path || (path.isPrefixOf current && isRooted (current.drop path.length))

example : normalize "/a//b/./c/..".toList = "/a/b".toList := by decide
example : normalize "../a/../..".toList = "../..".toList := by decide
example : normalize [] = here := by decide
example : isWithin "/administrator".toList "/admin".toList = false := by decide

end PageTemplates.Path
