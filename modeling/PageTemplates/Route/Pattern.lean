import PageTemplates.Path.Basic
import PageTemplates.Text.Percent
import PageTemplates.Route.Error

/-!
Route patterns: paths with holes.  A segment that starts with a colon is filled by one argument, one
that starts with a star by all that are left.
-/

namespace PageTemplates.Route

inductive Segment where
  | fixed (name : Text)
  | placeholder (name : Text)
  | wildcard (name : Text)
deriving Repr, DecidableEq

namespace Segment

/-- The segment that a name of the pattern stands for, told by its first character. -/
def ofName : Text → Segment
  | ':' :: name => placeholder name
  | '*' :: name => wildcard name
  | name => fixed name

/-- The name without the mark of its kind. -/
def name : Segment → Text
  | fixed name | placeholder name | wildcard name => name

def isWildcard : Segment → Bool
  | wildcard _ => true
  | _ => false

def isPlaceholder : Segment → Bool
  | placeholder _ => true
  | _ => false

end Segment

structure Pattern where
  raw : Text
deriving Repr, DecidableEq

namespace Pattern

/-- The segments of a pattern; empty names are none. -/
def segments (p : Pattern) : List Segment :=
  ((Text.pieces '/' p.raw).filter (· ≠ [])).map Segment.ofName

/-- How many arguments a pattern needs: its placeholders before any wildcard. -/
def placeholders (p : Pattern) : Nat :=
  (p.segments.takeWhile (!·.isWildcard)).countP (·.isPlaceholder)

/-- Refuses a pattern in which a segment can never be reached, being after a wildcard. -/
def check (p : Pattern) : Except LinkError Unit :=
  match p.segments.dropWhile (!·.isWildcard) with
  | wildcard :: _ :: _ => .error (.unreachableSegments p.raw wildcard.name)
  | _ => .ok ()

/-- The segments of a path with the arguments put in, percent-encoded; none when there are too few. -/
def fill : List Segment → List Text → Option (List Text)
  | [], _ => some []
  | .fixed name :: rest, args => (name :: ·) <$> fill rest args
  | .placeholder _ :: rest, arg :: args => (Percent.encode arg :: ·) <$> fill rest args
  | .placeholder _ :: _, [] => none
  | .wildcard _ :: _, args => some (args.map Percent.encode)

/-- The path of a pattern with the arguments put in.  Arguments that no segment takes are left out. -/
def build (p : Pattern) (args : List Text) : Except LinkError Text :=
  match fill p.segments args with
  | some parts => .ok (Path.normalize ('/' :: Text.joined ['/'] parts))
  | none => .error (.insufficientArguments p.raw args.length)

/-- The arguments that make the names of a path out of the segments. -/
def unfill : List Segment → List Text → Option (List Text)
  | [], [] => some []
  | .fixed name :: rest, part :: parts => if part = name then unfill rest parts else none
  | .placeholder _ :: rest, part :: parts =>
    (Percent.decode part).bind fun arg => (arg :: ·) <$> unfill rest parts
  | .wildcard _ :: _, parts => parts.mapM Percent.decode
  | _, _ => none

/-- The arguments that a path was built from; none when it is not a path of the pattern. -/
def extract (p : Pattern) (path : Text) : Option (List Text) :=
  unfill p.segments ((Text.pieces '/' path).filter (· ≠ []))

end Pattern

example : (Pattern.build ⟨"/files/*path".toList⟩ ["docs".toList, "read me.txt".toList]).toOption =
    some "/files/docs/read%20me.txt".toList := by decide
example : Pattern.extract ⟨"/event/:id".toList⟩ "/event/1234".toList = some ["1234".toList] := by decide

end PageTemplates.Route
