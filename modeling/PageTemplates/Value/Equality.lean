import PageTemplates.Value.Basic

/-!
When two values are the same: inside lists and objects part by part, where an integer and a
floating-point number are never the same; two numbers by themselves, after rounding both to floating
point.
-/

namespace PageTemplates

/-- Whether two numbers are the same in kind and value. -/
def Number.same : Number → Number → Bool
  | whole m, whole n => m == n
  | float x, float y => x.sameValue y
  | _, _ => false

/-- Whether two numbers round to one floating-point number. -/
def Number.sameNearest (m n : Number) : Bool :=
  match m.nearest?, n.nearest? with
  | some x, some y => x.sameValue y
  | none, none => true
  | _, _ => false

namespace Value

mutual
/-- Whether two values are the same part by part. -/
def same : Value → Value → Bool
  | null, null => true
  | bool a, bool b => a == b
  | number m, number n => m.same n
  | text s, text t => s == t
  | list items, list others => sameItems items others
  | object fields, object others => sameFields fields others
  | _, _ => false
termination_by structural v => v

def sameItems : List Value → List Value → Bool
  | [], [] => true
  | item :: rest, other :: others => item.same other && sameItems rest others
  | _, _ => false
termination_by structural items => items

def sameFields : List (Text × Value) → List (Text × Value) → Bool
  | [], [] => true
  | (name, value) :: rest, (name', value') :: others =>
    name == name' && value.same value' && sameFields rest others
  | _, _ => false
termination_by structural fields => fields
end

/-- Whether a template takes two values for equal. -/
def equal : Value → Value → Bool
  | number m, number n => m.sameNearest n
  | v, w => v.same w

end Value
end PageTemplates
