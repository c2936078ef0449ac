import PageTemplates.Number.Binary64
import PageTemplates.Number.Reading
import PageTemplates.Table

/-!
The values that pages are made from: null, truth values, numbers, texts, lists, and objects whose fields
stand in the order of their names.
-/

namespace PageTemplates

/-- A number: an integer or a binary floating-point number.  An integer read from data lies between
`-2 ^ 63` and `2 ^ 64 - 1`. -/
inductive Number where
  | whole (n : Int)
  | float (x : Binary64)
deriving DecidableEq

inductive Value where
  | null
  | bool (b : Bool)
  | number (n : Number)
  | text (t : Text)
  | list (items : List Value)
  | object (fields : List (Text × Value))
deriving Inhabited

def Number.nearest? : Number → Option Binary64
  | whole n => Binary64.ofInt? n
  | float x => some x

def Number.isZero : Number → Bool
  | whole n => n == 0
  | float x => x.isZero

namespace Value

def int (n : Int) : Value :=
  number (.whole n)

/-- The object with the given fields; of two with one name the later one stays. -/
def ofFields (fields : List (Text × Value)) : Value :=
  object (fields.foldl (fun entries (name, value) => insertEntry name value entries) [])

/-- Whether a value counts as true: null, false, zero and everything empty do not. -/
def truthy : Value → Bool
  | null => false
  | bool b => b
  | number n => !n.isZero
  | text t => !t.isEmpty
  | list items => !items.isEmpty
  | object fields => !fields.isEmpty

/-- The part of a value under one key: an item by its place, a field by its name. -/
def part? (v : Value) (key : Text) : Option Value :=
  match v with
  | list items => (Numeral.index? key).bind (items[·]?)
  | object fields => fields.lookup key
  | _ => none

/-- The part of a value under a path of keys, null when there is none. -/
def lookup (v : Value) : List Text → Value
  | [] => v
  | key :: path =>
    match v.part? key with
    | some part => part.lookup path
    | none => null

/-- The values inside a list or an object, in order. -/
def items? : Value → Option (List Value)
  | list items => some items
  | object fields => some (fields.map (·.2))
  | _ => none

end Value
end PageTemplates
