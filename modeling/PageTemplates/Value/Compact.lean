import PageTemplates.Number.Shortest
import PageTemplates.Value.Basic

/-!
The text of values: as compact JSON, and as a page shows them.
-/

namespace PageTemplates

/-- Floating-point numbers have an exponent from ten to the sixteenth on and below ten to the minus
fifth, `.0` tells whole ones from integers, and a tie goes to the even digit. -/
def Number.floatLayout : Binary64.Layout where
  positional magnitude := -5 ≤ magnitude && magnitude ≤ 15
  wholeMark := ['.', '0']
  tie := .even

def Number.text : Number → Text
  | whole n => Text.ofInt n
  | float x => x.text floatLayout

namespace Value

/-- One character of a JSON string. -/
def jsonChar (c : Char) : Text :=
  match c with
  | '"' => ['\\', '"']
  | '\\' => ['\\', '\\']
  | '\n' => ['\\', 'n']
  | '\r' => ['\\', 'r']
  | '\t' => ['\\', 't']
  | '\x08' => ['\\', 'b']
  | '\x0c' => ['\\', 'f']
  | c =>
    if c.toNat < 32 then
      ['\\', 'u', '0', '0', Nat.digitChar (c.toNat / 16), Nat.digitChar (c.toNat % 16)]
    else [c]

def jsonString (t : Text) : Text :=
  '"' :: t.flatMap jsonChar ++ ['"']

mutual
/-- A value as JSON without blanks. -/
def compact : Value → Text
  | null => "null".toList
  | bool true => "true".toList
  | bool false => "false".toList
  | number n => n.text
  | text t => jsonString t
  | list items => '[' :: Text.joined [','] (compactItems items) ++ [']']
  | object fields => '\x7b' :: Text.joined [','] (compactFields fields) ++ ['\x7d']
termination_by structural v => v

def compactItems : List Value → List Text
  | [] => []
  | item :: rest => item.compact :: compactItems rest
termination_by structural items => items

def compactFields : List (Text × Value) → List Text
  | [] => []
  | (name, value) :: rest => (jsonString name ++ ':' :: value.compact) :: compactFields rest
termination_by structural fields => fields
end

/-- A value as a page shows it, before anything is escaped: texts as they are, null as nothing. -/
def display : Value → Text
  | null => []
  | text t => t
  | v => v.compact

end Value
end PageTemplates
