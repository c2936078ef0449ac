import PageTemplates.Table
import PageTemplates.Text.Quoted
import PageTemplates.Value.Compact
import PageTemplates.Value.Equality

/-!
Functions that templates can call: those of a function map, and the built-in ones, which the map can
override.
-/

namespace PageTemplates.Template

/-- A function: from the data of the page and the arguments to a value, or to the reason why there is
none. -/
abbrev Function := Value → List Value → Except String Value

abbrev FunctionMap := Table Function

namespace Builtin

/-- The reason when a function has been given the wrong number of arguments. -/
def wrongCount (name : String) (expected given : Nat) : String :=
  s!"{name} expects {expected} arguments, got {given}"

def eq : List Value → Except String Value
  | [v, w] => .ok (.bool (v.equal w))
  | args => .error (wrongCount "eq" 2 args.length)

/-- Whether a value does not count as true. -/
def not : List Value → Except String Value
  | [v] => .ok (.bool !v.truthy)
  | args => .error (wrongCount "not" 1 args.length)

/-- How many characters, items or fields a value has. -/
def len : List Value → Except String Value
  | [.text t] => .ok (.int t.length)
  | [.list items] => .ok (.int items.length)
  | [.object fields] => .ok (.int fields.length)
  | [.null] => .ok (.int 0)
  | [v] => .error s!"len of {v.compact.string}"
  | args => .error (wrongCount "len" 1 args.length)

/-- The second value, or the first when the second does not count as true. -/
def default : List Value → Except String Value
  | [fallback, v] => .ok (if v.truthy then v else fallback)
  | args => .error (wrongCount "default" 2 args.length)

/-- The items of a list as one text, with the first value between them. -/
def join : List Value → Except String Value
  | [sep, .list items] => .ok (.text (Text.joined sep.display (items.map Value.display)))
  | [_, .null] => .ok (.text [])
  | [_, v] => .error s!"join of {v.compact.string}"
  | args => .error (wrongCount "join" 2 args.length)

end Builtin

def builtin? (name : Text) : Option (List Value → Except String Value) :=
  if name = "eq".toList then some Builtin.eq
  else if name = "not".toList then some Builtin.not
  else if name = "len".toList then some Builtin.len
  else if name = "default".toList then some Builtin.default
  else if name = "join".toList then some Builtin.join
  else none

/-- The name of the function that marks a value as HTML. -/
def safeName : Text := "safe".toList

/-- Whether a call of the name is a call of something. -/
def FunctionMap.knows (funcs : FunctionMap) (name : Text) : Bool :=
  name == safeName || funcs.contains name || (builtin? name).isSome

end PageTemplates.Template
