import PageTemplates.Template.Escape
import PageTemplates.Template.Error
import PageTemplates.Template.Function
import PageTemplates.Template.Tree

/-!
Values of expressions.  The function `safe` marks a text as HTML, which is written as it is; every other
function takes and gives plain values, so the mark never goes further than one step.
-/

namespace PageTemplates.Template

inductive Result where
  | plain (value : Value)
  /-- HTML, which is written without escaping. -/
  | html (t : Text)

namespace Result

/-- The value without the mark of HTML. -/
def value : Result → Value
  | plain v => v
  | html t => .text t

/-- The text that is written for a value. -/
def written : Result → Text
  | plain v => escape v.display
  | html t => t

/-- A value marked as HTML. -/
def marked : Result → Text
  | plain v => v.display
  | html t => t

end Result

/-- Where expressions get their values from. -/
structure Scope where
  funcs : FunctionMap
  /-- The data of the page. -/
  root : Value

def Scope.apply (scope : Scope) (line : Nat) (name : Text) (args : List Result) :
    Except RunError Result :=
  if name = safeName ∧ !scope.funcs.contains name then
    match args with
    | [arg] => .ok (.html arg.marked)
    | _ => .error (.function line name "safe expects 1 argument")
  else
    let args := args.map Result.value
    match (scope.funcs.get? name).map (· scope.root args) <|> (builtin? name).map (· args) with
    | some (.ok v) => .ok (.plain v)
    | some (.error reason) => .error (.function line name reason)
    | none => .error (.function line name "function not defined")

mutual
/-- The value of an expression; arguments come before the call, first to last. -/
def Expr.eval (scope : Scope) (dot : Value) : Expr → Except RunError Result
  | .field path => .ok (.plain (dot.lookup path))
  | .root path => .ok (.plain (scope.root.lookup path))
  | .literal v => .ok (.plain v)
  | .call name args line => (evalAll scope dot args).bind (scope.apply line name)
termination_by structural e => e

def evalAll (scope : Scope) (dot : Value) : List Expr → Except RunError (List Result)
  | [] => .ok []
  | e :: rest => (e.eval scope dot).bind fun v => (v :: ·) <$> evalAll scope dot rest
termination_by structural es => es
end

end PageTemplates.Template
