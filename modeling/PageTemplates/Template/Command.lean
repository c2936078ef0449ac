import PageTemplates.Template.Tree
import PageTemplates.Template.Word

/-!
Commands: words as one expression.  The first word of a command may be a function, and the others are
its arguments; parentheses hold commands of their own.
-/

namespace PageTemplates.Template

/-- A word of a command, or a command in parentheses.  A name is not yet a call, as the first word of a
command takes the others as its arguments. -/
inductive Operand where
  | name (name : Text)
  | expr (expr : Expr)

/-- A call, when the function is known. -/
def call (known : Text → Bool) (line : Nat) (name : Text) (args : List Expr) :
    Except ParseFault Expr :=
  if known name then .ok (.call name args line) else .error (.undefinedFunction name)

/-- An operand as an argument; a name is a call without arguments. -/
def argument (known : Text → Bool) (line : Nat) : Operand → Except ParseFault Expr
  | .name name => call known line name []
  | .expr e => .ok e

/-- The expression that the operands of one command make. -/
def assemble (known : Text → Bool) (line : Nat) : List Operand → Except ParseFault Expr
  | [] => .error .missingValue
  | .name name :: operands =>
    (operands.mapM (argument known line)).bind fun args => call known line name args
  | [.expr e] => .ok e
  | .expr _ :: _ :: _ => .error .argumentToValue

/-- The expression of the words, where `outer` holds the operands of the commands around the current
one, innermost first, and `operands` those of the current one, each last to first. -/
def commandFrom (known : Text → Bool) (line : Nat) :
    List (List Operand) → List Operand → List Word → Except ParseFault Expr
  | [], operands, [] => assemble known line operands.reverse
  | _ :: _, _, [] => .error .unclosedLeftParen
  | outer, operands, .leftParen :: rest => commandFrom known line (operands :: outer) [] rest
  | [], operands, .rightParen :: _ =>
    (assemble known line operands.reverse).bind fun _ => .error .unexpectedRightParen
  | around :: outer, operands, .rightParen :: rest =>
    (assemble known line operands.reverse).bind fun e =>
      commandFrom known line outer (.expr e :: around) rest
  | outer, operands, .name name :: rest => commandFrom known line outer (.name name :: operands) rest
  | outer, operands, .field path :: rest =>
    commandFrom known line outer (.expr (.field path) :: operands) rest
  | outer, operands, .root path :: rest =>
    commandFrom known line outer (.expr (.root path) :: operands) rest
  | outer, operands, .literal value :: rest =>
    commandFrom known line outer (.expr (.literal value) :: operands) rest

def command (known : Text → Bool) (line : Nat) (words : List Word) : Except ParseFault Expr :=
  commandFrom known line [] [] words

/-- The expression of the words of a command that may be missing. -/
def command? (known : Text → Bool) (line : Nat) (words : List Word) :
    Except ParseFault (Option Expr) :=
  if words.isEmpty then .ok none else (command known line words).map some

end PageTemplates.Template
