import PageTemplates.Text.Basic
import PageTemplates.Text.Hidden

/-!
Names quoted in messages: between double quotes, with quotes, backslashes and everything that cannot
be seen written as an escape.
-/

namespace PageTemplates.Text

def string (t : Text) : String :=
  String.ofList t

def quotedChar (c : Char) : Text :=
  match c with
  | '"' => ['\\', '"']
  | '\\' => ['\\', '\\']
  | '\n' => ['\\', 'n']
  | '\r' => ['\\', 'r']
  | '\t' => ['\\', 't']
  | '\x00' => ['\\', '0']
  | c =>
    if isHidden c then ['\\', 'u', '\x7b'] ++ Nat.toDigits 16 c.toNat ++ ['\x7d']
    else [c]

def quoted (t : Text) : String :=
  string ('"' :: t.flatMap quotedChar ++ ['"'])

/-- A list of names as a message quotes it. -/
def quotedList (names : List Text) : String :=
  "[" ++ ", ".intercalate (names.map quoted) ++ "]"

end PageTemplates.Text
