import PageTemplates.Text.Basic

/-!
The words that make an action a statement of its own.
-/

namespace PageTemplates.Template

/-- A word that an action can begin with instead of a command. -/
inductive Keyword where
  | close
  | otherwise
  | define
  | block
  | template
  | cond
  | range
deriving Repr, DecidableEq

namespace Keyword

def spelling : Keyword → String
  | close => "end"
  | otherwise => "else"
  | define => "define"
  | block => "block"
  | template => "template"
  | cond => "if"
  | range => "range"

def all : List Keyword :=
  [close, otherwise, define, block, template, cond, range]

def ofWord? (word : Text) : Option Keyword :=
  all.find? fun keyword => keyword.spelling.toList == word

theorem ofWord?_spelling (keyword : Keyword) : ofWord? keyword.spelling.toList = some keyword := by
  cases keyword <;> decide

end Keyword
end PageTemplates.Template
