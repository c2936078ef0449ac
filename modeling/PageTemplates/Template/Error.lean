import PageTemplates.Template.Keyword
import PageTemplates.Text.Quoted
import PageTemplates.Value.Compact

/-!
What can be wrong with the source of a template, and what can go wrong while a template is written out.
-/

namespace PageTemplates.Template

/-- What is wrong with a source. -/
inductive ParseFault where
  | unclosedAction
  | missingValue
  /-- A text between double quotes is never closed. -/
  | unterminatedText
  /-- A text between backquotes is never closed. -/
  | unterminatedRawText
  /-- A word begins like a number and is none. -/
  | badNumber (word : Text)
  | unexpectedWord (word : Text)
  /-- A path has an empty key or does not begin with a dot. -/
  | badPath (path : Text)
  | unexpectedRightParen
  | unclosedLeftParen
  /-- A value that is no function is given arguments. -/
  | argumentToValue
  | undefinedFunction (name : Text)
  /-- A keyword that needs the name of a template in quotes has none. -/
  | missingName (keyword : Keyword)
  /-- A keyword is followed by more than it takes. -/
  | extraArguments (keyword : Keyword)
  | nestedDefine
  /-- A closing action closes nothing. -/
  | unexpectedEnd
  /-- A second branch begins where there is no first one. -/
  | unexpectedElse
  /-- A second branch begins in a statement that has one branch. -/
  | elseInside (keyword : Keyword)
  /-- A third branch begins. -/
  | secondElse (keyword : Keyword)
  | unclosedStatement (keyword : Keyword)
deriving Repr, DecidableEq

def ParseFault.message : ParseFault → String
  | unclosedAction => "unclosed action"
  | missingValue => "missing value for command"
  | unterminatedText => "unterminated quoted string"
  | unterminatedRawText => "unterminated raw string"
  | badNumber word => s!"bad number syntax: {word.string}"
  | unexpectedWord word => s!"unexpected {word.quoted} in action"
  | badPath path => s!"bad field path: {path.string}"
  | unexpectedRightParen => "unexpected right paren"
  | unclosedLeftParen => "unclosed left paren"
  | argumentToValue => "can't give argument to non-function"
  | undefinedFunction name => s!"function {name.quoted} not defined"
  | missingName keyword => s!"{keyword.spelling} expects a quoted template name"
  | extraArguments keyword => s!"unexpected arguments to {keyword.spelling}"
  | nestedDefine => "define is only allowed at top level"
  | unexpectedEnd => "unexpected \x7b\x7bend\x7d\x7d"
  | unexpectedElse => "unexpected \x7b\x7belse\x7d\x7d"
  | elseInside keyword => s!"unexpected \x7b\x7belse\x7d\x7d in {keyword.spelling}"
  | secondElse keyword => s!"multiple \x7b\x7belse\x7d\x7d in {keyword.spelling}"
  | unclosedStatement keyword => s!"unexpected EOF in {keyword.spelling}"

/-- A fault and the line of the action that shows it. -/
structure ParseError where
  line : Nat
  fault : ParseFault
deriving Repr, DecidableEq

def ParseError.message (e : ParseError) : String :=
  s!"line {e.line}: {e.fault.message}"

/-- What goes wrong while a template is written out. -/
inductive RunError where
  | incomplete
  | unknownTemplate (name : Text)
  | function (line : Nat) (name : Text) (reason : String)
  /-- A loop runs over something that has no items. -/
  | notIterable (line : Nat) (value : Value)
  | tooDeep (limit : Nat)
  | write (reason : String)
deriving Inhabited

def RunError.message : RunError → String
  | incomplete => "incomplete or empty template"
  | unknownTemplate name => s!"no such template {name.quoted}"
  | function line name reason => s!"line {line}: error calling {name.string}: {reason}"
  | notIterable line value => s!"line {line}: range can't iterate over {value.compact.string}"
  | tooDeep limit => s!"exceeded maximum template depth ({limit})"
  | write reason => s!"write output: {reason}"

end PageTemplates.Template
