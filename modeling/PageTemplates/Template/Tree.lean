import PageTemplates.Value.Basic

/-!
What a template consists of once it is read.
-/

namespace PageTemplates.Template

inductive Expr where
  /-- A part of the current value. -/
  | field (path : List Text)
  /-- A part of the data of the page. -/
  | root (path : List Text)
  | literal (value : Value)
  /-- A function with its arguments, and the line of the action it stands in. -/
  | call (name : Text) (args : List Expr) (line : Nat)
deriving Inhabited

inductive Node where
  /-- Text that is written as it is. -/
  | text (content : Text)
  /-- A value that is written. -/
  | output (expr : Expr)
  /-- Another template, run on a value of its own; on null when none is given. -/
  | template (name : Text) (arg : Option Expr)
  /-- One of two branches. -/
  | cond (test : Expr) (yes no : List Node)
  /-- A body run on every item of a value, or what to do when there is none. -/
  | range (subject : Expr) (body otherwise : List Node) (line : Nat)
deriving Inhabited

end PageTemplates.Template
