import PageTemplates.Path.Relative
import PageTemplates.Route.Links
import PageTemplates.Template.Function

/-!
Functions that make links in templates.  They take the path of the current page from the field `path` of
the data.
-/

namespace PageTemplates.Site

open Route (Links LinkError)
open Template (Function FunctionMap)

/-- The path of the current page, as the data has it. -/
def currentPath (root : Value) : Text :=
  match root.part? "path".toList with
  | some (.text path) => path
  | _ => []

/-- The first argument and the others, as they are shown. -/
def shownArguments (name : String) : List Value → Except String (Text × List Text)
  | [] => .error s!"{name} expects at least 1 argument"
  | first :: rest => .ok (first.display, rest.map Value.display)

/-- The function `rel`: a target and the names below it, relative to the current page. -/
def relFunction : Function := fun root args =>
  (shownArguments "rel" args).map fun (target, more) =>
    .text (Path.relative (currentPath root) target more)

/-- The function `under`: whether the current page is a path or lies below it. -/
def underFunction : Function := fun root args =>
  (shownArguments "under" args).map fun (path, _) => .bool (Path.isWithin (currentPath root) path)

/-- The function `link`: a named route with its arguments, relative to the current page. -/
def linkFunction (links : Option Links) : Function := fun root args =>
  match links with
  | none => .error LinkError.linksNotInstalled.message
  | some links =>
    (shownArguments "link" args).bind fun (name, args) =>
      match links.path name args with
      | .ok path => .ok (.text (Path.relative (currentPath root) path []))
      | .error e => .error e.message

/-- The functions with one more, unless they have one of its name. -/
def addMissing (name : String) (f : Function) (funcs : FunctionMap) : FunctionMap :=
  if funcs.contains name.toList then funcs else funcs.insert name.toList f

/-- The functions with those that make links, except where they define their own. -/
def withLinkFunctions (links : Option Links) (funcs : FunctionMap) : FunctionMap :=
  addMissing "link" (linkFunction links) (addMissing "under" underFunction (addMissing "rel" relFunction funcs))

end PageTemplates.Site
