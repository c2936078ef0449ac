import PageTemplates.Path.Relative
import PageTemplates.Route.Links
import PageTemplates.Value.Basic

/-!
What a page gets for one request: the path that was asked for, the way from there to the root, the data,
and the routes it can link to.
-/

namespace PageTemplates.Site

open Route (Links LinkError)

structure View where
  path : Text
  data : Value
  links : Option Links
deriving Inhabited

namespace View

def root (v : View) : Text :=
  Path.toRoot v.path

def rel (v : View) (target : Text) (more : List Text) : Text :=
  Path.relative v.path target more

def isWithin (v : View) (path : Text) : Bool :=
  Path.isWithin v.path path

def linkTo (v : View) (name : Text) (args : List Text) : Except LinkError Text :=
  match v.links with
  | none => .error .linksNotInstalled
  | some links => (links.path name args).map fun path => Path.relative v.path path []

/-- The view as the data of a page. -/
def toValue (v : View) : Value :=
  .ofFields [("path".toList, .text v.path), ("root".toList, .text v.root), ("data".toList, v.data)]

end View

structure Request where
  uri : Text
  /-- The address before a router took its own part off it. -/
  originalUri : Option Text
  links : Option Links

/-- The path of an address: without what stands before it (a scheme and a host) and after it (a query or a
fragment).  An address with a scheme and no path has the path of the root; a host alone has none. -/
def pathOfUri (uri : Text) : Text :=
  let beforeQuery := uri.takeWhile fun c => c != '?' && c != '#'
  if Path.isRooted beforeQuery || beforeQuery == ['*'] then beforeQuery
  else
    match Text.cut "://".toList beforeQuery with
    | some (_, rest) =>
      match rest.dropWhile (· != '/') with
      | [] => ['/']
      | path => path
    | none => []

namespace Request

def path (r : Request) : Text :=
  pathOfUri (r.originalUri.getD r.uri)

/-- The view of some data for this request. -/
def view (r : Request) (data : Value) : View :=
  ⟨r.path, data, r.links⟩

end Request

example : pathOfUri "http://host.example/admin/x?y".toList = "/admin/x".toList := by decide
example : pathOfUri "http://host.example".toList = "/".toList := by decide

end PageTemplates.Site
