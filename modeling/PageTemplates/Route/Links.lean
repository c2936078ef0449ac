import PageTemplates.Route.Pattern
import PageTemplates.Table

/-!
Named routes, from which links are made by name.
-/

namespace PageTemplates.Route

structure Links where
  routes : Table Pattern
deriving Inhabited

namespace Links

def empty : Links :=
  ⟨Table.empty⟩

/-- The links with `pattern` under `name`, whatever the pattern is. -/
def named (links : Links) (name pattern : Text) : Links :=
  ⟨links.routes.insert name ⟨pattern⟩⟩

/-- The links with `pattern` under `name`, if all its segments can be reached. -/
def checkedNamed (links : Links) (name pattern : Text) : Except LinkError Links :=
  (Pattern.check ⟨pattern⟩).map fun _ => links.named name pattern

/-- The links of a list of routes, where a later one replaces an earlier one. -/
def ofList (routes : List (Text × Text)) : Links :=
  routes.foldl (fun links (name, pattern) => links.named name pattern) empty

def get? (links : Links) (name : Text) : Option Pattern :=
  links.routes.get? name

/-- The path of the route `name` with the arguments put in. -/
def path (links : Links) (name : Text) (args : List Text) : Except LinkError Text :=
  match links.get? name with
  | some pattern => pattern.build args
  | none => .error (.aliasNotFound name)

end Links
end PageTemplates.Route
