import PageTemplates.Route.Links
import PageTemplates.Template.Function

/-!
How a site makes its pages.
-/

namespace PageTemplates.Site

open Route (Links)
open Template (Function FunctionMap)

structure Settings where
  /-- Whether compiled pages are kept. -/
  cached : Bool
  /-- Whether pages are sent while they are written. -/
  streamed : Bool
  /-- The functions of the site's own. -/
  funcs : FunctionMap
  /-- The named routes that pages can link to. -/
  links : Option Links
deriving Inhabited

/-- Settings that keep nothing, send nothing early and have no functions or routes. -/
def Settings.plain : Settings :=
  ⟨false, false, Table.empty, none⟩

def Settings.withFunction (settings : Settings) (name : Text) (f : Function) : Settings :=
  { settings with funcs := settings.funcs.insert name f }

end PageTemplates.Site
