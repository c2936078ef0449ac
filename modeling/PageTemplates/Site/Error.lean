import PageTemplates.Store.Basic
import PageTemplates.Template.Error

/-!
Why a page cannot be made.
-/

namespace PageTemplates.Site

open Template (ParseError RunError)

/-- Why a page cannot be made; every reason names the file or the page. -/
inductive PageError where
  /-- A file cannot be read. -/
  | read (path : Text) (source : StoreError)
  /-- The source in a file is wrong. -/
  | parse (path : Text) (source : ParseError)
  /-- The page fails while it is written. -/
  | execute (name : Text) (source : RunError)
  /-- The page was not there to be written. -/
  | render (name : Text) (source : PageError)
  /-- The name is that of a layout, which is no page. -/
  | notRenderable (name : Text)
  /-- Nothing is registered under the name. -/
  | notRegistered (name : Text)
  /-- The data of the page is no value. -/
  | data (reason : String)
deriving Inhabited

namespace PageError

def message : PageError → String
  | read path source => s!"read {path.string}: {source.message}"
  | parse path source => s!"parse {path.string}: {source.message}"
  | execute name source => s!"execute {name.string}: {source.message}"
  | render name source => s!"render {name.string}: {source.message}"
  | notRenderable name => s!"{name.string} is a layout file and cannot be rendered"
  | notRegistered name => s!"template {name.quoted} is not registered"
  | data reason => s!"serialize view data: {reason}"

/-- Whether only a file or a registration is missing, so that the page can be there later. -/
def isNotFound : PageError → Bool
  | read _ source => source.isNotFound
  | notRegistered _ => true
  | render _ source => source.isNotFound
  | _ => false

end PageError
end PageTemplates.Site
