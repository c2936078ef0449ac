import PageTemplates.Site.Cache
import PageTemplates.Site.LinkFunctions
import PageTemplates.Site.Rendered
import PageTemplates.Site.Settings

/-!
Sites: pages by name.  A site finds the layouts of a page in the directories around it, until pages are
registered with their files; from then on only registered names are pages.  A caching site compiles each
page once.
-/

namespace PageTemplates

open Route (Links)
open Site

/-- How the names of pages are resolved. -/
inductive Site.Mode where
  /-- A name is the path of a file, and layouts are found in the directories around it. -/
  | convention
  /-- Only these names are pages. -/
  | explicit (pages : Table Registration)
deriving Inhabited

/-- A site and what it has compiled so far. -/
structure Site where
  funcs : Template.FunctionMap
  streamed : Bool
  /-- The pages that are kept, on a caching site. -/
  cache : Option Cache
  /-- Short names of pages. -/
  aliases : Table Text
  mode : Mode
  /-- How many pages have been compiled. -/
  compiled : Nat
deriving Inhabited

namespace Site

def ofSettings (settings : Settings) : Site where
  funcs := withLinkFunctions settings.links settings.funcs
  streamed := settings.streamed
  cache := if settings.cached then some Cache.empty else none
  aliases := Table.empty
  mode := .convention
  compiled := 0

/-- The site with the given settings on which only registered names are pages. -/
def explicitOfSettings (settings : Settings) : Site :=
  { ofSettings settings with mode := .explicit Table.empty }

def addAlias (site : Site) (short name : Text) : Site :=
  { site with aliases := site.aliases.insert short name }

/-- The registered pages; none when pages are found by convention. -/
def Mode.pages : Mode → Table Registration
  | convention => Table.empty
  | explicit pages => pages

/-- The site with a page registered; from then on all pages have to be. -/
def add (site : Site) (name : Text) (r : Registration) : Site :=
  { site with mode := .explicit (site.mode.pages.insert name r) }

/-- The site with a page registered by the names of its files, which are in the directories for pages and
for layouts. -/
def register (site : Site) (page : Text) (layouts : List Text) : Site :=
  site.add page ⟨"pages/".toList ++ page, layouts.map ("layouts/".toList ++ ·)⟩

/-- The name that a name stands for. -/
def resolve (site : Site) (name : Text) : Text :=
  (site.aliases.get? name).getD name

/-- Compiles the page with a name that stands for itself. -/
def compile (site : Site) (store : Store) (name : Text) : Compilation :=
  match site.mode with
  | .convention => compileByConvention store site.funcs name
  | .explicit pages =>
    match pages.get? name with
    | some r => compileRegistered store site.funcs r
    | none => ⟨[], .error (.notRegistered name)⟩

def cached (site : Site) : Nat :=
  match site.cache with
  | some cache => cache.size
  | none => 0

def isExplicit (site : Site) : Bool :=
  match site.mode with
  | .explicit _ => true
  | .convention => false

/-- What a request for something did: the site after it, the paths that were read, and the answer. -/
structure Answer (α : Type) where
  site : Site
  reads : List Text
  result : Except PageError α

/-- The compiled page with a name.  On a caching site a page that is kept is not compiled again, and one
that is compiled is kept. -/
def get (site : Site) (store : Store) (name : Text) : Answer Compiled :=
  let name := site.resolve name
  match site.cache.bind (·.find? name) with
  | some page => ⟨site, [], .ok page⟩
  | none =>
    let compilation := site.compile store name
    match compilation.result with
    | .ok view =>
      let page : Compiled := ⟨site.compiled, view⟩
      ⟨{ site with cache := site.cache.map (·.fill name page), compiled := site.compiled + 1 },
        compilation.reads, .ok page⟩
    | .error e =>
      ⟨{ site with cache := site.cache.map (·.reserve name) }, compilation.reads, .error e⟩

/-- Compiles the pages with the given names in turn; the first failure ends it. -/
def getAll (store : Store) : Site → List Text → Answer Unit
  | site, [] => ⟨site, [], .ok ()⟩
  | site, name :: rest =>
    let first := site.get store name
    match first.result with
    | .error e => ⟨first.site, first.reads, .error e⟩
    | .ok _ =>
      let others := getAll store first.site rest
      ⟨others.site, first.reads ++ others.reads, others.result⟩

def pageNames (site : Site) (store : Store) : Except PageError (List Text) :=
  match site.mode with
  | .explicit pages => .ok pages.names
  | .convention =>
    match store.list with
    | .error e => .error (.read ['.'] e)
    | .ok entries =>
      .ok ((entries.filter fun entry => !entry.isDir && !isLayout entry.path).map (·.path))

/-- Compiles all pages, up to the first that fails, and counts them. -/
def compileAll (site : Site) (store : Store) : Answer Nat :=
  match site.pageNames store with
  | .error e => ⟨site, [], .error e⟩
  | .ok names =>
    let all := site.getAll store names
    ⟨all.site, all.reads, all.result.map fun _ => names.length⟩

/-- A request for a page bound to its data, and the site after it. -/
structure Binding where
  site : Site
  reads : List Text
  page : Rendered

/-- Binds a page to its data.  Data that is no value is found out first. -/
def bindTo (site : Site) (store : Store) (name : Text) (data : Except String Value) : Binding :=
  match data with
  | .error reason => ⟨site, [], .failed name (.data reason)⟩
  | .ok data =>
    let page := site.get store name
    match page.result with
    | .ok page' => ⟨page.site, page.reads, .ready name page'.view data site.streamed⟩
    | .error e => ⟨page.site, page.reads, .failed name e⟩

end Site
end PageTemplates
