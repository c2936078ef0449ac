import Mathlib.Data.Finset.Card
import PageTemplates.Proofs.Site.Slots
import PageTemplates.Site.Basic

/-!
The lookups that a site in use makes, whatever asks for them: a request for a page,
a page bound to its data, or the compilation of all pages.  The store may change
between them in any way.
-/

namespace PageTemplates.Site

/-! ## A site before its first lookup -/

/-- What can be done to a site before it is used. -/
inductive Preparation where
  /-- A page gets a short name. -/
  | shorten (short name : Text)
  /-- A page is registered with its files. -/
  | add (name : Text) (r : Registration)
  /-- A page is registered by the names of its files. -/
  | register (page : Text) (layouts : List Text)

def prepare (site : Site) : Preparation → Site
  | .shorten short name => site.addAlias short name
  | .add name r => site.add name r
  | .register page layouts => site.register page layouts

/-- A new site after some preparations, on which pages may have to be registered. -/
def opened (settings : Settings) (onlyRegistered : Bool)
    (preparations : List Preparation) : Site :=
  preparations.foldl prepare
    (if onlyRegistered then explicitOfSettings settings else ofSettings settings)

/-! ## A site in use -/

/-- One lookup of a page: the name it was asked for by, what the store answered at
that moment, the paths that were read, the answer, and the number of pages that the
site kept after it. -/
structure Lookup where
  name : Text
  store : Store
  reads : List Text
  result : Except PageError Compiled
  kept : Nat

def lookup (site : Site) (store : Store) (name : Text) : Lookup :=
  let answer := site.get store name
  ⟨name, store, answer.reads, answer.result, answer.site.cached⟩

/-- The lookups of several pages in turn, up to the first that fails. -/
def lookupsInTurn (store : Store) : Site → List Text → List Lookup
  | _, [] => []
  | site, name :: rest =>
      let answer := site.get store name
      site.lookup store name :: match answer.result with
        | .ok _ => lookupsInTurn store answer.site rest
        | .error _ => []

/-- What can happen to a site in use. -/
inductive Act where
  | get (name : Text)
  | bindTo (name : Text) (data : Except String Value)
  | compileAll
  /-- The store answers like another one from now on: a file was written or removed,
  or can no longer be read. -/
  | restock (store : Store)

/-- A site in use, its store at the moment, and its lookups so far, first to last. -/
structure Service where
  site : Site
  store : Store
  lookups : List Lookup

namespace Service

/-- A site that has not been used. -/
def start (site : Site) (store : Store) : Service :=
  ⟨site, store, []⟩

def perform (s : Service) : Act → Service
  | .get name =>
      { s with
        site := (s.site.get s.store name).site
        lookups := s.lookups ++ [s.site.lookup s.store name] }
  | .bindTo name data =>
      { s with
        site := (s.site.bindTo s.store name data).site
        lookups := s.lookups ++ match data with
          | .ok _ => [s.site.lookup s.store name]
          | .error _ => [] }
  | .compileAll =>
      { s with
        site := (s.site.compileAll s.store).site
        lookups := s.lookups ++ match s.site.pageNames s.store with
          | .ok names => lookupsInTurn s.store s.site names
          | .error _ => [] }
  | .restock store => { s with store }

/-- The site after some acts, first to last. -/
def run (s : Service) (acts : List Act) : Service :=
  acts.foldl perform s

end Service

/-! ## What one lookup does -/

/-- The page that a site keeps under a name that stands for itself. -/
def kept? (site : Site) (name : Text) : Option Compiled :=
  site.cache.bind (·.find? name)

theorem kept?_reserve (site : Site) (name other : Text) :
    kept? { site with cache := site.cache.map (·.reserve name) } other = site.kept? other := by
  unfold kept?
  cases site.cache with
  | none => rfl
  | some cache => exact cache.find?_reserve name other

theorem kept?_fill {site : Site} (hcache : site.cache.isSome) (name other : Text)
    (page : Compiled) (compiled : Nat) :
    kept? { site with cache := site.cache.map (·.fill name page), compiled } other =
      if other = name then some page else site.kept? other := by
  obtain ⟨cache, hcache⟩ := Option.isSome_iff_exists.mp hcache
  unfold kept?
  rw [hcache]
  exact cache.find?_fill name other page

theorem get_of_kept {site : Site} {store : Store} {name : Text} {page : Compiled}
    (hkept : site.kept? (site.resolve name) = some page) :
    site.get store name = ⟨site, [], .ok page⟩ := by
  unfold kept? at hkept
  simp only [get, hkept]

theorem get_of_compile_ok {site : Site} {store : Store} {name : Text}
    {view : Template.Namespace} (hkept : site.kept? (site.resolve name) = none)
    (hview : (site.compile store (site.resolve name)).result = .ok view) :
    site.get store name =
      ⟨{ site with
          cache := site.cache.map (·.fill (site.resolve name) ⟨site.compiled, view⟩)
          compiled := site.compiled + 1 },
        (site.compile store (site.resolve name)).reads, .ok ⟨site.compiled, view⟩⟩ := by
  unfold kept? at hkept
  simp only [get, hkept, hview]

theorem get_of_compile_error {site : Site} {store : Store} {name : Text}
    {e : PageError} (hkept : site.kept? (site.resolve name) = none)
    (herror : (site.compile store (site.resolve name)).result = .error e) :
    site.get store name =
      ⟨{ site with cache := site.cache.map (·.reserve (site.resolve name)) },
        (site.compile store (site.resolve name)).reads, .error e⟩ := by
  unfold kept? at hkept
  simp only [get, hkept, herror]

/-- The three ways in which a lookup ends. -/
theorem get_cases (site : Site) (store : Store) (name : Text) :
    (∃ page, site.kept? (site.resolve name) = some page ∧
        site.get store name = ⟨site, [], .ok page⟩) ∨
      (∃ view, (site.compile store (site.resolve name)).result = .ok view ∧
        site.get store name =
          ⟨{ site with
              cache := site.cache.map (·.fill (site.resolve name) ⟨site.compiled, view⟩)
              compiled := site.compiled + 1 },
            (site.compile store (site.resolve name)).reads, .ok ⟨site.compiled, view⟩⟩ ∧
        site.kept? (site.resolve name) = none) ∨
      ∃ e, site.get store name =
          ⟨{ site with cache := site.cache.map (·.reserve (site.resolve name)) },
            (site.compile store (site.resolve name)).reads, .error e⟩ := by
  cases hkept : site.kept? (site.resolve name) with
  | some page => exact .inl ⟨page, rfl, get_of_kept hkept⟩
  | none =>
      cases hcompile : (site.compile store (site.resolve name)).result with
      | ok view => exact .inr (.inl ⟨view, rfl, get_of_compile_ok hkept hcompile, rfl⟩)
      | error e => exact .inr (.inr ⟨e, get_of_compile_error hkept hcompile⟩)

/-- The compilation of several pages reads what their lookups read. -/
theorem reads_getAll (store : Store) (site : Site) (names : List Text) :
    (getAll store site names).reads =
      (lookupsInTurn store site names).flatMap (·.reads) := by
  induction names generalizing site with
  | nil => rfl
  | cons name rest ih =>
      rw [getAll, lookupsInTurn]
      cases hresult : (site.get store name).result with
      | error e => simp [lookup]
      | ok page => simp [lookup, ih]

/-- A page bound to its data is looked up. -/
theorem site_bindTo_ok (site : Site) (store : Store) (name : Text) (data : Value) :
    (site.bindTo store name (.ok data)).site = (site.get store name).site := by
  rw [bindTo]
  cases (site.get store name).result <;> rfl

/-- A lookup changes what is kept, and the number of the next page. -/
theorem site_get (site : Site) (store : Store) (name : Text) :
    ∃ cache compiled, (site.get store name).site = { site with cache, compiled } ∧
      cache.isSome = site.cache.isSome := by
  rcases get_cases site store name with ⟨page, -, hget⟩ | ⟨view, -, hget, -⟩ | ⟨e, hget⟩
  · exact ⟨site.cache, site.compiled, by rw [hget], rfl⟩
  · exact ⟨_, _, by rw [hget], Option.isSome_map⟩
  · exact ⟨_, site.compiled, by rw [hget], Option.isSome_map⟩

/-! ## What every lookup hands on -/

section HandedOn

-- Only lookups change a site in use, so what each of them hands on to the next, of the lookups so
-- far and the site after them, holds after any acts.
variable {P : List Lookup → Site → Prop} (hlookup : ∀ past (site : Site) store name,
  P past site → P (past ++ [site.lookup store name]) (site.get store name).site)

include hlookup

theorem getAll_of_lookups (past : List Lookup) {site : Site} (h : P past site) (store : Store)
    (names : List Text) :
    P (past ++ lookupsInTurn store site names) (getAll store site names).site := by
  induction names generalizing site past with
  | nil =>
      rw [lookupsInTurn, List.append_nil]
      exact h
  | cons name rest ih =>
      have hfirst := hlookup past site store name h
      rw [lookupsInTurn, getAll]
      cases hresult : (site.get store name).result with
      | error e => exact hfirst
      | ok page =>
          have hothers := ih _ hfirst
          rw [List.append_assoc, List.singleton_append] at hothers
          exact hothers

theorem Service.perform_of_lookups {s : Service} (h : P s.lookups s.site) (act : Act) :
    P (s.perform act).lookups (s.perform act).site := by
  cases act with
  | get name => exact hlookup s.lookups s.site s.store name h
  | bindTo name data =>
      cases data with
      | error reason =>
          rw [perform, List.append_nil]
          exact h
      | ok data =>
          rw [perform, site_bindTo_ok]
          exact hlookup s.lookups s.site s.store name h
  | compileAll =>
      rw [perform, compileAll]
      cases s.site.pageNames s.store with
      | error e =>
          rw [List.append_nil]
          exact h
      | ok names => exact getAll_of_lookups hlookup s.lookups h s.store names
  | restock store => exact h

theorem Service.run_of_lookups {s : Service} (h : P s.lookups s.site) (acts : List Act) :
    P (s.run acts).lookups (s.run acts).site := by
  induction acts generalizing s with
  | nil => exact h
  | cons act rest ih => exact ih (perform_of_lookups hlookup h act)

end HandedOn

end PageTemplates.Site
