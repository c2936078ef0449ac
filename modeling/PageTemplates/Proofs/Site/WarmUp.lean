import PageTemplates.Proofs.Except
import PageTemplates.Proofs.Site.Layouts
import PageTemplates.Proofs.Site.Lookups
import PageTemplates.Proofs.Site.Slots
import PageTemplates.Store.Memory

/-!
Compiling all pages before they are asked for.  Every page is looked up by its name, and
what is kept after that is what these names stand for: from then on it is served without
the store.  A name that is also a short name of something else does not stand for its own
page, so that page is passed over, and a short name of it finds nothing kept.
-/

namespace PageTemplates.Site

/-! ## What one lookup leaves behind -/

/-- A site later on: it is prepared in the same way, and no page that it kept is lost. -/
structure Outlasts (later site : Site) : Prop where
  aliases : later.aliases = site.aliases
  caching : later.cache.isSome = site.cache.isSome
  kept : ∀ name page, site.kept? name = some page → later.kept? name = some page

theorem Outlasts.refl (site : Site) : Outlasts site site :=
  ⟨rfl, rfl, fun _ _ hpage => hpage⟩

theorem Outlasts.trans {last later site : Site} (hlast : Outlasts last later)
    (hlater : Outlasts later site) : Outlasts last site where
  aliases := hlast.aliases.trans hlater.aliases
  caching := hlast.caching.trans hlater.caching
  kept := fun name page hpage => hlast.kept name page (hlater.kept name page hpage)

theorem Outlasts.resolve {later site : Site} (h : Outlasts later site) (name : Text) :
    later.resolve name = site.resolve name := by
  unfold Site.resolve
  rw [h.aliases]

theorem outlasts_get (site : Site) (store : Store) (name : Text) :
    Outlasts (site.get store name).site site := by
  rcases get_cases site store name with ⟨page, -, hget⟩ | ⟨view, -, hget, hfree⟩ | ⟨e, hget⟩
  · rw [hget]
    exact .refl site
  · rw [hget]
    refine ⟨rfl, Option.isSome_map, fun other page hpage => ?_⟩
    have hcache : site.cache.isSome := by
      rw [kept?] at hpage
      exact Option.isSome_of_isSome_bind (Option.isSome_of_eq_some hpage)
    have hother : other ≠ site.resolve name := by
      rintro rfl
      rw [hfree] at hpage
      cases hpage
    rw [kept?_fill hcache, if_neg hother]
    exact hpage
  · rw [hget]
    refine ⟨rfl, Option.isSome_map, fun other page hpage => ?_⟩
    rw [kept?_reserve]
    exact hpage

/-- A page that was found is kept, and no other page comes with it. -/
theorem exists_kept?_get_iff {site : Site} {store : Store} {name : Text} {page : Compiled}
    (hcaching : site.cache.isSome) (hpage : (site.get store name).result = .ok page)
    (other : Text) :
    (∃ found, (site.get store name).site.kept? other = some found) ↔
      (∃ found, site.kept? other = some found) ∨ site.resolve name = other := by
  rcases get_cases site store name with ⟨found, hkept, hget⟩ | ⟨view, -, hget, -⟩ | ⟨e, hget⟩
  · rw [hget]
    constructor
    · exact Or.inl
    · rintro (hother | rfl)
      · exact hother
      · exact ⟨found, hkept⟩
  · rw [hget, kept?_fill hcaching]
    by_cases hother : other = site.resolve name
    · simp [hother]
    · simp [hother, Ne.symm hother]
  · rw [hget] at hpage
    cases hpage

/-! ## All pages in turn -/

theorem getAll_cons_eq_ok_iff {site : Site} {store : Store} {name : Text} {rest : List Text} :
    (getAll store site (name :: rest)).result = .ok () ↔
      ∃ page, (site.get store name).result = .ok page ∧
        (getAll store (site.get store name).site rest).result = .ok () := by
  rw [getAll]
  cases (site.get store name).result <;> simp

theorem site_getAll_cons {site : Site} {store : Store} {name : Text} {page : Compiled}
    (hpage : (site.get store name).result = .ok page) (rest : List Text) :
    (getAll store site (name :: rest)).site =
      (getAll store (site.get store name).site rest).site := by
  rw [getAll, hpage]

/-- No lookup loses a page. -/
theorem outlasts_lookup {site : Site} (_past : List Lookup) (later : Site) (store : Store)
    (name : Text) (hlater : Outlasts later site) : Outlasts (later.get store name).site site :=
  (outlasts_get later store name).trans hlater

theorem outlasts_getAll (store : Store) (site : Site) (names : List Text) :
    Outlasts (getAll store site names).site site :=
  getAll_of_lookups outlasts_lookup [] (.refl site) store names

/-- When all pages were found, what is kept is what their names stand for, beside what was kept
before. -/
theorem exists_kept?_getAll_iff {site : Site} {store : Store} {names : List Text}
    (hcaching : site.cache.isSome) (hall : (getAll store site names).result = .ok ())
    (other : Text) :
    (∃ page, (getAll store site names).site.kept? other = some page) ↔
      (∃ page, site.kept? other = some page) ∨ ∃ name ∈ names, site.resolve name = other := by
  induction names generalizing site with
  | nil => simp [getAll]
  | cons name rest ih =>
      obtain ⟨page, hpage, hrest⟩ := getAll_cons_eq_ok_iff.mp hall
      have hfirst := outlasts_get site store name
      have hothers := ih (hfirst.caching.trans hcaching) hrest
      simp only [hfirst.resolve] at hothers
      rw [site_getAll_cons hpage, hothers, exists_kept?_get_iff hcaching hpage,
        List.exists_mem_cons_iff, or_assoc]

/-! ## Pages -/

/-- Whether a name is that of a page: of a file in the store that is no layout, or of a page that
was registered, when pages have to be. -/
def IsPage (site : Site) (store : Store) (name : Text) : Prop :=
  match site.mode with
  | .convention =>
    ∃ entries, store.list = .ok entries ∧ ⟨name, false⟩ ∈ entries ∧ isLayout name = false
  | .explicit pages => ∃ r, pages.get? name = some r

theorem mem_pageNames_iff {site : Site} {store : Store} {names : List Text}
    (hnames : site.pageNames store = .ok names) (name : Text) :
    name ∈ names ↔ site.IsPage store name := by
  unfold pageNames at hnames
  unfold IsPage
  cases hmode : site.mode with
  | explicit pages =>
      rw [hmode] at hnames
      obtain rfl := Except.ok.inj hnames
      exact Table.mem_names_iff
  | convention =>
      simp only [hmode] at hnames
      cases hlist : store.list with
      | error e =>
          rw [hlist] at hnames
          cases hnames
      | ok entries =>
          rw [hlist] at hnames
          obtain rfl := Except.ok.inj hnames
          simp only [Except.ok.injEq, exists_eq_left', List.mem_map, List.mem_filter,
            Bool.and_eq_true, Bool.not_eq_true']
          constructor
          · rintro ⟨⟨path, isDir⟩, ⟨hentry, hdir, hlayout⟩, rfl⟩
            obtain rfl : isDir = false := hdir
            exact ⟨hentry, hlayout⟩
          · rintro ⟨hentry, hlayout⟩
            exact ⟨⟨name, false⟩, ⟨hentry, rfl, hlayout⟩, rfl⟩

theorem compileAll_eq_ok_iff {site : Site} {store : Store} {count : Nat} :
    (site.compileAll store).result = .ok count ↔
      ∃ names, site.pageNames store = .ok names ∧
        (getAll store site names).result = .ok () ∧ names.length = count := by
  unfold compileAll
  cases site.pageNames store with
  | error e => simp
  | ok names =>
      simp only [Except.map_eq_ok_iff, Except.ok.injEq, exists_eq_left']
      exact ⟨fun ⟨_, hall, hcount⟩ => ⟨hall, hcount⟩, fun ⟨hall, hcount⟩ => ⟨(), hall, hcount⟩⟩

/-- What is kept after all pages were compiled: what their names stand for. -/
theorem exists_kept?_compileAll_iff {site : Site} {store : Store} {count : Nat}
    (hcaching : site.cache.isSome) (hwarm : (site.compileAll store).result = .ok count)
    (other : Text) :
    (∃ page, (site.compileAll store).site.kept? other = some page) ↔
      (∃ page, site.kept? other = some page) ∨
        ∃ name, site.IsPage store name ∧ site.resolve name = other := by
  obtain ⟨names, hnames, hall, -⟩ := compileAll_eq_ok_iff.mp hwarm
  have hkept := exists_kept?_getAll_iff hcaching hall other
  simp only [mem_pageNames_iff hnames] at hkept
  have hsite : (site.compileAll store).site = (getAll store site names).site := by
    rw [compileAll, hnames]
  rw [hsite, hkept]

/-! ## Serving -/

/-- Files that were read into a namespace were looked for. -/
theorem reads_ne_nil_of_compileInto {store : Store} {files : List Ingredient}
    {ns view : Template.Namespace} (hfiles : files ≠ [])
    (hview : (compileInto store files ns).result = .ok view) :
    (compileInto store files ns).reads ≠ [] := by
  rcases compileInto_cases store files ns with ⟨found, hall⟩ | ⟨_, _, _, _, e, -, -, -, hall⟩
  · rw [hall]
    exact mt List.map_eq_nil_iff.mp hfiles
  · rw [hall] at hview
    cases hview

theorem reads_ne_nil_of_compile {site : Site} {store : Store} {name : Text}
    {view : Template.Namespace} (hview : (site.compile store name).result = .ok view) :
    (site.compile store name).reads ≠ [] := by
  unfold compile at hview ⊢
  cases hmode : site.mode with
  | convention =>
      simp only [hmode, compileByConvention] at hview ⊢
      cases hlayout : isLayout name with
      | true =>
          rw [hlayout] at hview
          cases hview
      | false =>
          rw [hlayout] at hview
          exact reads_ne_nil_of_compileInto (by simp [conventionIngredients]) hview
  | explicit pages =>
      simp only [hmode] at hview ⊢
      cases hpage : pages.get? name with
      | none =>
          rw [hpage] at hview
          cases hview
      | some r =>
          rw [hpage] at hview
          exact reads_ne_nil_of_compileInto (by simp [Registration.ingredients]) hview

namespace Service

/-- A request for a name finds this page and reads nothing. -/
def Serves (s : Service) (name : Text) (page : Compiled) : Prop :=
  s.site.get s.store name = ⟨s.site, [], .ok page⟩

theorem serves_iff {s : Service} {name : Text} {page : Compiled} :
    s.Serves name page ↔ s.site.kept? (s.site.resolve name) = some page := by
  constructor
  · intro hserves
    rcases get_cases s.site s.store name with
      ⟨found, hkept, hget⟩ | ⟨view, hview, hget, -⟩ | ⟨e, hget⟩
    · have hresult := congrArg Answer.result (hget.symm.trans hserves)
      rw [hkept, Except.ok.inj hresult]
    · have hreads := congrArg Answer.reads (hget.symm.trans hserves)
      exact absurd hreads (reads_ne_nil_of_compile hview)
    · have hresult := congrArg Answer.result (hget.symm.trans hserves)
      cases hresult
  · exact get_of_kept

theorem outlasts_perform (s : Service) (act : Act) : Outlasts (s.perform act).site s.site :=
  perform_of_lookups outlasts_lookup (.refl s.site) act

theorem outlasts_run (s : Service) (acts : List Act) : Outlasts (s.run acts).site s.site :=
  run_of_lookups outlasts_lookup (.refl s.site) acts

theorem serves_run_of_kept {s : Service} {name : Text} {page : Compiled}
    (hkept : s.site.kept? (s.site.resolve name) = some page) (acts : List Act) :
    (s.run acts).Serves name page := by
  have hlater := s.outlasts_run acts
  rw [serves_iff, hlater.resolve]
  exact hlater.kept _ _ hkept

/-- What is kept once is served ever after, whatever happens to the store. -/
theorem exists_forall_serves_iff (s : Service) (name : Text) :
    (∃ page, ∀ acts, (s.run acts).Serves name page) ↔
      ∃ page, s.site.kept? (s.site.resolve name) = some page := by
  constructor
  · rintro ⟨page, hserves⟩
    exact ⟨page, serves_iff.mp (hserves [])⟩
  · rintro ⟨page, hkept⟩
    exact ⟨page, serves_run_of_kept hkept⟩

/-- Once all pages are compiled, every page is served without the store ever after.  A short name of
a page is served so if and only if the page was kept before or is what some page's name stands
for, as it is when its own name is short for nothing else. -/
theorem compileAll_serves_iff {s : Service} {count : Nat} (hcaching : s.site.cache.isSome)
    (hwarm : (s.site.compileAll s.store).result = .ok count) :
    (∀ name, s.site.IsPage s.store name →
        ∃ page, ∀ acts, ((s.perform .compileAll).run acts).Serves name page) ∧
      ∀ short name, s.site.aliases.get? short = some name → s.site.IsPage s.store name →
        ((∃ page, ∀ acts, ((s.perform .compileAll).run acts).Serves short page) ↔
            (∃ page, s.site.kept? name = some page) ∨
              ∃ other, s.site.IsPage s.store other ∧ s.site.resolve other = name) ∧
          (s.site.aliases.get? name = none →
            ∃ page, ∀ acts, ((s.perform .compileAll).run acts).Serves short page) := by
  have hserved : ∀ name, (∃ page, ∀ acts, ((s.perform .compileAll).run acts).Serves name page) ↔
      (∃ page, s.site.kept? (s.site.resolve name) = some page) ∨
        ∃ other, s.site.IsPage s.store other ∧ s.site.resolve other = s.site.resolve name := by
    intro name
    rw [exists_forall_serves_iff, (s.outlasts_perform .compileAll).resolve]
    exact exists_kept?_compileAll_iff hcaching hwarm _
  refine ⟨fun name hname => (hserved name).mpr (.inr ⟨name, hname, rfl⟩), ?_⟩
  intro short name hshort hname
  have hresolve : s.site.resolve short = name := by rw [Site.resolve, hshort, Option.getD_some]
  have hserves := hserved short
  rw [hresolve] at hserves
  refine ⟨hserves, fun hself => hserves.mpr (.inr ⟨name, hname, ?_⟩)⟩
  rw [Site.resolve, hself, Option.getD_none]

/-- Two pages, of which the first is a short name of the second: a short name of the second is
served from then on, and a short name of the first is not. -/
theorem compileAll_serves_second :
    let files := (Memory.empty.insert "a.html".toList (Utf8.encode "A".toList)).insert
      "b.html".toList (Utf8.encode "B".toList)
    let s := start (opened { Settings.plain with cached := true } false
      [.shorten "a.html".toList "b.html".toList, .shorten "first".toList "a.html".toList,
        .shorten "second".toList "b.html".toList]) files.store
    s.site.cache.isSome = true ∧ (s.site.compileAll s.store).result = .ok 2 ∧
      (∃ page, ∀ acts, ((s.perform .compileAll).run acts).Serves "second".toList page) ∧
      ¬ ∃ page, ∀ acts, ((s.perform .compileAll).run acts).Serves "first".toList page := by
  intro files s
  have hcaching : s.site.cache.isSome = true := rfl
  have hwarm : (s.site.compileAll s.store).result = .ok 2 :=
    Except.toOption_eq_some_iff.mp (by decide +kernel)
  have hnames : s.site.pageNames s.store = .ok ["a.html".toList, "b.html".toList] := rfl
  have hfirst : s.site.IsPage s.store "a.html".toList :=
    (mem_pageNames_iff hnames _).mp (by decide)
  have hsecond : s.site.IsPage s.store "b.html".toList :=
    (mem_pageNames_iff hnames _).mp (by decide)
  obtain ⟨-, hshort⟩ := compileAll_serves_iff hcaching hwarm
  refine ⟨hcaching, hwarm, (hshort _ _ (by decide) hsecond).2 (by decide), ?_⟩
  rw [(hshort _ _ (by decide) hfirst).1]
  rintro (⟨page, hkept⟩ | ⟨other, hother, hresolve⟩)
  · cases hkept
  · have hmem := (mem_pageNames_iff hnames other).mpr hother
    simp only [List.mem_cons, List.not_mem_nil, or_false] at hmem
    rcases hmem with rfl | rfl
    · exact absurd hresolve (by decide)
    · exact absurd hresolve (by decide)

/-- The same two pages: the first is a page with a short name, all pages were compiled, and once its
file is gone the short name finds nothing. -/
theorem compileAll_passes_over :
    let files := (Memory.empty.insert "a.html".toList (Utf8.encode "A".toList)).insert
      "b.html".toList (Utf8.encode "B".toList)
    let s := start (opened { Settings.plain with cached := true } false
      [.shorten "a.html".toList "b.html".toList, .shorten "first".toList "a.html".toList])
        files.store
    let later := (s.perform .compileAll).run
      [.restock (files.remove "a.html".toList).store]
    s.site.cache.isSome = true ∧ (s.site.compileAll s.store).result = .ok 2 ∧
      s.site.aliases.get? "first".toList = some "a.html".toList ∧
      s.site.IsPage s.store "a.html".toList ∧
      (later.site.get later.store "first".toList).reads =
        ["@layout.html".toList, "a.html".toList] ∧
      (later.site.get later.store "first".toList).result.isOk = false := by
  intro files s later
  have hnames : s.site.pageNames s.store = .ok ["a.html".toList, "b.html".toList] := rfl
  exact ⟨rfl, Except.toOption_eq_some_iff.mp (by decide +kernel), by decide,
    (mem_pageNames_iff hnames _).mp (by decide), by decide +kernel, by decide +kernel⟩

end Service
end PageTemplates.Site
