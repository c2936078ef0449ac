import PageTemplates.Proofs.Site.WarmUp
import PageTemplates.Proofs.Store.Listing

/-!
Compiling all pages when one of them cannot be made.  The pages are looked up in the order
of their names, up to the first that fails.  Those before it are kept, so another attempt
reads nothing for them and goes on, as far as the store can tell, with the page that failed.
-/

namespace PageTemplates.Site

/-! ## Lookups in turn -/

theorem kept?_get {site : Site} {store : Store} {name : Text} {page : Compiled}
    (hcaching : site.cache.isSome) (hpage : (site.get store name).result = .ok page) :
    (site.get store name).site.kept? (site.resolve name) = some page := by
  rcases get_cases site store name with ⟨found, hkept, hget⟩ | ⟨view, -, hget, -⟩ | ⟨e, hget⟩
  · rw [hget] at hpage ⊢
    rw [hkept, Except.ok.inj hpage]
  · rw [hget] at hpage ⊢
    rw [kept?_fill hcaching, if_pos rfl, Except.ok.inj hpage]
  · rw [hget] at hpage
    cases hpage

/-- When the first of the pages are found, the others are looked up on the site that has them. -/
theorem getAll_append {site : Site} {store : Store} {done : List Text}
    (hdone : (getAll store site done).result = .ok ()) (rest : List Text) :
    getAll store site (done ++ rest) =
      let others := getAll store (getAll store site done).site rest
      ⟨others.site, (getAll store site done).reads ++ others.reads, others.result⟩ := by
  induction done generalizing site with
  | nil => rfl
  | cons name more ih =>
      obtain ⟨page, hpage, hmore⟩ := getAll_cons_eq_ok_iff.mp hdone
      rw [List.cons_append, getAll, getAll, hpage]
      simp only [ih hmore, List.append_assoc]

theorem lookupsInTurn_append {site : Site} {store : Store} {done : List Text}
    (hdone : (getAll store site done).result = .ok ()) (rest : List Text) :
    lookupsInTurn store site (done ++ rest) =
      lookupsInTurn store site done ++
        lookupsInTurn store (getAll store site done).site rest := by
  induction done generalizing site with
  | nil => rfl
  | cons name more ih =>
      obtain ⟨page, hpage, hmore⟩ := getAll_cons_eq_ok_iff.mp hdone
      rw [List.cons_append, lookupsInTurn, lookupsInTurn, site_getAll_cons hpage, hpage]
      simp only [ih hmore, List.cons_append]

/-- Looking up several pages fails as the first of them that fails does. -/
theorem getAll_eq_error_iff {site : Site} {store : Store} {names : List Text} {e : PageError} :
    (getAll store site names).result = .error e ↔
      ∃ done failing rest, names = done ++ failing :: rest ∧
        (getAll store site done).result = .ok () ∧
          ((getAll store site done).site.get store failing).result = .error e := by
  constructor
  · intro herror
    induction names generalizing site with
    | nil => cases herror
    | cons name rest ih =>
        rw [getAll] at herror
        cases hfirst : (site.get store name).result with
        | error fault =>
            rw [hfirst] at herror
            obtain rfl := Except.error.inj herror
            exact ⟨[], name, rest, rfl, rfl, hfirst⟩
        | ok page =>
            rw [hfirst] at herror
            obtain ⟨done, failing, others, rfl, hdone, hfailing⟩ := ih herror
            refine ⟨name :: done, failing, others, rfl, ?_, ?_⟩
            · exact getAll_cons_eq_ok_iff.mpr ⟨page, hfirst, hdone⟩
            · rw [site_getAll_cons hfirst]
              exact hfailing
  · rintro ⟨done, failing, rest, rfl, hdone, hfailing⟩
    rw [getAll_append hdone]
    simp only [getAll, hfailing]

/-- Pages that are kept are found without a change. -/
theorem getAll_of_kept {site : Site} {names : List Text} (store : Store)
    (hkept : ∀ name ∈ names, ∃ page, site.kept? (site.resolve name) = some page) :
    getAll store site names = ⟨site, [], .ok ()⟩ := by
  induction names with
  | nil => rfl
  | cons name rest ih =>
      obtain ⟨⟨page, hpage⟩, hrest⟩ := List.forall_mem_cons.mp hkept
      simp only [getAll, get_of_kept hpage, ih hrest, List.nil_append]

/-- A lookup among several is one on the site as the others before it left it. -/
theorem exists_outlasts_of_mem_lookupsInTurn {site : Site} {store : Store} {names : List Text}
    {l : Lookup} (hl : l ∈ lookupsInTurn store site names) :
    ∃ later, Outlasts later site ∧ l = later.lookup store l.name := by
  induction names generalizing site with
  | nil => cases hl
  | cons name rest ih =>
      rw [lookupsInTurn] at hl
      rcases List.mem_cons.mp hl with rfl | hrest
      · exact ⟨site, .refl site, rfl⟩
      · cases hfirst : (site.get store name).result with
        | error e =>
            rw [hfirst] at hrest
            cases hrest
        | ok page =>
            rw [hfirst] at hrest
            obtain ⟨later, hlater, hl⟩ := ih hrest
            exact ⟨later, hlater.trans (outlasts_get site store name), hl⟩

/-- When all pages were found, each lookup found the page that is kept in the end. -/
theorem forall₂_lookupsInTurn {site : Site} {store : Store} {names : List Text}
    (hcaching : site.cache.isSome) (hall : (getAll store site names).result = .ok ()) :
    List.Forall₂
      (fun name l => l.name = name ∧ ∃ page, l.result = .ok page ∧
        (getAll store site names).site.kept? (site.resolve name) = some page)
      names (lookupsInTurn store site names) := by
  induction names generalizing site with
  | nil => exact .nil
  | cons name rest ih =>
      obtain ⟨page, hpage, hrest⟩ := getAll_cons_eq_ok_iff.mp hall
      have hfirst := outlasts_get site store name
      have hothers := ih (hfirst.caching.trans hcaching) hrest
      have hlast := outlasts_getAll store (site.get store name).site rest
      rw [lookupsInTurn, hpage, site_getAll_cons hpage]
      simp only [hfirst.resolve] at hothers
      exact .cons ⟨rfl, page, hpage, hlast.kept _ _ (kept?_get hcaching hpage)⟩ hothers

/-! ## All pages -/

theorem compileAll_of_pageNames {site : Site} {store : Store} {names : List Text}
    (hnames : site.pageNames store = .ok names) :
    site.compileAll store =
      let all := getAll store site names
      ⟨all.site, all.reads, all.result.map fun _ => names.length⟩ := by
  rw [compileAll, hnames]

/-- Pages come in the order of their names. -/
theorem pairwise_pageNames {site : Site} {store : Store} {names : List Text}
    (hordered : store.Ordered) (hnames : site.pageNames store = .ok names) :
    names.Pairwise (· < ·) := by
  unfold pageNames at hnames
  cases hmode : site.mode with
  | explicit pages =>
      rw [hmode] at hnames
      obtain rfl := Except.ok.inj hnames
      exact List.pairwise_map.mpr pages.increasing
  | convention =>
      simp only [hmode] at hnames
      cases hlist : store.list with
      | error e =>
          rw [hlist] at hnames
          cases hnames
      | ok entries =>
          rw [hlist] at hnames
          obtain rfl := Except.ok.inj hnames
          refine Entry.pairwise_path_lt ((hordered entries hlist).filter _) ?_
          intro entry hentry
          have hkind := (List.mem_filter.mp hentry).2
          rw [Bool.and_eq_true, Bool.not_eq_true'] at hkind
          exact hkind.1

namespace Service

/-- Whether each of these names was looked up in turn and found, to be served without the store
ever after. -/
def AllServed (s : Service) : List Text → List Lookup → Prop :=
  List.Forall₂ fun name l => l.name = name ∧
    ∃ page, l.result = .ok page ∧ ∀ acts, (s.run acts).Serves name page

/-- How the compilation of all pages ends at one that fails, `done` being the names before it and
`rest` those after it. -/
structure EndsAt (s : Service) (done : List Text) (failing : Text) (rest : List Text)
    (e : PageError) : Prop where
  /-- The pages before it are found and stay, and nothing is looked up after it. -/
  lookups : ∃ found last,
    lookupsInTurn s.store s.site (done ++ failing :: rest) = found ++ [last] ∧
      AllServed (s.perform .compileAll) done found ∧
        last.name = failing ∧ last.result = .error e
  /-- Whenever all pages are compiled again, whatever the store answers by then, nothing is read for
  the pages before it. -/
  unread : ∀ acts names,
    let later := (s.perform .compileAll).run acts
    later.site.pageNames later.store = .ok names →
      ∀ l ∈ lookupsInTurn later.store later.site names, l.name ∈ done →
        l.reads = [] ∧ ∃ page, l.result = .ok page
  /-- If the pages are still the same by then, the second attempt goes on with the one that
  failed. -/
  resumed : ∀ acts,
    let later := (s.perform .compileAll).run acts
    let others := getAll later.store later.site (failing :: rest)
    later.site.pageNames later.store = .ok (done ++ failing :: rest) →
      later.site.compileAll later.store =
        ⟨others.site, others.reads,
          others.result.map fun _ => (done ++ failing :: rest).length⟩

/-- What the first of all pages left is still there when all of them were compiled, or one failed. -/
theorem outlasts_getAll_compileAll {s : Service} {done rest : List Text}
    (hnames : s.site.pageNames s.store = .ok (done ++ rest))
    (hdone : (getAll s.store s.site done).result = .ok ()) :
    Outlasts (s.perform .compileAll).site (getAll s.store s.site done).site := by
  have hsite : (s.perform .compileAll).site =
      (getAll s.store (getAll s.store s.site done).site rest).site := by
    rw [perform, compileAll_of_pageNames hnames, getAll_append hdone]
  rw [hsite]
  exact outlasts_getAll s.store _ rest

theorem allServed_of_getAll {s : Service} {done rest : List Text} (hcaching : s.site.cache.isSome)
    (hnames : s.site.pageNames s.store = .ok (done ++ rest))
    (hdone : (getAll s.store s.site done).result = .ok ()) :
    (s.perform .compileAll).AllServed done (lookupsInTurn s.store s.site done) := by
  refine (forall₂_lookupsInTurn hcaching hdone).imp ?_
  rintro name l ⟨hname, page, hpage, hkept⟩
  refine ⟨hname, page, hpage, fun acts => serves_run_of_kept ?_ acts⟩
  rw [(s.outlasts_perform .compileAll).resolve]
  exact (outlasts_getAll_compileAll hnames hdone).kept _ _ hkept

theorem AllServed.exists_serves {s : Service} {names : List Text} {found : List Lookup}
    (h : s.AllServed names found) :
    ∀ name ∈ names, ∃ page, ∀ acts, (s.run acts).Serves name page := by
  induction h with
  | nil => exact List.forall_mem_nil _
  | cons hfirst _ ih =>
      obtain ⟨-, page, -, hserves⟩ := hfirst
      exact List.forall_mem_cons.mpr ⟨⟨page, hserves⟩, ih⟩

/-- Nothing is read for a page that is kept, when several pages are looked up in turn. -/
theorem unread_of_serves {s : Service} {page : Compiled} {names : List Text} {l : Lookup}
    (hserves : s.Serves l.name page) (hl : l ∈ lookupsInTurn s.store s.site names) :
    l.reads = [] ∧ l.result = .ok page := by
  obtain ⟨later, hlater, hlookup⟩ := exists_outlasts_of_mem_lookupsInTurn hl
  have hkept := hlater.kept _ _ (serves_iff.mp hserves)
  rw [← hlater.resolve] at hkept
  rw [hlookup, lookup, get_of_kept hkept]
  exact ⟨rfl, rfl⟩

theorem endsAt_of_getAll {s : Service} {done : List Text} {failing : Text} {rest : List Text}
    {e : PageError} (hcaching : s.site.cache.isSome)
    (hnames : s.site.pageNames s.store = .ok (done ++ failing :: rest))
    (hdone : (getAll s.store s.site done).result = .ok ())
    (hfailing : ((getAll s.store s.site done).site.get s.store failing).result = .error e) :
    s.EndsAt done failing rest e := by
  have hall := allServed_of_getAll hcaching hnames hdone
  have hserved := hall.exists_serves
  constructor
  · refine ⟨lookupsInTurn s.store s.site done,
      (getAll s.store s.site done).site.lookup s.store failing, ?_, hall, rfl, hfailing⟩
    rw [lookupsInTurn_append hdone, lookupsInTurn, hfailing]
  · intro acts names later _ l hl hname
    obtain ⟨page, hserves⟩ := hserved l.name hname
    obtain ⟨hreads, hresult⟩ := unread_of_serves (hserves acts) hl
    exact ⟨hreads, page, hresult⟩
  · intro acts later others hlater
    have hkept : ∀ name ∈ done, ∃ page, later.site.kept? (later.site.resolve name) = some page := by
      intro name hname
      obtain ⟨page, hserves⟩ := hserved name hname
      exact ⟨page, serves_iff.mp (hserves acts)⟩
    have hagain := getAll_of_kept later.store hkept
    rw [compileAll_of_pageNames hlater, getAll_append (congrArg Answer.result hagain), hagain]
    rfl

/-- All pages are looked up in the order of their names, up to the first that fails.  When none
does, they are counted and all of them stay.  Otherwise those before it stay, nothing is looked
up after it, and another attempt goes on with it. -/
theorem compileAll_ends_at_first_failure {s : Service} {names : List Text}
    (hcaching : s.site.cache.isSome) (hnames : s.site.pageNames s.store = .ok names) :
    (s.store.Ordered → names.Pairwise (· < ·)) ∧
      (∀ name, name ∈ names ↔ s.site.IsPage s.store name) ∧
      (s.site.compileAll s.store).reads =
        (lookupsInTurn s.store s.site names).flatMap (·.reads) ∧
      (∀ count, (s.site.compileAll s.store).result = .ok count →
        count = names.length ∧
          (s.perform .compileAll).AllServed names (lookupsInTurn s.store s.site names)) ∧
      ∀ e, (s.site.compileAll s.store).result = .error e →
        ∃ done failing rest, names = done ++ failing :: rest ∧ s.EndsAt done failing rest e := by
  refine ⟨fun hordered => pairwise_pageNames hordered hnames, mem_pageNames_iff hnames, ?_, ?_, ?_⟩
  · rw [compileAll_of_pageNames hnames]
    exact reads_getAll s.store s.site names
  · intro count hcount
    rw [compileAll_of_pageNames hnames] at hcount
    obtain ⟨_, hall, rfl⟩ := Except.map_eq_ok_iff.mp hcount
    have hwhole : s.site.pageNames s.store = .ok (names ++ []) := by rwa [List.append_nil]
    exact ⟨rfl, allServed_of_getAll hcaching hwhole hall⟩
  · intro e he
    rw [compileAll_of_pageNames hnames] at he
    obtain ⟨done, failing, rest, rfl, hdone, hfailing⟩ :=
      getAll_eq_error_iff.mp (Except.map_eq_error_iff.mp he)
    exact ⟨done, failing, rest, rfl, endsAt_of_getAll hcaching hnames hdone hfailing⟩

/-- Three pages, of which the third is a short name of the first and the second cannot be read: after
the first attempt the first page stays, and once the second can be read only its files are. -/
theorem compileAll_ends_at_unreadable :
    let files := ((Memory.empty.insert "a.html".toList (Utf8.encode "A".toList)).insert
      "b.html".toList (Utf8.encode "B".toList)).insert "c.html".toList (Utf8.encode "C".toList)
    let s := start (opened { Settings.plain with cached := true } false
      [.shorten "c.html".toList "a.html".toList])
        (files.store.withFaults (Table.ofList [("b.html".toList, "broken")]) none)
    let names := ["a.html".toList, "b.html".toList, "c.html".toList]
    let later := (s.perform .compileAll).run [.restock files.store]
    s.site.cache.isSome = true ∧ s.site.pageNames s.store = .ok names ∧ names.Pairwise (· < ·) ∧
      (s.site.compileAll s.store).reads =
        ["@layout.html".toList, "a.html".toList, "@layout.html".toList, "b.html".toList] ∧
      (∃ e, (s.site.compileAll s.store).result = .error e ∧
        ∃ done failing rest, names = done ++ failing :: rest ∧ s.EndsAt done failing rest e) ∧
      (later.site.compileAll later.store).result = .ok 3 ∧
      (later.site.compileAll later.store).reads = ["@layout.html".toList, "b.html".toList] := by
  intro files s names later
  have hcaching : s.site.cache.isSome = true := rfl
  have hnames : s.site.pageNames s.store = .ok names := rfl
  have hordered : s.store.Ordered := files.ordered.withFaults _ none
  have hfails : (s.site.compileAll s.store).result.isOk = false := by decide +kernel
  obtain ⟨hsorted, -, -, -, hends⟩ := compileAll_ends_at_first_failure hcaching hnames
  refine ⟨hcaching, hnames, hsorted hordered, by decide +kernel, ?_,
    Except.toOption_eq_some_iff.mp (by decide +kernel), by decide +kernel⟩
  cases hresult : (s.site.compileAll s.store).result with
  | ok count =>
      rw [hresult] at hfails
      cases hfails
  | error e => exact ⟨e, rfl, hends e hresult⟩

end Service
end PageTemplates.Site
