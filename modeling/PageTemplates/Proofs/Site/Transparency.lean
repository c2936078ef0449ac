import PageTemplates.Proofs.Except
import PageTemplates.Proofs.Site.Lookups
import PageTemplates.Proofs.Site.Slots

/-!
What keeping pages changes.  A site that keeps its pages is compared with one that
was prepared in the same way and keeps nothing: over any run, with the store changing
underneath, a lookup is answered by the page found before under the same name, or
else just as the other site would answer at that moment.
-/

namespace PageTemplates.Site

/-- The names, after short names are resolved, of the lookups that found a page. -/
def found (site : Site) (lookups : List Lookup) : Finset Text :=
  ((lookups.filter (·.result.isOk)).map fun l => site.resolve l.name).toFinset

/-- How a lookup has to be answered after some earlier ones, beside a site that
keeps nothing. -/
structure Transparent (plain : Site) (past : List Lookup) (l : Lookup) : Prop where
  /-- What was found before is found again, the very same object, and nothing is
  read. -/
  again : ∀ earlier ∈ past, plain.resolve earlier.name = plain.resolve l.name →
    ∀ page, earlier.result = .ok page → l.result = .ok page ∧ l.reads = []
  /-- What was not found before is looked up as on the other site. -/
  anew : (∀ earlier ∈ past, plain.resolve earlier.name = plain.resolve l.name →
      ∀ page, earlier.result ≠ .ok page) →
    l.result.map Compiled.view = (plain.get l.store l.name).result.map Compiled.view ∧
      l.reads = (plain.get l.store l.name).reads
  /-- A page under one name is never the object under another. -/
  apart : ∀ earlier ∈ past, plain.resolve earlier.name ≠ plain.resolve l.name →
    ∀ page other, earlier.result = .ok page → l.result = .ok other →
      page.serial ≠ other.serial
  /-- The pages kept are those under the names found so far. -/
  counted : l.kept = (plain.found (past ++ [l])).card

theorem mem_found_iff {site : Site} {lookups : List Lookup} {name : Text} :
    name ∈ site.found lookups ↔
      ∃ page, ∃ l ∈ lookups, site.resolve l.name = name ∧ l.result = .ok page := by
  simp only [found, List.mem_toFinset, List.mem_map, List.mem_filter, Except.isOk_iff]
  constructor
  · rintro ⟨l, ⟨hl, page, hresult⟩, hname⟩
    exact ⟨page, l, hl, hname, hresult⟩
  · rintro ⟨page, l, hl, hname, hresult⟩
    exact ⟨l, ⟨hl, page, hresult⟩, hname⟩

/-- A site that keeps its pages, against one that does not and the lookups so far:
it is prepared in the same way, and it keeps what was found and nothing else. -/
structure Keeps (plain : Site) (past : List Lookup) (site : Site) : Prop where
  aliases : site.aliases = plain.aliases
  mode : site.mode = plain.mode
  funcs : site.funcs = plain.funcs
  plain_cache : plain.cache = none
  cache : site.cache.isSome
  kept : ∀ name page, site.kept? name = some page ↔
    ∃ l ∈ past, plain.resolve l.name = name ∧ l.result = .ok page
  numbered : Numbered site.kept? site.compiled

theorem Keeps.resolve {plain site : Site} {past : List Lookup}
    (h : Keeps plain past site) (name : Text) : site.resolve name = plain.resolve name := by
  unfold Site.resolve
  rw [h.aliases]

theorem Keeps.compile {plain site : Site} {past : List Lookup}
    (h : Keeps plain past site) (store : Store) (name : Text) :
    site.compile store name = plain.compile store name := by
  unfold Site.compile
  rw [h.mode, h.funcs]

/-- The number of pages kept is the number of names found. -/
theorem Keeps.cached {plain site : Site} {past : List Lookup}
    (h : Keeps plain past site) : site.cached = (plain.found past).card := by
  obtain ⟨cache, hcache⟩ := Option.isSome_iff_exists.mp h.cache
  have hcached : site.cached = cache.size := by rw [Site.cached, hcache]
  rw [hcached]
  apply Cache.size_eq_card
  intro name
  rw [mem_found_iff]
  apply exists_congr
  intro page
  have hkept := h.kept name page
  rw [kept?, hcache, Option.bind_some] at hkept
  exact hkept.symm

/-! ## One lookup -/

theorem exists_mem_concat_iff {past : List Lookup} {l : Lookup} {p : Lookup → Prop} :
    (∃ l' ∈ past ++ [l], p l') ↔ (∃ l' ∈ past, p l') ∨ p l := by
  simp only [List.mem_append, List.mem_singleton, or_and_right, exists_or, exists_eq_left]

/-- A lookup that found what is kept changes nothing. -/
theorem Keeps.concat_kept {plain site : Site} {past : List Lookup} {l : Lookup}
    {page : Compiled} (h : Keeps plain past site) (hresult : l.result = .ok page)
    (hkept : site.kept? (plain.resolve l.name) = some page) :
    Keeps plain (past ++ [l]) site := by
  have hknown := (h.kept _ _).mp hkept
  refine { h with kept := ?_ }
  intro name other
  rw [exists_mem_concat_iff, h.kept]
  constructor
  · exact Or.inl
  · rintro (hpast | ⟨rfl, hother⟩)
    · exact hpast
    · obtain rfl := Except.ok.inj (hresult.symm.trans hother)
      exact hknown

/-- A lookup that failed makes room at most. -/
theorem Keeps.concat_failed {plain site : Site} {past : List Lookup} {l : Lookup}
    {e : PageError} (h : Keeps plain past site) (hresult : l.result = .error e)
    (name : Text) :
    Keeps plain (past ++ [l]) { site with cache := site.cache.map (·.reserve name) } := by
  have hsame : ∀ other, Site.kept? { site with cache := site.cache.map (·.reserve name) } other =
      site.kept? other := site.kept?_reserve name
  refine ⟨h.aliases, h.mode, h.funcs, h.plain_cache, ?_, ?_, h.numbered.congr hsame⟩
  · rw [Option.isSome_map]
    exact h.cache
  · intro other page
    have hnot : ¬ (plain.resolve l.name = other ∧ l.result = .ok page) := by
      simp [hresult]
    rw [hsame, h.kept, exists_mem_concat_iff, or_iff_left hnot]

/-- A lookup that compiled a page keeps it, under a number that no page had. -/
theorem Keeps.concat_compiled {plain site : Site} {past : List Lookup} {l : Lookup}
    {view : Template.Namespace} (h : Keeps plain past site)
    (hresult : l.result = .ok ⟨site.compiled, view⟩)
    (hfree : site.kept? (plain.resolve l.name) = none) :
    Keeps plain (past ++ [l])
      { site with
        cache := site.cache.map (·.fill (plain.resolve l.name) ⟨site.compiled, view⟩)
        compiled := site.compiled + 1 } := by
  have hnow : ∀ other, Site.kept?
      { site with
        cache := site.cache.map (·.fill (plain.resolve l.name) ⟨site.compiled, view⟩)
        compiled := site.compiled + 1 } other =
      if other = plain.resolve l.name then some ⟨site.compiled, view⟩
      else site.kept? other := fun other => kept?_fill h.cache _ other _ _
  refine ⟨h.aliases, h.mode, h.funcs, h.plain_cache, ?_, ?_, h.numbered.fill hnow⟩
  · rw [Option.isSome_map]
    exact h.cache
  · intro other page
    rw [hnow, exists_mem_concat_iff, ← h.kept]
    by_cases hother : other = plain.resolve l.name
    · subst hother
      simp [hfree, hresult]
    · simp [hother, Ne.symm hother]

theorem Keeps.concat_lookup {plain site : Site} {past : List Lookup}
    (h : Keeps plain past site) (store : Store) (name : Text) :
    Keeps plain (past ++ [site.lookup store name]) (site.get store name).site := by
  have hname : site.resolve name = plain.resolve name := h.resolve name
  cases hkept : site.kept? (site.resolve name) with
  | some page =>
      have hget : site.get store name = _ := get_of_kept hkept
      have hresult : (site.lookup store name).result = .ok page := by rw [lookup, hget]
      rw [hname] at hkept
      rw [congrArg Answer.site hget]
      exact h.concat_kept hresult hkept
  | none =>
      cases hcompile : (site.compile store (site.resolve name)).result with
      | error e =>
          have hget := get_of_compile_error hkept hcompile
          have hresult : (site.lookup store name).result = .error e := by rw [lookup, hget]
          rw [congrArg Answer.site hget]
          exact h.concat_failed hresult _
      | ok view =>
          have hget := get_of_compile_ok hkept hcompile
          have hresult : (site.lookup store name).result = .ok ⟨site.compiled, view⟩ := by
            rw [lookup, hget]
          rw [congrArg Answer.site hget, hname]
          rw [hname] at hkept
          exact h.concat_compiled hresult hkept

/-- A page that is not kept is looked up as on a site that keeps nothing. -/
theorem Keeps.get_of_not_kept {plain site : Site} {past : List Lookup}
    (h : Keeps plain past site) {store : Store} {name : Text}
    (hfree : site.kept? (plain.resolve name) = none) :
    (site.get store name).result.map Compiled.view =
        (plain.get store name).result.map Compiled.view ∧
      (site.get store name).reads = (plain.get store name).reads := by
  have hplain : plain.kept? (plain.resolve name) = none := by
    rw [kept?, h.plain_cache, Option.bind_none]
  have hsame : site.compile store (site.resolve name) =
      plain.compile store (plain.resolve name) := by
    rw [h.resolve, h.compile]
  rw [← h.resolve] at hfree
  cases hcompile : (plain.compile store (plain.resolve name)).result with
  | error e =>
      rw [get_of_compile_error hfree (by rw [hsame, hcompile]),
        get_of_compile_error hplain hcompile, hsame]
      exact ⟨rfl, rfl⟩
  | ok view =>
      rw [get_of_compile_ok hfree (by rw [hsame, hcompile]),
        get_of_compile_ok hplain hcompile, hsame]
      exact ⟨rfl, rfl⟩

theorem Keeps.transparent_lookup {plain site : Site} {past : List Lookup}
    (h : Keeps plain past site) (store : Store) (name : Text) :
    Transparent plain past (site.lookup store name) := by
  have hafter := h.concat_lookup store name
  constructor
  · intro earlier hearlier hname page hpage
    have hkept : site.kept? (site.resolve name) = some page := by
      rw [h.resolve]
      exact (h.kept _ _).mpr ⟨earlier, hearlier, hname, hpage⟩
    have hget : site.get store name = _ := get_of_kept hkept
    exact ⟨congrArg Answer.result hget, congrArg Answer.reads hget⟩
  · intro hnew
    apply h.get_of_not_kept
    rw [Option.eq_none_iff_forall_ne_some]
    intro page hkept
    obtain ⟨earlier, hearlier, hname, hpage⟩ := (h.kept _ _).mp hkept
    exact hnew earlier hearlier hname page hpage
  · intro earlier hearlier hne page other hpage hother hserial
    have hkept := (hafter.kept _ page).mpr
      ⟨earlier, List.mem_append_left _ hearlier, rfl, hpage⟩
    have hkept' := (hafter.kept _ other).mpr
      ⟨site.lookup store name, List.mem_concat_self, rfl, hother⟩
    exact hne (hafter.numbered.distinct _ _ page other hkept hkept' hserial)
  · exact hafter.cached

/-! ## Runs -/

/-- Every one of some lookups was answered as it has to be after those before it. -/
def AllTransparent (plain : Site) (lookups : List Lookup) : Prop :=
  ∀ past l rest, lookups = past ++ l :: rest → Transparent plain past l

theorem AllTransparent.nil (plain : Site) : AllTransparent plain [] := by
  intro past l rest heq
  simp at heq

theorem AllTransparent.concat {plain : Site} {past : List Lookup} {l : Lookup}
    (h : AllTransparent plain past) (hl : Transparent plain past l) :
    AllTransparent plain (past ++ [l]) := by
  intro before l' rest heq
  rcases List.eq_nil_or_concat rest with rfl | ⟨rest', last, rfl⟩
  · obtain ⟨rfl, hlast⟩ := List.append_inj' heq rfl
    obtain rfl := List.head_eq_of_cons_eq hlast
    exact hl
  · rw [List.concat_eq_append, ← List.cons_append, ← List.append_assoc] at heq
    obtain ⟨rfl, -⟩ := List.append_inj' heq rfl
    exact h before l' rest' rfl

/-- What holds of a run so far. -/
structure Sound (plain : Site) (past : List Lookup) (site : Site) : Prop where
  keeps : Keeps plain past site
  all : AllTransparent plain past

theorem Sound.lookup {plain site : Site} {past : List Lookup} (h : Sound plain past site)
    (store : Store) (name : Text) :
    Sound plain (past ++ [site.lookup store name]) (site.get store name).site :=
  ⟨h.keeps.concat_lookup store name,
    h.all.concat (h.keeps.transparent_lookup store name)⟩

theorem Sound.run {plain : Site} {s : Service} (h : Sound plain s.lookups s.site)
    (acts : List Act) : Sound plain (s.run acts).lookups (s.run acts).site :=
  Service.run_of_lookups (fun _ _ store name hpast => hpast.lookup store name) h acts

/-- Preparations do not look at what is kept. -/
theorem foldl_prepare_cache (site : Site) (cache : Option Cache)
    (preparations : List Preparation) :
    preparations.foldl prepare { site with cache } =
      { preparations.foldl prepare site with cache } := by
  induction preparations generalizing site with
  | nil => rfl
  | cons first rest ih =>
      have hfirst : prepare { site with cache } first = { prepare site first with cache } := by
        cases first <;> rfl
      rw [List.foldl_cons, List.foldl_cons, hfirst, ih]

/-- The settings, with pages kept or not. -/
def Settings.keeping (settings : Settings) (cached : Bool) : Settings :=
  { settings with cached }

theorem opened_keeping (settings : Settings) (onlyRegistered cached : Bool)
    (preparations : List Preparation) :
    opened (settings.keeping cached) onlyRegistered preparations =
      { opened settings onlyRegistered preparations with
        cache := if cached then some Cache.empty else none } := by
  rw [opened, opened, ← foldl_prepare_cache]
  cases onlyRegistered <;> rfl

/-- Before its first lookup a site keeps nothing, as nothing was found. -/
theorem keeps_opened (settings : Settings) (onlyRegistered : Bool)
    (preparations : List Preparation) :
    Keeps (opened (settings.keeping false) onlyRegistered preparations) []
      (opened (settings.keeping true) onlyRegistered preparations) := by
  rw [opened_keeping, opened_keeping]
  refine ⟨rfl, rfl, rfl, rfl, rfl, ?_, Numbered.of_eq_none fun _ => rfl⟩
  intro name page
  simp [kept?, Cache.find?_empty]

/-- Keeping pages shows in nothing but what is compiled and read again.  Whatever the
preparations, the acts and the changes of the store between them, every lookup of a
site that keeps its pages finds the very page that an earlier one found under the same
name, and is otherwise answered, page or error, as by a site that keeps nothing; and
the pages kept are counted by the names found. -/
theorem run_transparent (settings : Settings) (onlyRegistered : Bool)
    (preparations : List Preparation) (store : Store) (acts : List Act) :
    let plain := opened (settings.keeping false) onlyRegistered preparations
    let keeping := opened (settings.keeping true) onlyRegistered preparations
    let service := (Service.start keeping store).run acts
    (∀ past l rest, service.lookups = past ++ l :: rest → Transparent plain past l) ∧
      service.site.cached = (plain.found service.lookups).card := by
  intro plain keeping service
  have hstart : Sound plain (Service.start keeping store).lookups
      (Service.start keeping store).site :=
    ⟨keeps_opened settings onlyRegistered preparations, AllTransparent.nil plain⟩
  have hrun : Sound plain service.lookups service.site := hstart.run acts
  exact ⟨hrun.all, hrun.keeps.cached⟩

end PageTemplates.Site
