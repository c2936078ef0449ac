import PageTemplates.Proofs.Site.Lookups
import PageTemplates.Proofs.Site.Turns

/-!
A request that has a caching site to itself.  The steps of its thread come to the answer
of a lookup, read what the lookup reads, and leave in the slots what it leaves in the
cache.  So the lookups of a site in use, whatever asks for them, are requests that come
one after the other.
-/

namespace PageTemplates.Site

/-! ## What a lookup leaves in the slots -/

/-- What a caching site has in the slot of a name. -/
def slot? (site : Site) (name : Text) : Option (Option Compiled) :=
  site.cache.bind (·.slots.get? name)

theorem kept?_eq_join (site : Site) (name : Text) : site.kept? name = (site.slot? name).join := by
  unfold kept? slot?
  cases site.cache <;> rfl

/-- A lookup leaves the page that it answers with in the slot of the name, and after a
failure an empty slot. -/
theorem slot?_get {site : Site} (hcaching : site.cache.isSome) (store : Store)
    (name other : Text) :
    (site.get store name).site.slot? other =
      if other = site.resolve name then some (site.get store name).result.toOption
      else site.slot? other := by
  obtain ⟨cache, hcache⟩ := Option.isSome_iff_exists.mp hcaching
  cases hkept : site.kept? (site.resolve name) with
  | some page =>
      rw [get_of_kept hkept]
      split
      · next hother =>
        rw [kept?_eq_join, Option.join_eq_some_iff] at hkept
        rw [hother, hkept]
        rfl
      · rfl
  | none =>
      have hnone : cache.find? (site.resolve name) = none := by
        rw [kept?, hcache, Option.bind_some] at hkept
        exact hkept
      cases hcompile : (site.compile store (site.resolve name)).result with
      | ok view =>
          rw [get_of_compile_ok hkept hcompile]
          simp only [slot?, hcache, Option.map_some, Option.bind_some, Cache.get?_fill]
          rfl
      | error e =>
          rw [get_of_compile_error hkept hcompile]
          simp only [slot?, hcache, Option.map_some, Option.bind_some, Cache.get?_reserve, hnone]
          rfl

namespace Traffic

variable {t : Traffic}

/-! ## Slots that hold what a cache holds -/

/-- A site whose cache has what is in the slots, while nobody fills one. -/
structure Mirrors (t : Traffic) (site : Site) : Prop where
  slotted : t.Slotted
  slot : ∀ name, t.slotFor? name = (site.slot? name).map (⟨·, false⟩)
  compiled : t.compiled = site.compiled

theorem mirrors_ofCache {site : Site} {cache : Cache} (hcache : site.cache = some cache) :
    (ofCache cache site.compiled).Mirrors site where
  slotted := slotted_ofCache cache site.compiled
  slot name := by rw [slotFor?_ofCache, slot?, hcache, Option.bind_some]
  compiled := rfl

theorem Mirrors.arrive {site : Site} (h : t.Mirrors site) (name : Text) :
    (t.arrive name).Mirrors site :=
  ⟨h.slotted.arrive name, h.slot, h.compiled⟩

theorem Mirrors.cache_eq {site : Site} (h : t.Mirrors site) (hcaching : site.cache.isSome) :
    site.cache = some t.cache := by
  obtain ⟨cache, hcache⟩ := Option.isSome_iff_exists.mp hcaching
  have hslots : cache.slots = t.cache.slots := by
    apply Table.ext_get?
    intro name
    rw [get?_cache h.slotted, h.slot, slot?, hcache, Option.bind_some, Option.map_map]
    exact Option.map_id'.symm
  rw [hcache]
  exact congrArg (some ∘ Cache.mk) hslots

/-- The slots and the number of pages say what has become of a site. -/
theorem Mirrors.site_eq {site : Site} {cache : Option Cache} {compiled : Nat}
    (h : t.Mirrors { site with cache, compiled }) (hcaching : cache.isSome) :
    { site with cache, compiled } =
      { site with cache := some t.cache, compiled := t.compiled } := by
  obtain rfl : cache = some t.cache := h.cache_eq hcaching
  obtain rfl : t.compiled = compiled := h.compiled
  rfl

/-! ## Steps of one thread -/

/-- Several steps of a thread, with none of others between them. -/
def advance (t : Traffic) (compile : Text → Compilation) (thread steps : Nat) : Traffic :=
  t.run (List.replicate steps (.steps thread compile))

theorem advance_succ (compile : Text → Compilation) (thread steps : Nat) :
    t.advance compile thread (steps + 1) = (t.step compile thread).advance compile thread steps :=
  rfl

theorem advance_add (compile : Text → Compilation) (thread first second : Nat) :
    t.advance compile thread (first + second) =
      (t.advance compile thread first).advance compile thread second := by
  rw [advance, List.replicate_add, run, List.foldl_append]
  rfl

/-- What a thread leaves when nobody comes between its steps: it has the answer of a lookup
and has read what the lookup reads, and only the slot of its name has changed, as by the
lookup. -/
structure Served (t : Traffic) (thread : Nat) (name : Text) (answer : Answer Compiled)
    (later : Traffic) : Prop where
  slotted : later.Slotted
  slot : ∀ other, later.slotFor? other =
    if other = name then some ⟨answer.result.toOption, false⟩ else t.slotFor? other
  compiled : later.compiled = answer.site.compiled
  threads : later.threads = (t.moveTo thread (.answered answer.result)).threads
  reads : later.reads = t.reads ++ answer.reads

theorem threads_moveTo_moveTo (t : Traffic) (thread : Nat) (stage stage' : Stage) :
    ((t.moveTo thread stage).moveTo thread stage').threads =
      (t.moveTo thread stage').threads :=
  List.modify_modify_eq _ _ _ _

/-- A step that reads nothing and leaves other slots alone can stand before the others. -/
theorem Served.of_moved {u later : Traffic} {thread : Nat} {name : Text} {stage : Stage}
    {answer : Answer Compiled} (h : u.Served thread name answer later)
    (hslot : ∀ other, other ≠ name → u.slotFor? other = t.slotFor? other)
    (hthreads : u.threads = (t.moveTo thread stage).threads) (hreads : u.reads = t.reads) :
    t.Served thread name answer later where
  slotted := h.slotted
  slot other := by
    rw [h.slot]
    split
    · rfl
    · next hother => exact hslot other hother
  compiled := h.compiled
  threads := by
    rw [h.threads, ← threads_moveTo_moveTo t thread stage, moveTo, hthreads]
    rfl
  reads := by rw [h.reads, hreads]

/-- A thread that has its answer stays where it is. -/
theorem Served.advance {later : Traffic} {thread : Nat} {name : Text} {answer : Answer Compiled}
    (h : t.Served thread name answer later) (hthread : thread < t.threads.length)
    (compile : Text → Compilation) (steps : Nat) :
    t.Served thread name answer (later.advance compile thread steps) := by
  have hthere : later.threads[thread]? =
      some ⟨t.threads[thread].name, .answered answer.result⟩ := by
    rw [h.threads, moveTo, List.getElem?_modify_eq, List.getElem?_eq_getElem hthread]
    rfl
  have hstays : later.step compile thread = later := by simp only [step, hthere]
  induction steps with
  | zero => exact h
  | succ steps ih =>
      rw [advance_succ, hstays]
      exact ih

/-! ## A request alone -/

theorem reads_began (thread : Nat) (name : Text) : (t.tell (.began thread name)).reads = t.reads := by
  simp [reads, tell]

theorem reads_ended (thread : Nat) (name : Text) (c : Compilation) :
    (t.tell (.ended thread name c)).reads = t.reads ++ c.reads := by
  simp [reads, tell]

section Request

variable {site : Site} {store : Store} {name : Text} {thread : Nat}

section Slot

variable {slot : Nat} (hslotted : t.Slotted) (hslot : t.slotOf.get? (site.resolve name) = some slot)
  (hcompiled : t.compiled = site.compiled)

include hslotted hslot hcompiled

-- The stages from the last to the first: each takes one step and leaves the rest to the next.
theorem served_of_compiling
    (hthread : t.threads[thread]? = some ⟨site.resolve name, .compiling slot⟩)
    (hkept : site.kept? (site.resolve name) = none) :
    t.Served thread (site.resolve name) (site.get store name)
      (t.step (site.compile store) thread) := by
  cases hresult : (site.compile store (site.resolve name)).result with
  | ok view =>
      have hstep : t.step (site.compile store) thread =
          ((t.tell (.ended thread (site.resolve name)
            (site.compile store (site.resolve name)))).count.setSlot slot
              ⟨some ⟨t.compiled, view⟩, false⟩).moveTo thread
                (.answered (.ok ⟨t.compiled, view⟩)) := by
        simp only [step, hthread, conclude, hresult]
        rfl
      rw [hstep, get_of_compile_ok hkept hresult, ← hcompiled]
      exact ⟨((hslotted.tell _).count.setSlot _ _).moveTo _ _, slotFor?_setSlot hslotted hslot _,
        rfl, rfl, reads_ended _ _ _⟩
  | error e =>
      have hstep : t.step (site.compile store) thread =
          ((t.tell (.ended thread (site.resolve name)
            (site.compile store (site.resolve name)))).setSlot slot ⟨none, false⟩).moveTo thread
              (.answered (.error e)) := by
        simp only [step, hthread, conclude, hresult]
      rw [hstep, get_of_compile_error hkept hresult]
      exact ⟨((hslotted.tell _).setSlot _ _).moveTo _ _, slotFor?_setSlot hslotted hslot _,
        hcompiled, rfl, reads_ended _ _ _⟩

theorem served_of_waiting
    (hthread : t.threads[thread]? = some ⟨site.resolve name, .waiting slot⟩)
    (hfree : t.slotFor? (site.resolve name) = some ⟨none, false⟩)
    (hkept : site.kept? (site.resolve name) = none) :
    t.Served thread (site.resolve name) (site.get store name)
      (t.advance (site.compile store) thread 2) := by
  rw [slotFor?, hslot, Option.bind_some] at hfree
  have hbegins : t.step (site.compile store) thread =
      t.begin thread (site.resolve name) slot := by
    simp only [step, hthread, pageIn?, isBusy, hfree]
    rfl
  let u := t.begin thread (site.resolve name) slot
  have hcompiling : u.threads[thread]? = some ⟨site.resolve name, .compiling slot⟩ :=
    getElem?_moveTo_self rfl hthread _
  have hrest : u.Served thread (site.resolve name) (site.get store name)
      (u.step (site.compile store) thread) :=
    served_of_compiling (((hslotted.setSlot _ _).tell _).moveTo _ _) hslot hcompiled hcompiling hkept
  rw [advance_succ, hbegins]
  refine hrest.of_moved (fun other hother => ?_) rfl (reads_began _ _)
  exact (slotFor?_setSlot hslotted hslot _ other).trans (if_neg hother)

theorem served_of_looking
    (hthread : t.threads[thread]? = some ⟨site.resolve name, .looking slot⟩)
    (hfree : t.slotFor? (site.resolve name) = some ⟨site.kept? (site.resolve name), false⟩) :
    t.Served thread (site.resolve name) (site.get store name)
      (t.advance (site.compile store) thread 3) := by
  have hpage : t.pageIn? slot = site.kept? (site.resolve name) := by
    rw [pageIn?_eq_pageFor? hslot, pageFor?, hfree, Option.bind_some]
  cases hkept : site.kept? (site.resolve name) with
  | some page =>
      rw [hkept] at hpage hfree
      have hstep : t.step (site.compile store) thread =
          t.moveTo thread (.answered (.ok page)) := by
        simp only [step, hthread, hpage]
      have hserved : t.Served thread (site.resolve name) (site.get store name)
          (t.moveTo thread (.answered (.ok page))) := by
        rw [get_of_kept hkept]
        refine ⟨hslotted.moveTo _ _, fun other => ?_, hcompiled, rfl, (List.append_nil _).symm⟩
        split
        · next hother => exact hother ▸ hfree
        · rfl
      have hlt : thread < t.threads.length := (List.getElem?_eq_some_iff.mp hthread).1
      rw [advance_succ, hstep]
      exact hserved.advance hlt _ 2
  | none =>
      rw [hkept] at hpage hfree
      have hstep : t.step (site.compile store) thread = t.moveTo thread (.waiting slot) := by
        simp only [step, hthread, hpage]
      have hwaiting : (t.moveTo thread (.waiting slot)).threads[thread]? =
          some ⟨site.resolve name, .waiting slot⟩ :=
        getElem?_moveTo_self rfl hthread _
      rw [advance_succ, hstep]
      exact (served_of_waiting (hslotted.moveTo _ _) hslot hcompiled hwaiting hfree hkept).of_moved
        (fun _ _ => rfl) rfl rfl

omit hslot in
theorem served_of_reserving
    (hthread : t.threads[thread]? = some ⟨site.resolve name, .reserving⟩)
    (hfree : t.slotOf.get? (site.resolve name) = none)
    (hkept : site.kept? (site.resolve name) = none) :
    t.Served thread (site.resolve name) (site.get store name)
      (t.advance (site.compile store) thread 4) := by
  let u := (t.reserve (site.resolve name)).moveTo thread (.looking t.slots.length)
  have hstep : t.step (site.compile store) thread = u := by
    simp only [step, hthread, hfree]
    rfl
  have hnew := slotFor?_reserve hslotted (site.resolve name)
  have hslot : u.slotOf.get? (site.resolve name) = some t.slots.length :=
    (t.slotOf.get?_insert _ _ _).trans (if_pos rfl)
  have hlooking : u.threads[thread]? = some ⟨site.resolve name, .looking t.slots.length⟩ :=
    getElem?_moveTo_self rfl hthread _
  have hrest : u.Served thread (site.resolve name) (site.get store name)
      (u.advance (site.compile store) thread 3) := by
    refine served_of_looking ((hslotted.reserve _ hfree).moveTo _ _) hslot hcompiled hlooking ?_
    rw [hkept]
    exact (hnew _).trans (if_pos rfl)
  rw [advance_succ, hstep]
  exact hrest.of_moved (fun other hother => (hnew other).trans (if_neg hother)) rfl rfl

end Slot

/-- A request alone has the answer of a lookup after five steps at most. -/
theorem Mirrors.served (h : t.Mirrors site)
    (hthread : t.threads[thread]? = some ⟨site.resolve name, .seeking⟩) :
    t.Served thread (site.resolve name) (site.get store name)
      (t.advance (site.compile store) thread 5) := by
  have hmirror := h.slot (site.resolve name)
  cases hslot : t.slotOf.get? (site.resolve name) with
  | some slot =>
      have hlt : thread < t.threads.length := (List.getElem?_eq_some_iff.mp hthread).1
      have hstep : t.step (site.compile store) thread = t.moveTo thread (.looking slot) := by
        simp only [step, hthread, hslot]
      have hlooking : (t.moveTo thread (.looking slot)).threads[thread]? =
          some ⟨site.resolve name, .looking slot⟩ := getElem?_moveTo_self rfl hthread _
      have hfree : t.slotFor? (site.resolve name) =
          some ⟨site.kept? (site.resolve name), false⟩ := by
        have hthere := List.getElem?_eq_getElem (h.slotted.bound_lt _ slot hslot)
        rw [kept?_eq_join]
        cases hcontent : site.slot? (site.resolve name) with
        | none =>
            rw [slotFor?, hslot, Option.bind_some, hthere, hcontent] at hmirror
            cases hmirror
        | some content => rw [hmirror, hcontent, Option.map_some, Option.join_some]
      have hrest : t.Served thread (site.resolve name) (site.get store name)
          ((t.moveTo thread (.looking slot)).advance (site.compile store) thread 3) :=
        (served_of_looking (h.slotted.moveTo _ _) hslot h.compiled hlooking hfree).of_moved
          (fun _ _ => rfl) rfl rfl
      rw [advance_succ, hstep, advance_add _ _ 3 1]
      exact hrest.advance hlt _ 1
  | none =>
      have hfree : t.slotFor? (site.resolve name) = none := by
        rw [slotFor?, hslot, Option.bind_none]
      have hkept : site.kept? (site.resolve name) = none := by
        rw [kept?_eq_join, Option.map_eq_none_iff.mp (hmirror.symm.trans hfree), Option.join_none]
      have hstep : t.step (site.compile store) thread = t.moveTo thread .reserving := by
        simp only [step, hthread, hslot]
      have hreserving : (t.moveTo thread .reserving).threads[thread]? =
          some ⟨site.resolve name, .reserving⟩ := getElem?_moveTo_self rfl hthread _
      rw [advance_succ, hstep]
      exact (served_of_reserving (h.slotted.moveTo _ _) h.compiled hreserving hslot hkept).of_moved
        (fun _ _ => rfl) rfl rfl

theorem Served.mirrors {later : Traffic}
    (hserved : t.Served thread (site.resolve name) (site.get store name) later)
    (h : t.Mirrors site) (hcaching : site.cache.isSome) :
    later.Mirrors (site.get store name).site where
  slotted := hserved.slotted
  slot other := by
    rw [hserved.slot, slot?_get hcaching]
    split
    · rfl
    · exact h.slot other
  compiled := hserved.compiled

end Request

/-! ## Requests one after the other -/

/-- A request that comes and has its answer before anything else happens. -/
def serve (t : Traffic) (compile : Text → Compilation) (name : Text) : Traffic :=
  (t.arrive name).advance compile t.threads.length 5

theorem answers_append_singleton {th : Thread} {result : Except PageError Compiled}
    {later : Traffic} (hthreads : later.threads = t.threads ++ [th])
    (hresult : th.stage = .answered result) : later.answers = t.answers ++ [result] := by
  rw [answers, hthreads, List.filterMap_append]
  simp [answers, hresult]

/-- A request alone does what a lookup does. -/
theorem Mirrors.serve {site : Site} (h : t.Mirrors site) (hcaching : site.cache.isSome)
    (store : Store) (name : Text) :
    let later := t.serve (site.compile store) (site.resolve name)
    later.Mirrors (site.get store name).site ∧
      later.reads = t.reads ++ (site.get store name).reads ∧
      later.answers = t.answers ++ [(site.get store name).result] := by
  intro later
  have hthread : (t.arrive (site.resolve name)).threads[t.threads.length]? =
      some ⟨site.resolve name, .seeking⟩ := List.getElem?_concat_length
  have hserved : (t.arrive (site.resolve name)).Served t.threads.length (site.resolve name)
      (site.get store name) later := (h.arrive _).served hthread
  refine ⟨hserved.mirrors (h.arrive _) hcaching, hserved.reads, ?_⟩
  have hthreads : later.threads =
      t.threads ++ [⟨site.resolve name, .answered (site.get store name).result⟩] := by
    rw [hserved.threads, moveTo, Traffic.arrive, List.modify_eq_take_cons_drop (by simp)]
    simp
  exact answers_append_singleton hthreads rfl

/-- The requests that some lookups stand for, each coming when the one before has its answer. -/
def serveAll (t : Traffic) (site : Site) (lookups : List Lookup) : Traffic :=
  lookups.foldl (fun t l => t.serve (site.compile l.store) (site.resolve l.name)) t

/-- A traffic in which some requests came one after the other, and the site after the lookups
that they stand for. -/
structure Follows (first : Site) (start : Traffic) (past : List Lookup) (site : Site) : Prop where
  prepared : ∃ cache compiled, site = { first with cache, compiled }
  caching : site.cache.isSome
  mirrors : (start.serveAll first past).Mirrors site
  reads : (start.serveAll first past).reads = start.reads ++ past.flatMap (·.reads)
  answers : (start.serveAll first past).answers = start.answers ++ past.map (·.result)

theorem Follows.lookup {first site : Site} {start : Traffic} {past : List Lookup}
    (h : Follows first start past site) (store : Store) (name : Text) :
    Follows first start (past ++ [site.lookup store name]) (site.get store name).site := by
  obtain ⟨cache, compiled, rfl⟩ := h.prepared
  obtain ⟨hmirrors, hreads, hanswers⟩ := h.mirrors.serve h.caching store name
  obtain ⟨cache', compiled', hsite, hcaching⟩ := site_get { first with cache, compiled } store name
  -- short names and the ways of compiling are those of the first site
  have hall : start.serveAll first (past ++ [Site.lookup { first with cache, compiled } store name]) =
      (start.serveAll first past).serve (first.compile store) (first.resolve name) := by
    rw [serveAll, List.foldl_append]
    rfl
  constructor
  · exact ⟨cache', compiled', hsite⟩
  · rw [hsite]
    exact hcaching.trans h.caching
  · rw [hall]
    exact hmirrors
  · rw [hall, List.flatMap_append, List.flatMap_singleton, ← List.append_assoc, ← h.reads]
    exact hreads
  · rw [hall, List.map_append, List.map_singleton, ← List.append_assoc, ← h.answers]
    exact hanswers

end Traffic

/-- Whatever is done with a site that keeps its pages, its lookups are requests that come one after
the other: they have the answers of the threads and have read what the threads read, and what the
site keeps in the end is what is in the slots. -/
theorem run_eq_serveAll {site : Site} {cache : Cache} (hcache : site.cache = some cache)
    (store : Store) (acts : List Act) :
    let service := (Service.start site store).run acts
    let traffic := (Traffic.ofCache cache site.compiled).serveAll site service.lookups
    service.site = { site with cache := some traffic.cache, compiled := traffic.compiled } ∧
      traffic.reads = service.lookups.flatMap (·.reads) ∧
      traffic.answers = service.lookups.map (·.result) := by
  intro service traffic
  have hstart : Traffic.Follows site (Traffic.ofCache cache site.compiled) [] site := by
    refine ⟨⟨site.cache, site.compiled, rfl⟩, ?_, Traffic.mirrors_ofCache hcache, ?_, ?_⟩
    · rw [hcache]
      rfl
    · exact (List.append_nil _).symm
    · exact (List.append_nil _).symm
  have hrun : Traffic.Follows site (Traffic.ofCache cache site.compiled) service.lookups
      service.site :=
    Service.run_of_lookups (s := Service.start site store)
      (fun _ _ store name hpast => hpast.lookup store name) hstart acts
  refine ⟨?_, hrun.reads, hrun.answers⟩
  obtain ⟨last, compiled, hsite⟩ := hrun.prepared
  have hmirrors := hrun.mirrors
  have hcaching := hrun.caching
  rw [hsite] at hmirrors hcaching ⊢
  exact hmirrors.site_eq hcaching

/-- A single request among those that come together is a lookup. -/
theorem getTogether_singleton (site : Site) (store : Store) (name : Text) :
    site.getTogether store [name] =
      ⟨(site.get store name).site, (site.get store name).reads, [(site.get store name).result]⟩ := by
  cases hcache : site.cache with
  | none =>
      rw [getTogether, hcache]
      rfl
  | some cache =>
      have hcaching : site.cache.isSome := Option.isSome_of_eq_some hcache
      let start := Traffic.ofCache cache site.compiled
      have hrounds : (start.arrive (site.resolve name)).rounds (site.compile store) 5 =
          start.serve (site.compile store) (site.resolve name) :=
        congrArg (Traffic.run _) List.flatten_replicate_singleton
      obtain ⟨hmirrors, hreads, hanswers⟩ :=
        (Traffic.mirrors_ofCache hcache).serve hcaching store name
      obtain ⟨cache', compiled', hsite, hsome⟩ := site_get site store name
      rw [hsite] at hmirrors
      have hlast := hmirrors.site_eq (hsome.trans hcaching)
      simp only [getTogether, hcache, List.map_cons, List.map_nil, List.foldl_cons, List.foldl_nil,
        List.length_cons, List.length_nil, Nat.reduceAdd]
      rw [hrounds, hsite, hlast, hreads, hanswers]
      rfl

end PageTemplates.Site
