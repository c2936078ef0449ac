import Mathlib.Data.List.Nodup
import PageTemplates.Proofs.Site.Slots
import PageTemplates.Proofs.Site.TrafficSteps

/-!
Threads take turns at a slot: while one of them compiles the page the slot is locked, and
a locked slot has a thread at work on it.  The invariant holds from slots that nobody
fills on, whatever requests come and however their steps fall.
-/

namespace PageTemplates.Site.Traffic

variable {t : Traffic}

/-- Threads are where they belong, and one at a time fills a slot. -/
structure TakesTurns (t : Traffic) : Prop where
  slotted : t.Slotted
  fits : ∀ (i : Nat) name stage, t.threads[i]? = some ⟨name, stage⟩ → t.Fits i name stage
  /-- A slot that is being filled is empty and locked. -/
  turn : ∀ (i : Nat) name slot, t.threads[i]? = some ⟨name, .compiling slot⟩ →
    t.slotFor? name = some ⟨none, true⟩
  alone : ∀ (i j : Nat) name slot slot', t.threads[i]? = some ⟨name, .compiling slot⟩ →
    t.threads[j]? = some ⟨name, .compiling slot'⟩ → i = j
  /-- A locked slot is being filled. -/
  attended : ∀ name, t.slotFor? name = some ⟨none, true⟩ →
    ∃ (i : Nat) (slot : Nat), t.threads[i]? = some ⟨name, .compiling slot⟩

/-! ## One step -/

section Step

variable {compile : Text → Compilation} {base : Traffic} {thread : Nat} {name : Text}
  {old stage : Stage}

theorem getElem?_moveTo (hthreads : base.threads = t.threads)
    (hthread : t.threads[thread]? = some ⟨name, old⟩) (j : Nat) :
    (base.moveTo thread stage).threads[j]? =
      if j = thread then some ⟨name, stage⟩ else t.threads[j]? := by
  rw [moveTo, hthreads]
  by_cases hj : j = thread
  · rw [hj, if_pos rfl, List.getElem?_modify_eq, hthread]
    rfl
  · rw [if_neg hj, List.getElem?_modify_ne _ _ (Ne.symm hj)]

theorem getElem?_moveTo_self (hthreads : base.threads = t.threads)
    (hthread : t.threads[thread]? = some ⟨name, old⟩) (stage : Stage) :
    (base.moveTo thread stage).threads[thread]? = some ⟨name, stage⟩ := by
  rw [getElem?_moveTo hthreads hthread, if_pos rfl]

/-- A thread of the next state is the one that moved, or stayed where it was. -/
theorem of_getElem?_moveTo (hthreads : base.threads = t.threads)
    (hthread : t.threads[thread]? = some ⟨name, old⟩) {j : Nat} {other : Text}
    {stage' : Stage} (hj : (base.moveTo thread stage).threads[j]? = some ⟨other, stage'⟩) :
    (j = thread ∧ other = name ∧ stage' = stage) ∨
      (j ≠ thread ∧ t.threads[j]? = some ⟨other, stage'⟩) := by
  rw [getElem?_moveTo hthreads hthread] at hj
  split at hj
  · next heq =>
    obtain ⟨rfl, rfl⟩ := Thread.mk.inj (Option.some.inj hj)
    exact .inl ⟨heq, rfl, rfl⟩
  · next hne => exact .inr ⟨hne, hj⟩

variable (h : t.TakesTurns) (hthread : t.threads[thread]? = some ⟨name, old⟩)
  (hstep : StepTo compile t thread name old base stage)

include h hthread hstep

/-- While a thread compiles, no other thread touches the slot. -/
theorem TakesTurns.slotFor?_eq {j slot : Nat} {other : Text} (hne : j ≠ thread)
    (hj : t.threads[j]? = some ⟨other, .compiling slot⟩) :
    base.slotFor? other = t.slotFor? other := by
  by_cases hother : other = name
  · subst hother
    have hslot : t.slotOf.get? other = some slot := h.fits j other _ hj
    have hturn := h.turn j other slot hj
    cases hstep with
    | walks => rfl
    | reserves hfree =>
        rw [hfree] at hslot
        cases hslot
    | begins _ hfree =>
        rw [hfree] at hturn
        cases hturn
    | makes => exact absurd (h.alone j thread other _ _ hj hthread) hne
    | fails => exact absurd (h.alone j thread other _ _ hj hthread) hne
  · exact (hstep.frame h.slotted hother).2

theorem TakesTurns.fits_moveTo (i : Nat) (other : Text) (stage' : Stage)
    (hi : (base.moveTo thread stage).threads[i]? = some ⟨other, stage'⟩) :
    (base.moveTo thread stage).Fits i other stage' := by
  have hgrows : base.Grows (base.moveTo thread stage) := Grows.moveTo base thread stage
  rcases of_getElem?_moveTo hstep.threads_eq hthread hi with ⟨rfl, rfl, rfl⟩ | ⟨-, hi⟩
  · exact (hstep.fits h.slotted).grows hgrows
  · exact (h.fits i other stage' hi).grows ((hstep.grows h.slotted).trans hgrows)

theorem TakesTurns.turn_moveTo (i : Nat) (other : Text) (slot : Nat)
    (hi : (base.moveTo thread stage).threads[i]? = some ⟨other, .compiling slot⟩) :
    base.slotFor? other = some ⟨none, true⟩ := by
  rcases of_getElem?_moveTo hstep.threads_eq hthread hi with ⟨rfl, rfl, rfl⟩ | ⟨hne, hi⟩
  · exact (hstep.of_compiling h.slotted).2
  · rw [h.slotFor?_eq hthread hstep hne hi]
    exact h.turn i other slot hi

theorem TakesTurns.alone_moveTo (i j : Nat) (other : Text) (slot slot' : Nat)
    (hi : (base.moveTo thread stage).threads[i]? = some ⟨other, .compiling slot⟩)
    (hj : (base.moveTo thread stage).threads[j]? = some ⟨other, .compiling slot'⟩) :
    i = j := by
  -- nobody compiles for a slot that a thread finds free
  have hfree : ∀ (k : Nat) slot slot', stage = .compiling slot →
      t.threads[k]? ≠ some ⟨name, .compiling slot'⟩ := by
    rintro k slot slot' rfl hk
    have hturn := h.turn k name slot' hk
    rw [(hstep.of_compiling h.slotted).1] at hturn
    cases hturn
  rcases of_getElem?_moveTo hstep.threads_eq hthread hi with ⟨rfl, rfl, hstage⟩ | ⟨-, hi⟩
  · rcases of_getElem?_moveTo hstep.threads_eq hthread hj with ⟨rfl, -, -⟩ | ⟨-, hj⟩
    · rfl
    · exact absurd hj (hfree j slot slot' hstage.symm)
  · rcases of_getElem?_moveTo hstep.threads_eq hthread hj with ⟨-, rfl, hstage⟩ | ⟨-, hj⟩
    · exact absurd hi (hfree i slot' slot hstage.symm)
    · exact h.alone i j other slot slot' hi hj

theorem TakesTurns.attended_moveTo (other : Text)
    (hlocked : base.slotFor? other = some ⟨none, true⟩) :
    ∃ (i : Nat) (slot : Nat),
      (base.moveTo thread stage).threads[i]? = some ⟨other, .compiling slot⟩ := by
  have hmoved : ∀ j : Nat, (base.moveTo thread stage).threads[j]? =
      if j = thread then some ⟨name, stage⟩ else t.threads[j]? :=
    getElem?_moveTo hstep.threads_eq hthread
  -- whoever was at work on the slot still is, unless it is the thread that moved
  have hstays : t.slotFor? other = some ⟨none, true⟩ →
      (∀ slot, (⟨name, old⟩ : Thread) ≠ ⟨other, .compiling slot⟩) →
      ∃ (i : Nat) (slot : Nat),
        (base.moveTo thread stage).threads[i]? = some ⟨other, .compiling slot⟩ := by
    intro hbefore hnot
    obtain ⟨i, slot, hi⟩ := h.attended other hbefore
    have hne : i ≠ thread := by
      rintro rfl
      exact hnot slot (Option.some.inj (hthread.symm.trans hi))
    exact ⟨i, slot, by rw [hmoved, if_neg hne, hi]⟩
  by_cases hother : other = name
  · subst hother
    rcases hstep.of_locked h.slotted hlocked with ⟨slot, rfl⟩ | ⟨hbefore, hold⟩
    · exact ⟨thread, slot, getElem?_moveTo_self hstep.threads_eq hthread _⟩
    · exact hstays hbefore fun slot heq => hold slot (Thread.mk.inj heq).2
  · rw [(hstep.frame h.slotted hother).2] at hlocked
    exact hstays hlocked fun slot heq => hother (Thread.mk.inj heq).1.symm

theorem TakesTurns.moveTo : (base.moveTo thread stage).TakesTurns where
  slotted := (hstep.slotted h.slotted).moveTo thread stage
  fits := h.fits_moveTo hthread hstep
  turn := h.turn_moveTo hthread hstep
  alone := h.alone_moveTo hthread hstep
  attended := h.attended_moveTo hthread hstep

end Step

theorem TakesTurns.step_cases (h : t.TakesTurns) (compile : Text → Compilation) {thread : Nat}
    {name : Text} {old : Stage} (hthread : t.threads[thread]? = some ⟨name, old⟩) :
    (t.step compile thread = t ∧ ((∃ result, old = .answered result) ∨
        (∃ slot, old = .waiting slot) ∧ t.slotFor? name = some ⟨none, true⟩)) ∨
      ∃ base stage, StepTo compile t thread name old base stage ∧
        t.step compile thread = base.moveTo thread stage := by
  have hturn : ∀ slot, old = .compiling slot → t.slotFor? name = some ⟨none, true⟩ := by
    rintro slot rfl
    exact h.turn thread name slot hthread
  exact Traffic.step_cases h.slotted compile hthread (h.fits thread name old hthread) hturn

/-- A thread waits or is done, or it comes to its next stage. -/
theorem TakesTurns.waits_or_moves (h : t.TakesTurns) (compile : Text → Compilation)
    (thread : Nat) :
    t.step compile thread = t ∨ ∃ name old base stage,
      t.threads[thread]? = some ⟨name, old⟩ ∧ StepTo compile t thread name old base stage ∧
        t.step compile thread = base.moveTo thread stage := by
  cases hthread : t.threads[thread]? with
  | none =>
      left
      simp only [Traffic.step, hthread]
  | some th =>
      rcases h.step_cases compile hthread with ⟨hwaits, -⟩ | ⟨base, stage, hstep, hmoves⟩
      · exact .inl hwaits
      · exact .inr ⟨th.name, th.stage, base, stage, rfl, hstep, hmoves⟩

/-! ## Arrivals -/

/-- A thread that came last is at its beginning. -/
theorem of_getElem?_arrive {name other : Text} {i : Nat} {stage : Stage}
    (hi : (t.arrive name).threads[i]? = some ⟨other, stage⟩) :
    t.threads[i]? = some ⟨other, stage⟩ ∨ stage = .seeking := by
  rw [arrive, List.getElem?_append] at hi
  split at hi
  · exact .inl hi
  · right
    obtain ⟨-, hstage⟩ := Thread.mk.inj (List.mem_singleton.mp (List.mem_of_getElem? hi))
    exact hstage

/-- Threads that were there stay. -/
theorem getElem?_arrive {i : Nat} {th : Thread} (hi : t.threads[i]? = some th) (name : Text) :
    (t.arrive name).threads[i]? = some th := by
  have hlt : i < t.threads.length := (List.getElem?_eq_some_iff.mp hi).1
  rw [arrive, List.getElem?_append_left hlt, hi]

theorem TakesTurns.arrive (h : t.TakesTurns) (name : Text) : (t.arrive name).TakesTurns where
  slotted := h.slotted.arrive name
  fits i other stage hi := by
    rcases of_getElem?_arrive hi with hi | rfl
    · exact (h.fits i other stage hi).grows (Grows.arrive t name)
    · trivial
  turn i other slot hi := by
    rcases of_getElem?_arrive hi with hi | hstage
    · exact h.turn i other slot hi
    · cases hstage
  alone i j other slot slot' hi hj := by
    rcases of_getElem?_arrive hi with hi | hstage
    · rcases of_getElem?_arrive hj with hj | hstage
      · exact h.alone i j other slot slot' hi hj
      · cases hstage
    · cases hstage
  attended other hlocked := by
    obtain ⟨i, slot, hi⟩ := h.attended other hlocked
    exact ⟨i, slot, getElem?_arrive hi name⟩

/-! ## Slots and caches -/

section OfCache

variable (cache : Cache) (compiled : Nat)

theorem slotOf_ofCache_iff {name : Text} {slot : Nat} :
    (ofCache cache compiled).slotOf.get? name = some slot ↔
      ∃ page, cache.slots.entries[slot]? = some (name, page) := by
  have hmem : ∀ slot, (name, slot) ∈ cache.slots.names.zipIdx ↔
      cache.slots.names[slot]? = some name := fun slot => List.mem_zipIdx_iff_getElem?
  rw [ofCache, Table.get?_ofList_iff, hmem, Table.names, List.getElem?_map]
  · simp
  · intro v w hv hw
    rw [hmem] at hv hw
    have hlt : v < cache.slots.names.length := (List.getElem?_eq_some_iff.mp hv).1
    exact (List.getElem?_inj hlt cache.slots.names_nodup).mp (hv.trans hw.symm)

theorem slotFor?_ofCache (name : Text) :
    (ofCache cache compiled).slotFor? name = (cache.slots.get? name).map (⟨·, false⟩) := by
  have hslots : ∀ slot : Nat, (ofCache cache compiled).slots[slot]? =
      cache.slots.entries[slot]?.map fun entry => ⟨entry.2, false⟩ := fun slot => List.getElem?_map
  ext content
  simp only [slotFor?, Option.bind_eq_some_iff, slotOf_ofCache_iff, hslots, Option.map_eq_some_iff]
  constructor
  · rintro ⟨slot, ⟨page, hentry⟩, entry, hentry', rfl⟩
    obtain rfl := Option.some.inj (hentry.symm.trans hentry')
    exact ⟨page, Table.mem_entries_iff.mp (List.mem_of_getElem? hentry), rfl⟩
  · rintro ⟨page, hpage, rfl⟩
    obtain ⟨slot, hentry⟩ := List.getElem?_of_mem (Table.mem_entries_iff.mpr hpage)
    exact ⟨slot, ⟨page, hentry⟩, (name, page), hentry, rfl⟩

theorem slotted_ofCache : (ofCache cache compiled).Slotted := by
  have hlength : (ofCache cache compiled).slots.length = cache.slots.entries.length :=
    List.length_map _
  constructor
  · intro name slot hslot
    obtain ⟨page, hentry⟩ := (slotOf_ofCache_iff cache compiled).mp hslot
    rw [hlength]
    exact (List.getElem?_eq_some_iff.mp hentry).1
  · intro slot hslot
    rw [hlength] at hslot
    exact ⟨_, (slotOf_ofCache_iff cache compiled).mpr ⟨_, List.getElem?_eq_getElem hslot⟩⟩
  · intro name other slot hname hother
    obtain ⟨page, hentry⟩ := (slotOf_ofCache_iff cache compiled).mp hname
    obtain ⟨page', hentry'⟩ := (slotOf_ofCache_iff cache compiled).mp hother
    exact congrArg Prod.fst (Option.some.inj (hentry.symm.trans hentry'))

theorem takesTurns_ofCache : (ofCache cache compiled).TakesTurns := by
  have hnone : ∀ i : Nat, (ofCache cache compiled).threads[i]? = none := fun _ => rfl
  refine ⟨slotted_ofCache cache compiled, ?_, ?_, ?_, ?_⟩
  · simp [hnone]
  · simp [hnone]
  · simp [hnone]
  · intro name hlocked
    rw [slotFor?_ofCache] at hlocked
    obtain ⟨page, -, hpage⟩ := Option.map_eq_some_iff.mp hlocked
    cases hpage

end OfCache

/-- The cache that is made of the slots has what is in them. -/
theorem get?_cache (h : t.Slotted) (name : Text) :
    t.cache.slots.get? name = (t.slotFor? name).map (·.page) := by
  have hcache : t.cache.slots =
      Table.ofList (t.slotOf.entries.map fun entry => (entry.1, t.pageIn? entry.2)) := rfl
  have hmem : ∀ page, (name, page) ∈ t.slotOf.entries.map
      (fun entry => (entry.1, t.pageIn? entry.2)) ↔
        ∃ slot, t.slotOf.get? name = some slot ∧ t.pageIn? slot = page := by
    intro page
    simp [← Table.mem_entries_iff]
  ext page
  rw [hcache, Table.get?_ofList_iff, hmem]
  · constructor
    · rintro ⟨slot, hslot, rfl⟩
      have hlt := h.bound_lt name slot hslot
      rw [slotFor?, hslot, Option.bind_some, pageIn?, List.getElem?_eq_getElem hlt]
      rfl
    · intro hpage
      obtain ⟨content, hcontent, rfl⟩ := Option.map_eq_some_iff.mp hpage
      obtain ⟨slot, hslot, hget⟩ := Option.bind_eq_some_iff.mp hcontent
      exact ⟨slot, hslot, by rw [pageIn?, hget, Option.bind_some]⟩
  · intro page page' hpage hpage'
    obtain ⟨slot, hslot, rfl⟩ := (hmem page).mp hpage
    obtain ⟨slot', hslot', rfl⟩ := (hmem page').mp hpage'
    rw [Option.some.inj (hslot.symm.trans hslot')]

theorem find?_cache (h : t.Slotted) (name : Text) : t.cache.find? name = t.pageFor? name := by
  rw [Cache.find?, get?_cache h, pageFor?]
  cases t.slotFor? name <;> rfl

end PageTemplates.Site.Traffic
