import Mathlib.Data.List.Nodup
import Mathlib.Data.List.Pairwise
import PageTemplates.Proofs.Site.Turns

/-!
Whatever requests come and however their steps fall, no page is compiled twice.  The
invariant says of every slot who may be at work on it and who has filled it; it holds
in every state that a site's traffic can come to.
-/

namespace PageTemplates.Site.Traffic

variable {t : Traffic}

/-- What holds whenever no thread is in the middle of a step. -/
structure Orderly (t : Traffic) : Prop extends t.TakesTurns where
  /-- A page that is in a slot was made by a thread that answered with it. -/
  made : ∀ name page, t.pageFor? name = some page →
    ∃ (i : Nat) (c : Compilation), .ended i name c ∈ t.events ∧ c.result = .ok page.view ∧
      t.threads[i]? = some ⟨name, .answered (.ok page)⟩
  /-- What was made is there. -/
  kept : ∀ name ∈ t.successes, ∃ page, t.pageFor? name = some page
  once : t.successes.Nodup
  none_after : t.events.Pairwise fun earlier later =>
    ∀ i name, earlier.success? = some name → later ≠ .began i name
  numbered : Numbered t.pageFor? t.compiled

theorem Orderly.not_made (h : t.Orderly) {name : Text} (hempty : t.pageFor? name = none) :
    name ∉ t.successes := by
  intro hname
  obtain ⟨page, hpage⟩ := h.kept name hname
  rw [hempty] at hpage
  cases hpage

/-! ## One step -/

section Step

variable {compile : Text → Compilation} {base : Traffic} {thread : Nat} {name : Text}
  {old stage : Stage} (h : t.Orderly) (hthread : t.threads[thread]? = some ⟨name, old⟩)
  (hstep : StepTo compile t thread name old base stage)

include hthread hstep in
/-- A thread that has its answer keeps it. -/
theorem answered_moveTo {i : Nat} {other : Text} {result : Except PageError Compiled}
    (hi : t.threads[i]? = some ⟨other, .answered result⟩) :
    (base.moveTo thread stage).threads[i]? = some ⟨other, .answered result⟩ := by
  rw [getElem?_moveTo hstep.threads_eq hthread]
  split
  · next heq =>
    rw [heq, hthread] at hi
    exact absurd (Thread.mk.inj (Option.some.inj hi)).2 (hstep.not_answered result)
  · exact hi

include h hthread hstep

theorem made_moveTo (other : Text) (page : Compiled)
    (hpage : base.pageFor? other = some page) :
    ∃ (i : Nat) (c : Compilation), .ended i other c ∈ base.events ∧
      c.result = .ok page.view ∧
      (base.moveTo thread stage).threads[i]? = some ⟨other, .answered (.ok page)⟩ := by
  have hbefore : ∀ page, t.pageFor? other = some page →
      ∃ (i : Nat) (c : Compilation), .ended i other c ∈ base.events ∧
        c.result = .ok page.view ∧
        (base.moveTo thread stage).threads[i]? = some ⟨other, .answered (.ok page)⟩ := by
    intro page hpage
    obtain ⟨i, c, hevent, hresult, hi⟩ := h.made other page hpage
    exact ⟨i, c, (hstep.grows h.slotted).events _ hevent, hresult,
      answered_moveTo hthread hstep hi⟩
  rcases hstep.quiet_or_makes h.slotted with hquiet | ⟨c, view, hmakes⟩
  · rw [hquiet.page] at hpage
    exact hbefore page hpage
  · rw [hmakes.page] at hpage
    split at hpage
    · next hother =>
      obtain rfl := Option.some.inj hpage
      refine ⟨thread, c, ?_, hmakes.result, ?_⟩
      · rw [hmakes.events, hother]
        exact List.mem_concat_self
      · rw [getElem?_moveTo hstep.threads_eq hthread, if_pos rfl, hmakes.stage, hother]
    · exact hbefore page hpage

omit hthread in
theorem kept_of_stepTo (other : Text) (hother : other ∈ base.successes) :
    ∃ page, base.pageFor? other = some page := by
  rcases hstep.quiet_or_makes h.slotted with hquiet | ⟨c, view, hmakes⟩
  · rw [hquiet.successes] at hother
    rw [hquiet.page]
    exact h.kept other hother
  · rw [hmakes.page]
    split
    · exact ⟨_, rfl⟩
    · next hne =>
      rw [hmakes.successes, List.mem_append, List.mem_singleton, or_iff_left hne] at hother
      exact h.kept other hother

omit hthread in
theorem once_of_stepTo : base.successes.Nodup := by
  rcases hstep.quiet_or_makes h.slotted with hquiet | ⟨c, view, hmakes⟩
  · rw [hquiet.successes]
    exact h.once
  · rw [hmakes.successes, ← List.concat_eq_append]
    exact h.once.concat (h.not_made hmakes.empty)

omit hthread in
theorem none_after_of_stepTo : base.events.Pairwise fun earlier later =>
    ∀ i name, earlier.success? = some name → later ≠ .began i name := by
  rcases hstep.events_eq with heq | ⟨event, heq, hbegan⟩
  · rw [heq]
    exact h.none_after
  · rw [heq, List.pairwise_append]
    refine ⟨h.none_after, List.pairwise_singleton _ _, ?_⟩
    intro earlier hearlier later hlater i other hsuccess hlater'
    rw [List.mem_singleton] at hlater
    have hmade : other ∈ t.successes := List.mem_filterMap.mpr ⟨earlier, hearlier, hsuccess⟩
    exact h.not_made (hbegan i other (hlater.symm.trans hlater')) hmade

omit hthread in
theorem numbered_of_stepTo : Numbered base.pageFor? base.compiled := by
  rcases hstep.quiet_or_makes h.slotted with hquiet | ⟨c, view, hmakes⟩
  · rw [hquiet.compiled]
    exact h.numbered.congr hquiet.page
  · rw [hmakes.compiled]
    exact h.numbered.fill hmakes.page

theorem Orderly.moveTo : (base.moveTo thread stage).Orderly := by
  have hkept := kept_of_stepTo h hstep
  have honce := once_of_stepTo h hstep
  have hnone_after := none_after_of_stepTo h hstep
  have hnumbered := numbered_of_stepTo h hstep
  exact ⟨h.toTakesTurns.moveTo hthread hstep, made_moveTo h hthread hstep, hkept, honce,
    hnone_after, hnumbered⟩

end Step

/-! ## Runs -/

theorem Orderly.step (h : t.Orderly) (compile : Text → Compilation) (thread : Nat) :
    (t.step compile thread).Orderly := by
  rcases h.waits_or_moves compile thread with
    hwaits | ⟨name, old, base, stage, hthread, hstep, hmoves⟩
  · rw [hwaits]
    exact h
  · rw [hmoves]
    exact h.moveTo hthread hstep

theorem Orderly.arrive (h : t.Orderly) (name : Text) : (t.arrive name).Orderly where
  toTakesTurns := h.toTakesTurns.arrive name
  made other page hpage := by
    obtain ⟨i, c, hevent, hresult, hi⟩ := h.made other page hpage
    exact ⟨i, c, hevent, hresult, getElem?_arrive hi name⟩
  kept := h.kept
  once := h.once
  none_after := h.none_after
  numbered := h.numbered

theorem Orderly.move (h : t.Orderly) (m : Move) : (t.move m).Orderly := by
  cases m with
  | arrives name => exact h.arrive name
  | steps thread compile => exact h.step compile thread

theorem Orderly.run (h : t.Orderly) (moves : List Move) : (t.run moves).Orderly := by
  induction moves generalizing t with
  | nil => exact h
  | cons m rest ih => exact ih (h.move m)

theorem orderly_ofCache_empty (compiled : Nat) : (ofCache Cache.empty compiled).Orderly := by
  have hevents : (ofCache Cache.empty compiled).events = [] := rfl
  have hpages : ∀ name, (ofCache Cache.empty compiled).pageFor? name = none := fun _ => rfl
  refine ⟨takesTurns_ofCache Cache.empty compiled, ?_, ?_, ?_, ?_, Numbered.of_eq_none hpages⟩
  all_goals simp [successes, hevents, hpages]

/-! ## What was made stays -/

theorem Orderly.grows_move (h : t.Orderly) (m : Move) : t.Grows (t.move m) := by
  cases m with
  | arrives name => exact Grows.arrive t name
  | steps thread compile =>
      rcases h.waits_or_moves compile thread with
        hwaits | ⟨name, old, base, stage, hthread, hstep, hmoves⟩
      · rw [Traffic.move, hwaits]
        exact Grows.refl t
      · rw [Traffic.move, hmoves]
        exact (hstep.grows h.slotted).trans (Grows.moveTo base thread stage)

theorem Orderly.grows_run (h : t.Orderly) (moves : List Move) : t.Grows (t.run moves) := by
  induction moves generalizing t with
  | nil => exact Grows.refl t
  | cons m rest ih => exact (h.grows_move m).trans (ih (h.move m))

/-- Two compilations of a page that made it are one. -/
theorem Orderly.eq_of_success (h : t.Orderly) {event event' : Event} {name : Text}
    (hevent : event ∈ t.events) (hevent' : event' ∈ t.events)
    (hsuccess : event.success? = some name) (hsuccess' : event'.success? = some name) :
    event = event' := by
  by_contra hne
  have hapart : t.events.Pairwise fun e e' => ∀ n, e.success? = some n → e'.success? ≠ some n :=
    (List.pairwise_filterMap.mp h.once).imp fun hpair n hn hn' => hpair n hn n hn' rfl
  have hsymm : Std.Symm fun e e' : Event => ∀ n, e.success? = some n → e'.success? ≠ some n :=
    ⟨fun e e' hpair n hn hn' => hpair n hn' hn⟩
  exact hapart.forall hevent hevent' hne name hsuccess hsuccess'

/-! ## Single compilation -/

/-- How the requests for the pages of a site have gone, and that they go on so. -/
structure SingleCompilation (t : Traffic) : Prop where
  /-- A slot belongs to one name. -/
  one_slot : ∀ slot < t.slots.length, ∃! name, t.slotOf.get? name = some slot
  /-- The slot that a request has is the slot of its name. -/
  own_slot : ∀ (i : Nat) name stage slot, t.threads[i]? = some ⟨name, stage⟩ →
    stage.slot? = some slot → t.slotOf.get? name = some slot
  /-- A name never gets another slot. -/
  same_slot : ∀ moves name slot, t.slotOf.get? name = some slot →
    (t.run moves).slotOf.get? name = some slot
  /-- Of the compilations of a page at most one made it. -/
  one_success : t.successes.Nodup
  /-- No compilation of a page began after one had made it. -/
  none_after : t.events.Pairwise fun earlier later =>
    ∀ i name, earlier.success? = some name → later ≠ .began i name
  /-- The page that was made is what every request for it that got an answer got. -/
  same_page : ∀ (i : Nat) name c view, .ended i name c ∈ t.events → c.result = .ok view →
    ∃ page, page.view = view ∧ t.threads[i]? = some ⟨name, .answered (.ok page)⟩ ∧
      ∀ (j : Nat) page', t.threads[j]? = some ⟨name, .answered (.ok page')⟩ → page' = page
  /-- A request that got a page got one that was made. -/
  made_page : ∀ (i : Nat) name page, t.threads[i]? = some ⟨name, .answered (.ok page)⟩ →
    ∃ (j : Nat) (c : Compilation), .ended j name c ∈ t.events ∧ c.result = .ok page.view
  /-- Pages of different names are different objects. -/
  apart : ∀ (i j : Nat) name name' page page',
    t.threads[i]? = some ⟨name, .answered (.ok page)⟩ →
    t.threads[j]? = some ⟨name', .answered (.ok page')⟩ → name ≠ name' →
    page.serial ≠ page'.serial
  /-- A request failed only with a compilation of its own. -/
  own_failure : ∀ (i : Nat) name e, t.threads[i]? = some ⟨name, .answered (.error e)⟩ →
    ∃ c : Compilation, .ended i name c ∈ t.events ∧ c.result = .error e
  /-- What a request does leaves the slots of all other names alone. -/
  untouched : ∀ (i : Nat) name stage compile other, t.threads[i]? = some ⟨name, stage⟩ →
    other ≠ name →
    (t.step compile i).slotOf.get? other = t.slotOf.get? other ∧
      (t.step compile i).slotFor? other = t.slotFor? other

theorem Orderly.same_page (h : t.Orderly) {i : Nat} {name : Text} {c : Compilation}
    {view : Template.Namespace} (hevent : .ended i name c ∈ t.events)
    (hview : c.result = .ok view) :
    ∃ page, page.view = view ∧ t.threads[i]? = some ⟨name, .answered (.ok page)⟩ ∧
      ∀ (j : Nat) page', t.threads[j]? = some ⟨name, .answered (.ok page')⟩ →
        page' = page := by
  have hsuccess : (Event.ended i name c).success? = some name := Event.success?_ended_ok hview
  obtain ⟨page, hpage⟩ := h.kept name (List.mem_filterMap.mpr ⟨_, hevent, hsuccess⟩)
  obtain ⟨i', c', hevent', hview', hi'⟩ := h.made name page hpage
  have hsame := h.eq_of_success hevent hevent' hsuccess (Event.success?_ended_ok hview')
  obtain ⟨rfl, -, rfl⟩ := Event.ended.inj hsame
  refine ⟨page, Except.ok.inj (hview'.symm.trans hview), hi', ?_⟩
  intro j page' hj
  have hpage' : t.pageFor? name = some page' := h.fits j name _ hj
  exact Option.some.inj (hpage'.symm.trans hpage)

theorem Orderly.untouched (h : t.Orderly) {i : Nat} {name : Text} {stage : Stage}
    (hi : t.threads[i]? = some ⟨name, stage⟩) (compile : Text → Compilation)
    {other : Text} (hother : other ≠ name) :
    (t.step compile i).slotOf.get? other = t.slotOf.get? other ∧
      (t.step compile i).slotFor? other = t.slotFor? other := by
  rcases h.waits_or_moves compile i with
    hwaits | ⟨name', old, base, stage', hthread, hstep, hmoves⟩
  · rw [hwaits]
    exact ⟨rfl, rfl⟩
  · obtain ⟨rfl, -⟩ := Thread.mk.inj (Option.some.inj (hi.symm.trans hthread))
    rw [hmoves]
    exact hstep.frame h.slotted hother

theorem Orderly.singleCompilation (h : t.Orderly) : t.SingleCompilation where
  one_slot slot hslot := by
    obtain ⟨name, hname⟩ := h.slotted.owned slot hslot
    exact ⟨name, hname, fun other hother => h.slotted.unshared other name slot hother hname⟩
  own_slot i name stage slot hi hstage := by
    have hfits := h.fits i name stage hi
    cases stage <;> cases hstage <;> exact hfits
  same_slot moves name slot hslot := (h.grows_run moves).slot name slot hslot
  one_success := h.once
  none_after := h.none_after
  same_page i name c view hevent hview := h.same_page hevent hview
  made_page i name page hi := by
    obtain ⟨j, c, hevent, hview, -⟩ := h.made name page (h.fits i name _ hi)
    exact ⟨j, c, hevent, hview⟩
  apart i j name name' page page' hi hj hne hserial :=
    hne (h.numbered.distinct name name' page page' (h.fits i name _ hi) (h.fits j name' _ hj) hserial)
  own_failure i name e hi := h.fits i name _ hi
  untouched i name stage compile other hi hother := h.untouched hi compile hother

/-- However many requests come to a site that keeps its pages, from the first one on,
and however their steps fall between each other, each page is made once at most,
whatever comes of the compilations. -/
theorem run_singleCompilation (compiled : Nat) (moves : List Move) :
    ((ofCache Cache.empty compiled).run moves).SingleCompilation :=
  ((orderly_ofCache_empty compiled).run moves).singleCompilation

end PageTemplates.Site.Traffic
