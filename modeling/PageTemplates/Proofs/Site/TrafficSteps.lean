import PageTemplates.Site.Traffic

/-!
What one step of a thread does to the slots, told by the names that the slots belong
to: all that happens is that a name gets a slot, or that a thread changes the content
of the slot of its own name.
-/

namespace PageTemplates.Site

/-- The slot that a request has. -/
def Stage.slot? : Stage → Option Nat
  | .seeking | .reserving | .answered _ => none
  | .looking slot | .waiting slot | .compiling slot => some slot

/-- The name of a page that was compiled. -/
def Event.success? : Event → Option Text
  | .began _ _ => none
  | .ended _ name compilation => if compilation.result.isOk then some name else none

theorem Event.success?_ended_ok {thread : Nat} {name : Text} {c : Compilation}
    {view : Template.Namespace} (hview : c.result = .ok view) :
    (Event.ended thread name c).success? = some name := by
  simp [success?, hview, Except.isOk, Except.toBool]

theorem Event.success?_ended_error {thread : Nat} {name : Text} {c : Compilation}
    {e : PageError} (herror : c.result = .error e) :
    (Event.ended thread name c).success? = none := by
  simp [success?, herror, Except.isOk, Except.toBool]

namespace Traffic

/-- The slot of a name. -/
def slotFor? (t : Traffic) (name : Text) : Option Slot :=
  (t.slotOf.get? name).bind (t.slots[·]?)

/-- The page in the slot of a name. -/
def pageFor? (t : Traffic) (name : Text) : Option Compiled :=
  (t.slotFor? name).bind (·.page)

/-- The names of the pages that were compiled, first to last. -/
def successes (t : Traffic) : List Text :=
  t.events.filterMap Event.success?

/-- Every slot belongs to one name. -/
structure Slotted (t : Traffic) : Prop where
  bound_lt : ∀ name slot, t.slotOf.get? name = some slot → slot < t.slots.length
  owned : ∀ slot < t.slots.length, ∃ name, t.slotOf.get? name = some slot
  unshared : ∀ name other slot, t.slotOf.get? name = some slot →
    t.slotOf.get? other = some slot → name = other

/-! ## Slots by name -/

variable {t : Traffic} {name : Text} {slot : Nat}

theorem pageIn?_eq_pageFor? (hslot : t.slotOf.get? name = some slot) :
    t.pageIn? slot = t.pageFor? name := by
  rw [pageFor?, slotFor?, hslot, Option.bind_some, pageIn?]

theorem slotFor?_setSlot (h : t.Slotted) (hslot : t.slotOf.get? name = some slot)
    (content : Slot) (other : Text) :
    (t.setSlot slot content).slotFor? other =
      if other = name then some content else t.slotFor? other := by
  have hlt : slot < t.slots.length := h.bound_lt name slot hslot
  simp only [slotFor?, setSlot]
  split
  · next hother =>
    rw [hother, hslot, Option.bind_some, List.getElem?_set_self hlt]
  · next hother =>
    cases hget : t.slotOf.get? other with
    | none => rfl
    | some slot' =>
        have hne : slot ≠ slot' := by
          rintro rfl
          exact hother (h.unshared other name slot hget hslot)
        rw [Option.bind_some, Option.bind_some, List.getElem?_set_ne hne]

theorem slotFor?_setSlot_self (h : t.Slotted) (hslot : t.slotOf.get? name = some slot)
    (content : Slot) : (t.setSlot slot content).slotFor? name = some content := by
  rw [slotFor?_setSlot h hslot, if_pos rfl]

theorem pageFor?_setSlot (h : t.Slotted) (hslot : t.slotOf.get? name = some slot)
    (content : Slot) (other : Text) :
    (t.setSlot slot content).pageFor? other =
      if other = name then content.page else t.pageFor? other := by
  rw [pageFor?, slotFor?_setSlot h hslot]
  split <;> rfl

theorem slotFor?_reserve (h : t.Slotted) (name other : Text) :
    (t.reserve name).slotFor? other =
      if other = name then some ⟨none, false⟩ else t.slotFor? other := by
  simp only [slotFor?, reserve, Table.get?_insert]
  split
  · rw [Option.bind_some, List.getElem?_concat_length]
  · cases hget : t.slotOf.get? other with
    | none => rfl
    | some slot' =>
        rw [Option.bind_some, Option.bind_some,
          List.getElem?_append_left (h.bound_lt other slot' hget)]

theorem pageFor?_reserve (h : t.Slotted) (name other : Text) :
    (t.reserve name).pageFor? other = if other = name then none else t.pageFor? other := by
  rw [pageFor?, slotFor?_reserve h]
  split <;> rfl

theorem Slotted.moveTo (h : t.Slotted) (thread : Nat) (stage : Stage) :
    (t.moveTo thread stage).Slotted :=
  ⟨h.bound_lt, h.owned, h.unshared⟩

theorem Slotted.arrive (h : t.Slotted) (name : Text) : (t.arrive name).Slotted :=
  ⟨h.bound_lt, h.owned, h.unshared⟩

theorem Slotted.tell (h : t.Slotted) (event : Event) : (t.tell event).Slotted :=
  ⟨h.bound_lt, h.owned, h.unshared⟩

theorem Slotted.count (h : t.Slotted) : t.count.Slotted :=
  ⟨h.bound_lt, h.owned, h.unshared⟩

theorem Slotted.setSlot (h : t.Slotted) (slot : Nat) (content : Slot) :
    (t.setSlot slot content).Slotted := by
  obtain ⟨hlt, howned, hunshared⟩ := h
  have hlength : (t.setSlot slot content).slots.length = t.slots.length := by
    rw [Traffic.setSlot, List.length_set]
  constructor
  · intro name slot' hname
    rw [hlength]
    exact hlt name slot' hname
  · intro slot' hslot'
    rw [hlength] at hslot'
    exact howned slot' hslot'
  · exact hunshared

theorem Slotted.reserve (h : t.Slotted) (name : Text) (hfree : t.slotOf.get? name = none) :
    (t.reserve name).Slotted := by
  have hlength : (t.reserve name).slots.length = t.slots.length + 1 := by
    rw [Traffic.reserve, List.length_append, List.length_singleton]
  have hget : ∀ other, (t.reserve name).slotOf.get? other =
      if other = name then some t.slots.length else t.slotOf.get? other :=
    fun other => t.slotOf.get?_insert name other t.slots.length
  constructor
  · intro other slot hother
    rw [hget] at hother
    rw [hlength]
    split at hother
    · obtain rfl := Option.some.inj hother
      exact Nat.lt_succ_self _
    · exact Nat.lt_succ_of_lt (h.bound_lt other slot hother)
  · intro slot hslot
    rw [hlength] at hslot
    rcases Nat.lt_succ_iff_lt_or_eq.mp hslot with hlt | rfl
    · obtain ⟨other, hother⟩ := h.owned slot hlt
      have hne : other ≠ name := by
        rintro rfl
        rw [hfree] at hother
        cases hother
      exact ⟨other, by rw [hget, if_neg hne, hother]⟩
    · exact ⟨name, by rw [hget, if_pos rfl]⟩
  · intro other other' slot hother hother'
    rw [hget] at hother hother'
    -- the new number is above all that are in use
    split at hother <;> split at hother'
    · next hname hname' => exact hname.trans hname'.symm
    · obtain rfl := Option.some.inj hother
      exact absurd (h.bound_lt other' _ hother') (Nat.lt_irrefl _)
    · obtain rfl := Option.some.inj hother'
      exact absurd (h.bound_lt other _ hother) (Nat.lt_irrefl _)
    · exact h.unshared other other' slot hother hother'

/-! ## Steps -/

/-- What is known of a request from how far it has come. -/
def Fits (t : Traffic) (thread : Nat) (name : Text) : Stage → Prop
  | .seeking | .reserving => True
  | .looking slot | .waiting slot | .compiling slot => t.slotOf.get? name = some slot
  | .answered (.ok page) => t.pageFor? name = some page
  | .answered (.error e) => ∃ c, .ended thread name c ∈ t.events ∧ c.result = .error e

/-- How a thread with a name comes from one stage to the next without a change of the
slots. -/
inductive Walks (t : Traffic) (name : Text) : Stage → Stage → Prop where
  | misses (hfree : t.slotOf.get? name = none) : Walks t name .seeking .reserving
  | finds {old : Stage} {slot : Nat} (hold : old = .seeking ∨ old = .reserving)
      (hslot : t.slotOf.get? name = some slot) : Walks t name old (.looking slot)
  | queues {slot : Nat} (hslot : t.slotOf.get? name = some slot)
      (hempty : t.pageFor? name = none) : Walks t name (.looking slot) (.waiting slot)
  | takes {old : Stage} {slot : Nat} {page : Compiled}
      (hold : old = .looking slot ∨ old = .waiting slot)
      (hpage : t.pageFor? name = some page) : Walks t name old (.answered (.ok page))

/-- What a step of a thread with a name does before the thread comes to its next
stage: nothing, or it makes a slot, or it begins or ends a compilation. -/
inductive StepTo (compile : Text → Compilation) (t : Traffic) (thread : Nat) (name : Text) :
    Stage → Traffic → Stage → Prop where
  | walks {old stage : Stage} (hwalks : t.Walks name old stage) :
      StepTo compile t thread name old t stage
  | reserves (hfree : t.slotOf.get? name = none) :
      StepTo compile t thread name .reserving (t.reserve name) (.looking t.slots.length)
  | begins {slot : Nat} (hslot : t.slotOf.get? name = some slot)
      (hfree : t.slotFor? name = some ⟨none, false⟩) :
      StepTo compile t thread name (.waiting slot)
        ((t.setSlot slot ⟨none, true⟩).tell (.began thread name)) (.compiling slot)
  | makes {slot : Nat} {view : Template.Namespace} (hslot : t.slotOf.get? name = some slot)
      (hbusy : t.slotFor? name = some ⟨none, true⟩) (hview : (compile name).result = .ok view) :
      StepTo compile t thread name (.compiling slot)
        ((t.tell (.ended thread name (compile name))).count.setSlot slot
          ⟨some ⟨t.compiled, view⟩, false⟩)
        (.answered (.ok ⟨t.compiled, view⟩))
  | fails {slot : Nat} {e : PageError} (hslot : t.slotOf.get? name = some slot)
      (hbusy : t.slotFor? name = some ⟨none, true⟩) (herror : (compile name).result = .error e) :
      StepTo compile t thread name (.compiling slot)
        ((t.tell (.ended thread name (compile name))).setSlot slot ⟨none, false⟩)
        (.answered (.error e))

theorem slotFor?_of_empty (h : t.Slotted) (hslot : t.slotOf.get? name = some slot)
    (hpage : t.pageIn? slot = none) : t.slotFor? name = some ⟨none, t.isBusy slot⟩ := by
  have hlt := h.bound_lt name slot hslot
  rw [pageIn?, List.getElem?_eq_getElem hlt, Option.bind_some] at hpage
  rw [slotFor?, hslot, Option.bind_some, isBusy, List.getElem?_eq_getElem hlt, Option.any_some,
    ← hpage]

theorem Walks.fits {thread : Nat} {old stage : Stage} (hwalks : t.Walks name old stage) :
    t.Fits thread name stage := by
  cases hwalks with
  | misses => trivial
  | finds _ hslot => exact hslot
  | queues hslot => exact hslot
  | takes _ hpage => exact hpage

/-- A thread comes to its next stage, unless it has its answer or waits while another thread
fills the slot of its name. -/
theorem step_cases (h : t.Slotted) {thread : Nat} {old : Stage}
    (compile : Text → Compilation) (hthread : t.threads[thread]? = some ⟨name, old⟩)
    (hold : t.Fits thread name old)
    (hturn : ∀ slot, old = .compiling slot → t.slotFor? name = some ⟨none, true⟩) :
    (t.step compile thread = t ∧ ((∃ result, old = .answered result) ∨
        (∃ slot, old = .waiting slot) ∧ t.slotFor? name = some ⟨none, true⟩)) ∨
      ∃ base stage, StepTo compile t thread name old base stage ∧
        t.step compile thread = base.moveTo thread stage := by
  cases old with
  | seeking =>
      right
      cases hslot : t.slotOf.get? name with
      | none => exact ⟨t, _, .walks (.misses hslot), by simp only [step, hthread, hslot]⟩
      | some slot =>
          exact ⟨t, _, .walks (.finds (.inl rfl) hslot), by simp only [step, hthread, hslot]⟩
  | reserving =>
      right
      cases hslot : t.slotOf.get? name with
      | none => exact ⟨_, _, .reserves hslot, by simp only [step, hthread, hslot]⟩
      | some slot =>
          exact ⟨t, _, .walks (.finds (.inr rfl) hslot), by simp only [step, hthread, hslot]⟩
  | looking slot =>
      right
      have hslot : t.slotOf.get? name = some slot := hold
      cases hpage : t.pageIn? slot with
      | none =>
          have hempty : t.pageFor? name = none := by rw [← pageIn?_eq_pageFor? hslot, hpage]
          exact ⟨t, _, .walks (.queues hslot hempty), by simp only [step, hthread, hpage]⟩
      | some page =>
          have hfull : t.pageFor? name = some page := by rw [← pageIn?_eq_pageFor? hslot, hpage]
          exact ⟨t, _, .walks (.takes (.inl rfl) hfull), by simp only [step, hthread, hpage]⟩
  | waiting slot =>
      have hslot : t.slotOf.get? name = some slot := hold
      cases hpage : t.pageIn? slot with
      | some page =>
          right
          have hfull : t.pageFor? name = some page := by rw [← pageIn?_eq_pageFor? hslot, hpage]
          exact ⟨t, _, .walks (.takes (.inr rfl) hfull), by simp only [step, hthread, hpage]⟩
      | none =>
          have hfree := slotFor?_of_empty h hslot hpage
          cases hbusy : t.isBusy slot with
          | true =>
              rw [hbusy] at hfree
              exact .inl ⟨by simp only [step, hthread, hpage, hbusy, if_true],
                .inr ⟨⟨slot, rfl⟩, hfree⟩⟩
          | false =>
              rw [hbusy] at hfree
              refine .inr ⟨_, _, .begins hslot hfree, ?_⟩
              simp only [step, hthread, hpage, hbusy]
              rfl
  | compiling slot =>
      right
      have hslot : t.slotOf.get? name = some slot := hold
      cases hresult : (compile name).result with
      | ok view =>
          refine ⟨_, _, .makes hslot (hturn slot rfl) hresult, ?_⟩
          simp only [step, hthread, conclude, hresult]
          rfl
      | error e =>
          refine ⟨_, _, .fails hslot (hturn slot rfl) hresult, ?_⟩
          simp only [step, hthread, conclude, hresult]
  | answered result => exact .inl ⟨by simp only [step, hthread], .inl ⟨result, rfl⟩⟩

/-! ## What a step changes -/

/-- Slots stay with their names, full slots stay as they are, and what happened stays
known. -/
structure Grows (t t' : Traffic) : Prop where
  slot : ∀ name slot, t.slotOf.get? name = some slot → t'.slotOf.get? name = some slot
  page : ∀ name page, t.pageFor? name = some page → t'.pageFor? name = some page
  events : ∀ event ∈ t.events, event ∈ t'.events

theorem Grows.refl (t : Traffic) : t.Grows t :=
  ⟨fun _ _ => id, fun _ _ => id, fun _ => id⟩

theorem Grows.moveTo (t : Traffic) (thread : Nat) (stage : Stage) :
    t.Grows (t.moveTo thread stage) :=
  ⟨fun _ _ => id, fun _ _ => id, fun _ => id⟩

theorem Grows.arrive (t : Traffic) (name : Text) : t.Grows (t.arrive name) :=
  ⟨fun _ _ => id, fun _ _ => id, fun _ => id⟩

theorem Grows.trans {t t' t'' : Traffic} (h : t.Grows t') (h' : t'.Grows t'') :
    t.Grows t'' := by
  constructor
  · intro name slot hslot
    exact h'.slot name slot (h.slot name slot hslot)
  · intro name page hpage
    exact h'.page name page (h.page name page hpage)
  · intro event hevent
    exact h'.events event (h.events event hevent)

theorem Fits.grows {t t' : Traffic} {thread : Nat} {name : Text} {stage : Stage}
    (h : t.Fits thread name stage) (hgrows : t.Grows t') : t'.Fits thread name stage := by
  cases stage with
  | seeking | reserving => trivial
  | looking slot | waiting slot | compiling slot => exact hgrows.slot name slot h
  | answered result =>
      cases result with
      | ok page => exact hgrows.page name page h
      | error e =>
          obtain ⟨c, hevent, herror⟩ := h
          exact ⟨c, hgrows.events _ hevent, herror⟩

namespace StepTo

variable {compile : Text → Compilation} {base : Traffic} {old stage : Stage} {thread : Nat}

theorem threads_eq (hstep : StepTo compile t thread name old base stage) :
    base.threads = t.threads := by
  cases hstep <;> rfl

theorem not_answered (hstep : StepTo compile t thread name old base stage)
    (result : Except PageError Compiled) : old ≠ .answered result := by
  rintro rfl
  cases hstep with
  | walks hwalks =>
      cases hwalks with
      | finds hold => simp at hold
      | takes hold => simp at hold

theorem slotted (h : t.Slotted) (hstep : StepTo compile t thread name old base stage) :
    base.Slotted := by
  cases hstep with
  | walks => exact h
  | reserves hfree => exact h.reserve name hfree
  | begins => exact (h.setSlot _ _).tell _
  | makes => exact ((h.tell _).count).setSlot _ _
  | fails => exact (h.tell _).setSlot _ _

/-- The slot of any other name is left alone. -/
theorem frame (h : t.Slotted) (hstep : StepTo compile t thread name old base stage)
    {other : Text} (hother : other ≠ name) :
    base.slotOf.get? other = t.slotOf.get? other ∧ base.slotFor? other = t.slotFor? other := by
  cases hstep with
  | walks => exact ⟨rfl, rfl⟩
  | reserves hfree =>
      constructor
      · exact (t.slotOf.get?_insert name other _).trans (if_neg hother)
      · rw [slotFor?_reserve h, if_neg hother]
  | begins hslot =>
      refine ⟨rfl, ?_⟩
      exact (slotFor?_setSlot h hslot _ other).trans (if_neg hother)
  | makes hslot =>
      refine ⟨rfl, ?_⟩
      exact (slotFor?_setSlot h hslot _ other).trans (if_neg hother)
  | fails hslot =>
      refine ⟨rfl, ?_⟩
      exact (slotFor?_setSlot h hslot _ other).trans (if_neg hother)

/-- No page was made. -/
structure Quiet (t base : Traffic) : Prop where
  page : ∀ other, base.pageFor? other = t.pageFor? other
  successes : base.successes = t.successes
  compiled : base.compiled = t.compiled

/-- A page was made and put into the slot of its name, which was empty. -/
structure Makes (t : Traffic) (thread : Nat) (name : Text) (base : Traffic) (stage : Stage)
    (c : Compilation) (view : Template.Namespace) : Prop where
  result : c.result = .ok view
  stage : stage = .answered (.ok ⟨t.compiled, view⟩)
  empty : t.pageFor? name = none
  page : ∀ other, base.pageFor? other =
    if other = name then some ⟨t.compiled, view⟩ else t.pageFor? other
  events : base.events = t.events ++ [.ended thread name c]
  compiled : base.compiled = t.compiled + 1

theorem ite_empty (hnone : t.pageFor? name = none) (other : Text) :
    (if other = name then none else t.pageFor? other) = t.pageFor? other := by
  split
  · next hother => rw [hother, hnone]
  · rfl

theorem successes_tell_of_none {event : Event} (hnone : event.success? = none) :
    (t.tell event).successes = t.successes := by
  have hnew : [event].filterMap Event.success? = [] := List.filterMap_cons_none hnone
  rw [successes, tell, List.filterMap_append, hnew]
  exact List.append_nil _

theorem Makes.successes {c : Compilation} {view : Template.Namespace}
    (h : Makes t thread name base stage c view) : base.successes = t.successes ++ [name] := by
  have hnew : [Event.ended thread name c].filterMap Event.success? = [name] :=
    List.filterMap_cons_some (Event.success?_ended_ok h.result)
  rw [Traffic.successes, h.events, List.filterMap_append, hnew]
  rfl

theorem quiet_or_makes (h : t.Slotted) (hstep : StepTo compile t thread name old base stage) :
    Quiet t base ∨ ∃ c view, Makes t thread name base stage c view := by
  cases hstep with
  | walks => exact .inl ⟨fun _ => rfl, rfl, rfl⟩
  | reserves hfree =>
      left
      have hnone : t.pageFor? name = none := by
        rw [pageFor?, slotFor?, hfree, Option.bind_none, Option.bind_none]
      refine ⟨fun other => ?_, rfl, rfl⟩
      exact (pageFor?_reserve h name other).trans (ite_empty hnone other)
  | begins hslot hfree =>
      left
      have hnone : t.pageFor? name = none := by
        rw [pageFor?, hfree, Option.bind_some]
      refine ⟨fun other => ?_, ?_, rfl⟩
      · exact (pageFor?_setSlot h hslot _ other).trans (ite_empty hnone other)
      · exact successes_tell_of_none rfl
  | makes hslot hbusy hview =>
      right
      have hnone : t.pageFor? name = none := by
        rw [pageFor?, hbusy, Option.bind_some]
      exact ⟨_, _, hview, rfl, hnone, pageFor?_setSlot h hslot _, rfl, rfl⟩
  | fails hslot hbusy herror =>
      left
      have hnone : t.pageFor? name = none := by
        rw [pageFor?, hbusy, Option.bind_some]
      refine ⟨fun other => ?_, ?_, rfl⟩
      · exact (pageFor?_setSlot h hslot _ other).trans (ite_empty hnone other)
      · exact successes_tell_of_none (Event.success?_ended_error herror)

/-- A step tells of one thing at most, and of a beginning only while the slot is
empty. -/
theorem events_eq (hstep : StepTo compile t thread name old base stage) :
    base.events = t.events ∨ ∃ event, base.events = t.events ++ [event] ∧
      ∀ i other, event = .began i other → t.pageFor? other = none := by
  cases hstep with
  | walks => exact .inl rfl
  | reserves => exact .inl rfl
  | begins hslot hfree =>
      right
      refine ⟨_, rfl, ?_⟩
      rintro i other heq
      obtain ⟨-, rfl⟩ := Event.began.inj heq
      rw [pageFor?, hfree, Option.bind_some]
  | makes => exact .inr ⟨_, rfl, by simp⟩
  | fails => exact .inr ⟨_, rfl, by simp⟩

theorem slot_grows (hstep : StepTo compile t thread name old base stage) {other : Text} {slot : Nat}
    (hslot : t.slotOf.get? other = some slot) : base.slotOf.get? other = some slot := by
  cases hstep with
  | walks => exact hslot
  | reserves hfree =>
      have hother : other ≠ name := by
        rintro rfl
        rw [hfree] at hslot
        cases hslot
      exact (t.slotOf.get?_insert name other _).trans ((if_neg hother).trans hslot)
  | begins => exact hslot
  | makes => exact hslot
  | fails => exact hslot

theorem grows (h : t.Slotted) (hstep : StepTo compile t thread name old base stage) : t.Grows base := by
  constructor
  · intro other slot hslot
    exact hstep.slot_grows hslot
  · intro other page hpage
    rcases hstep.quiet_or_makes h with hquiet | ⟨c, view, hmakes⟩
    · rw [hquiet.page, hpage]
    · have hother : other ≠ name := by
        rintro rfl
        rw [hmakes.empty] at hpage
        cases hpage
      rw [hmakes.page, if_neg hother, hpage]
  · intro event hevent
    rcases hstep.events_eq with heq | ⟨last, heq, -⟩
    · rw [heq]
      exact hevent
    · rw [heq]
      exact List.mem_append_left _ hevent

/-- A thread comes to where it belongs. -/
theorem fits (h : t.Slotted) (hstep : StepTo compile t thread name old base stage) :
    base.Fits thread name stage := by
  cases hstep with
  | walks hwalks => exact hwalks.fits
  | reserves => exact (t.slotOf.get?_insert name name _).trans (if_pos rfl)
  | begins hslot => exact hslot
  | makes hslot => exact (pageFor?_setSlot h hslot _ name).trans (if_pos rfl)
  | fails hslot hbusy herror => exact ⟨_, List.mem_concat_self, herror⟩

/-- A compilation begins with a slot that nobody fills. -/
theorem of_compiling {slot : Nat} (h : t.Slotted)
    (hstep : StepTo compile t thread name old base (.compiling slot)) :
    t.slotFor? name = some ⟨none, false⟩ ∧ base.slotFor? name = some ⟨none, true⟩ := by
  cases hstep with
  | walks hwalks => cases hwalks
  | begins hslot hfree =>
      exact ⟨hfree, slotFor?_setSlot_self h hslot ⟨none, true⟩⟩

/-- When the slot is locked after a step, the thread has begun to fill it, or has nothing
to do with the lock. -/
theorem of_locked (h : t.Slotted) (hstep : StepTo compile t thread name old base stage)
    (hlocked : base.slotFor? name = some ⟨none, true⟩) :
    (∃ slot, stage = .compiling slot) ∨
      t.slotFor? name = some ⟨none, true⟩ ∧ ∀ slot, old ≠ .compiling slot := by
  cases hstep with
  | walks hwalks =>
      refine .inr ⟨hlocked, ?_⟩
      rintro slot rfl
      cases hwalks with
      | finds hold => simp at hold
      | takes hold => simp at hold
  | reserves =>
      rw [slotFor?_reserve h, if_pos rfl] at hlocked
      cases hlocked
  | begins => exact .inl ⟨_, rfl⟩
  | @makes slot view hslot =>
      cases (slotFor?_setSlot_self h hslot ⟨some ⟨t.compiled, view⟩, false⟩).symm.trans hlocked
  | fails hslot => cases (slotFor?_setSlot_self h hslot ⟨none, false⟩).symm.trans hlocked

end StepTo
end Traffic
end PageTemplates.Site
