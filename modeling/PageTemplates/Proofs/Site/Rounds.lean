import PageTemplates.Proofs.Site.Lookups
import PageTemplates.Proofs.Site.Turns

/-!
Requests that come together.  In every round each thread takes a step, in the order in which
the threads came.  All requests for a page look into its slot in the same round, and from then
on they are served in their order: a thread is let in one round after the one before it at the
latest, so the last has its answer after as many rounds as there are threads, and four more.
-/

namespace PageTemplates.Site

/-- What a request for a page may be answered: the page that is there under its name, or how the
compilation of it fails. -/
def IsAnswer (pages : Text → Option Compiled) (compile : Text → Compilation) (name : Text) :
    Except PageError Compiled → Prop
  | .ok page => pages name = some page
  | .error e => (compile name).result = .error e

namespace Traffic

variable {compile : Text → Compilation} {start t : Traffic}

/-! ## What holds within a round -/

/-- The number of steps that a request takes before it looks into its slot: one more when the
slot has to be made. -/
def delay (start : Traffic) (name : Text) : Nat :=
  if start.slotOf.get? name = none then 2 else 1

theorem delay_le_two (start : Traffic) (name : Text) : start.delay name ≤ 2 := by
  unfold delay
  split <;> decide

/-- How far a thread has come after so many steps.  It waits for those before it at most, so its
place among the threads bounds the steps that it can take before its turn and its answer. -/
def OnTime (delay place steps : Nat) : Stage → Prop
  | .seeking => steps = 0
  | .reserving => steps = 1 ∧ delay = 2
  | .looking _ => steps = delay
  | .waiting _ => delay < steps ∧ steps ≤ place + 3
  | .compiling _ => steps ≤ place + 4
  | .answered _ => True

/-- The steps of the thread in a place after some rounds, when in the next one only the first
`done` threads have taken theirs. -/
def stepsTaken (rounds done place : Nat) : Nat :=
  if place < done then rounds + 1 else rounds

theorem stepsTaken_self (rounds done : Nat) : stepsTaken rounds done done = rounds :=
  if_neg (Nat.lt_irrefl done)

theorem stepsTaken_succ_self (rounds done : Nat) :
    stepsTaken rounds (done + 1) done = rounds + 1 :=
  if_pos (Nat.lt_succ_self done)

theorem stepsTaken_succ_of_ne {done place : Nat} (hne : place ≠ done) (rounds : Nat) :
    stepsTaken rounds (done + 1) place = stepsTaken rounds done place := by
  have hiff : place < done + 1 ↔ place < done := by omega
  simp only [stepsTaken, hiff]

/-- What holds of requests that came together, after some rounds and the steps of the first
`done` threads in the next. -/
structure InRound (compile : Text → Compilation) (start : Traffic) (rounds done : Nat)
    (t : Traffic) : Prop extends t.TakesTurns where
  names : t.threads.map (·.name) = start.threads.map (·.name)
  on_time : ∀ (i : Nat) name stage, t.threads[i]? = some ⟨name, stage⟩ →
    OnTime (start.delay name) i (stepsTaken rounds done i) stage
  /-- No slot is made in the first round. -/
  slots : rounds = 0 → t.slotOf = start.slotOf
  /-- When a thread compiles, those before it have their answers. -/
  in_order : ∀ (i j : Nat) name stage slot, i < j → t.threads[i]? = some ⟨name, stage⟩ →
    t.threads[j]? = some ⟨name, .compiling slot⟩ → ∃ result, stage = .answered result
  /-- When a thread has taken its step and waits, those that have not are not let in. -/
  shut : ∀ (i j : Nat) name slot slot', i < done → done ≤ j →
    t.threads[i]? = some ⟨name, .waiting slot⟩ →
    t.threads[j]? = some ⟨name, .waiting slot'⟩ → t.slotFor? name = some ⟨none, true⟩
  /-- The compilations came out as `compile` says. -/
  ended : ∀ (i : Nat) name c, .ended i name c ∈ t.events → c = compile name

/-! ## One step -/

section Step

variable {base : Traffic} {rounds done : Nat} {name : Text} {old stage : Stage}

/-- A thread that comes to its next stage is on time. -/
theorem StepTo.onTime {thread place : Nat} (hstep : StepTo compile t thread name old base stage)
    (hslots : rounds = 0 → t.slotOf = start.slotOf)
    (hold : OnTime (start.delay name) place rounds old) :
    OnTime (start.delay name) place (rounds + 1) stage := by
  have hdelay := start.delay_le_two name
  cases hstep with
  | walks hwalks =>
      cases hwalks with
      | misses hfree =>
          obtain rfl : rounds = 0 := hold
          rw [hslots rfl] at hfree
          exact ⟨rfl, if_pos hfree⟩
      | finds hwhere hslot =>
          rcases hwhere with rfl | rfl
          · obtain rfl : rounds = 0 := hold
            rw [hslots rfl] at hslot
            exact (if_neg (by simp [hslot])).symm
          · obtain ⟨rfl, htwo⟩ := hold
            exact htwo.symm
      | queues =>
          obtain rfl : rounds = start.delay name := hold
          exact ⟨Nat.lt_succ_self _, by omega⟩
      | takes => trivial
  | reserves =>
      obtain ⟨rfl, htwo⟩ := hold
      exact htwo.symm
  | begins =>
      have hplace : rounds ≤ place + 3 := hold.2
      exact Nat.succ_le_succ hplace
  | makes => trivial
  | fails => trivial

theorem StepTo.ended {thread : Nat} (hstep : StepTo compile t thread name old base stage)
    (hbefore : ∀ (i : Nat) other c, .ended i other c ∈ t.events → c = compile other) (i : Nat)
    (other : Text) (c : Compilation) (hevent : .ended i other c ∈ base.events) :
    c = compile other := by
  have hlast : ∀ event, .ended i other c ∈ t.events ++ [event] →
      (.ended i other c = event → c = compile other) → c = compile other := by
    intro event hmem hnew
    rcases List.mem_append.mp hmem with hold | hlast
    · exact hbefore i other c hold
    · exact hnew (List.mem_singleton.mp hlast)
  cases hstep with
  | walks => exact hbefore i other c hevent
  | reserves => exact hbefore i other c hevent
  | begins => exact hlast _ hevent nofun
  | makes =>
      refine hlast _ hevent fun heq => ?_
      obtain ⟨-, rfl, rfl⟩ := Event.ended.inj heq
      rfl
  | fails =>
      refine hlast _ hevent fun heq => ?_
      obtain ⟨-, rfl, rfl⟩ := Event.ended.inj heq
      rfl

theorem map_name_moveTo (hthreads : base.threads = t.threads) (thread : Nat) (stage : Stage) :
    (base.moveTo thread stage).threads.map (·.name) = t.threads.map (·.name) := by
  apply List.ext_getElem?
  intro i
  rw [moveTo, hthreads, List.getElem?_map, List.getElem?_map, List.getElem?_modify]
  cases t.threads[i]? <;> split <;> rfl

variable (h : InRound compile start rounds done t)
  (hthread : t.threads[done]? = some ⟨name, old⟩)

include h hthread

/-- The thread whose turn comes has not taken its step in this round. -/
theorem InRound.onTime_self : OnTime (start.delay name) done rounds old := by
  have htime := h.on_time done name old hthread
  rwa [stepsTaken_self] at htime

/-- A thread that waits while its slot is locked is on time: another thread compiles, and it
came before. -/
theorem InRound.onTime_of_waiting {slot : Nat} (hold : old = .waiting slot)
    (hlocked : t.slotFor? name = some ⟨none, true⟩) :
    OnTime (start.delay name) done (rounds + 1) old := by
  subst hold
  have htime := h.onTime_self hthread
  obtain ⟨j, slot', hj⟩ := h.attended name hlocked
  rcases Nat.lt_trichotomy j done with hlt | rfl | hgt
  · have hother : stepsTaken rounds done j ≤ j + 4 := h.on_time j name _ hj
    rw [stepsTaken, if_pos hlt] at hother
    exact ⟨Nat.lt_succ_of_lt htime.1, by omega⟩
  · cases hthread.symm.trans hj
  · obtain ⟨result, hresult⟩ := h.in_order done j name _ slot' hgt hthread hj
    cases hresult

/-- A thread that stays where it is has its answer or is on time. -/
theorem InRound.stays (hstays : (∃ result, old = .answered result) ∨
      (∃ slot, old = .waiting slot) ∧ t.slotFor? name = some ⟨none, true⟩) :
    InRound compile start rounds (done + 1) t where
  toTakesTurns := h.toTakesTurns
  names := h.names
  on_time i other stage hi := by
    by_cases hdone : i = done
    · subst hdone
      obtain ⟨rfl, rfl⟩ := Thread.mk.inj (Option.some.inj (hthread.symm.trans hi))
      rw [stepsTaken_succ_self]
      rcases hstays with ⟨result, rfl⟩ | ⟨⟨slot, hold⟩, hlocked⟩
      · trivial
      · exact h.onTime_of_waiting hthread hold hlocked
    · rw [stepsTaken_succ_of_ne hdone]
      exact h.on_time i other stage hi
  slots := h.slots
  in_order := h.in_order
  shut i j other slot slot' hi hj hthread' hother := by
    rcases Nat.lt_succ_iff_lt_or_eq.mp hi with hlt | rfl
    · exact h.shut i j other slot slot' hlt (Nat.le_of_succ_le hj) hthread' hother
    · obtain ⟨rfl, rfl⟩ := Thread.mk.inj (Option.some.inj (hthread.symm.trans hthread'))
      rcases hstays with ⟨result, hold⟩ | ⟨-, hlocked⟩
      · cases hold
      · exact hlocked
  ended := h.ended

/-- A thread is let in when those of its name before it have their answers. -/
theorem InRound.answered_before {slot : Nat}
    (hstep : StepTo compile t done name old base (.compiling slot)) {i : Nat} {other : Stage}
    (hlt : i < done) (hi : t.threads[i]? = some ⟨name, other⟩) :
    ∃ result, other = .answered result := by
  have htime := h.onTime_self hthread
  have hother := h.on_time i name other hi
  rw [stepsTaken, if_pos hlt] at hother
  cases hstep with
  | walks hwalks => cases hwalks
  | begins hslot hfree =>
      have hlate : start.delay name < rounds := htime.1
      have hopen : t.slotFor? name ≠ some ⟨none, true⟩ := by simp [hfree]
      cases other with
      | seeking => cases hother
      | reserving =>
          have hone : rounds + 1 = 1 := hother.1
          omega
      | looking slot' =>
          have hdelay : rounds + 1 = start.delay name := hother
          omega
      | waiting slot' =>
          exact absurd (h.shut i done name slot' slot hlt (Nat.le_refl done) hi hthread) hopen
      | compiling slot' => exact absurd (h.turn i name slot' hi) hopen
      | answered result => exact ⟨result, rfl⟩

/-- When a thread begins to wait, none that has yet to take its step waits already. -/
theorem InRound.not_waiting_after {slot : Nat}
    (hstep : StepTo compile t done name old base (.waiting slot)) {j slot' : Nat} (hj : done ≤ j) :
    t.threads[j]? ≠ some ⟨name, .waiting slot'⟩ := by
  intro hwaiting
  have htime := h.onTime_self hthread
  have hother := h.on_time j name _ hwaiting
  rw [stepsTaken, if_neg (Nat.not_lt.mpr hj)] at hother
  cases hstep with
  | walks hwalks =>
      cases hwalks with
      | queues =>
          obtain rfl : rounds = start.delay name := htime
          exact Nat.lt_irrefl _ hother.1

variable (hstep : StepTo compile t done name old base stage)

include hstep

theorem InRound.in_order_moveTo (i j : Nat) (other : Text) (stage' : Stage) (slot : Nat)
    (hlt : i < j) (hi : (base.moveTo done stage).threads[i]? = some ⟨other, stage'⟩)
    (hj : (base.moveTo done stage).threads[j]? = some ⟨other, .compiling slot⟩) :
    ∃ result, stage' = .answered result := by
  rcases of_getElem?_moveTo hstep.threads_eq hthread hi with ⟨rfl, rfl, rfl⟩ | ⟨-, hbefore⟩
  · rcases of_getElem?_moveTo hstep.threads_eq hthread hj with ⟨rfl, -, -⟩ | ⟨-, hj⟩
    · exact absurd hlt (Nat.lt_irrefl _)
    · obtain ⟨result, hold⟩ := h.in_order _ j _ _ slot hlt hthread hj
      exact absurd hold (hstep.not_answered result)
  · rcases of_getElem?_moveTo hstep.threads_eq hthread hj with ⟨rfl, rfl, rfl⟩ | ⟨-, hj⟩
    · exact h.answered_before hthread hstep hlt hbefore
    · exact h.in_order i j other stage' slot hlt hbefore hj

/-- A slot that is locked for a thread that waits stays locked. -/
theorem InRound.locked_of_waiting {i slot : Nat} {other : Text} (hlt : i < done)
    (hi : t.threads[i]? = some ⟨other, .waiting slot⟩)
    (hlocked : t.slotFor? other = some ⟨none, true⟩) :
    base.slotFor? other = some ⟨none, true⟩ := by
  by_cases hother : other = name
  · subst hother
    have hnot : ∀ slot', old ≠ .compiling slot' := by
      rintro slot' rfl
      obtain ⟨result, hresult⟩ := h.in_order i done other _ slot' hlt hi hthread
      cases hresult
    cases hstep with
    | walks => exact hlocked
    | reserves hfree =>
        have hslot : t.slotOf.get? other = some slot := h.fits i other _ hi
        rw [hfree] at hslot
        cases hslot
    | begins hslot hfree =>
        rw [hfree] at hlocked
        cases hlocked
    | makes => exact absurd rfl (hnot _)
    | fails => exact absurd rfl (hnot _)
  · rw [(hstep.frame h.slotted hother).2, hlocked]

theorem InRound.shut_moveTo (i j : Nat) (other : Text) (slot slot' : Nat) (hi : i < done + 1)
    (hj : done + 1 ≤ j)
    (hfirst : (base.moveTo done stage).threads[i]? = some ⟨other, .waiting slot⟩)
    (hsecond : (base.moveTo done stage).threads[j]? = some ⟨other, .waiting slot'⟩) :
    base.slotFor? other = some ⟨none, true⟩ := by
  have hle : done ≤ j := Nat.le_of_succ_le hj
  rcases of_getElem?_moveTo hstep.threads_eq hthread hsecond with ⟨rfl, -, -⟩ | ⟨-, hafter⟩
  · exact absurd hj (Nat.lt_irrefl _)
  · rcases of_getElem?_moveTo hstep.threads_eq hthread hfirst with ⟨-, rfl, rfl⟩ | ⟨hne, hbefore⟩
    · exact absurd hafter (h.not_waiting_after hthread hstep hle)
    · have hlt : i < done := by omega
      exact h.locked_of_waiting hthread hstep hlt hbefore
        (h.shut i j other slot slot' hlt hle hbefore hafter)

/-- In the first round nobody has come so far as to make a slot. -/
theorem InRound.slots_moveTo (hfirst : rounds = 0) :
    (base.moveTo done stage).slotOf = start.slotOf := by
  have htime := h.onTime_self hthread
  rw [hfirst] at htime
  cases hstep with
  | walks => exact h.slots hfirst
  | reserves => cases htime.1
  | begins => exact h.slots hfirst
  | makes => exact h.slots hfirst
  | fails => exact h.slots hfirst

theorem InRound.moves : InRound compile start rounds (done + 1) (base.moveTo done stage) where
  toTakesTurns := h.toTakesTurns.moveTo hthread hstep
  names := (map_name_moveTo hstep.threads_eq done stage).trans h.names
  on_time i other stage' hi := by
    rcases of_getElem?_moveTo hstep.threads_eq hthread hi with ⟨rfl, rfl, rfl⟩ | ⟨hne, hi⟩
    · rw [stepsTaken_succ_self]
      exact hstep.onTime h.slots (h.onTime_self hthread)
    · rw [stepsTaken_succ_of_ne hne]
      exact h.on_time i other stage' hi
  slots := h.slots_moveTo hthread hstep
  in_order := h.in_order_moveTo hthread hstep
  shut := h.shut_moveTo hthread hstep
  ended := hstep.ended h.ended

end Step

theorem InRound.step {rounds done : Nat} (h : InRound compile start rounds done t)
    (hdone : done < t.threads.length) :
    InRound compile start rounds (done + 1) (t.step compile done) := by
  have hthread : t.threads[done]? = some ⟨t.threads[done].name, t.threads[done].stage⟩ :=
    List.getElem?_eq_getElem hdone
  rcases h.step_cases compile hthread with ⟨hsame, hstays⟩ | ⟨base, stage, hstep, hmoves⟩
  · rw [hsame]
    exact h.stays hthread hstays
  · rw [hmoves]
    exact h.moves hthread hstep

/-! ## Rounds -/

theorem InRound.length_threads {rounds done : Nat} (h : InRound compile start rounds done t) :
    t.threads.length = start.threads.length := by
  simpa using congrArg List.length h.names

/-- When all threads have taken their steps the next round begins. -/
theorem InRound.next {rounds done : Nat} (h : InRound compile start rounds done t)
    (hall : t.threads.length ≤ done) : InRound compile start (rounds + 1) 0 t where
  toTakesTurns := h.toTakesTurns
  names := h.names
  on_time i name stage hi := by
    have hlt : i < t.threads.length := (List.getElem?_eq_some_iff.mp hi).1
    have htime := h.on_time i name stage hi
    rw [stepsTaken, if_pos (Nat.lt_of_lt_of_le hlt hall)] at htime
    exact htime
  slots hfirst := absurd hfirst (Nat.succ_ne_zero rounds)
  in_order := h.in_order
  shut i _ _ _ _ hi := absurd hi (Nat.not_lt_zero i)
  ended := h.ended

theorem InRound.round {rounds : Nat} (h : InRound compile start rounds 0 t) :
    InRound compile start (rounds + 1) 0
      (t.run ((List.range t.threads.length).map (.steps · compile))) := by
  have hpart : ∀ done ≤ t.threads.length, InRound compile start rounds done
      (t.run ((List.range done).map (.steps · compile))) := by
    intro done hdone
    induction done with
    | zero => exact h
    | succ done ih =>
        have hbefore := ih (Nat.le_of_succ_le hdone)
        have hnext : done < (t.run ((List.range done).map (.steps · compile))).threads.length := by
          rw [hbefore.length_threads, ← h.length_threads]
          exact hdone
        rw [List.range_succ, List.map_append, run, List.foldl_append]
        exact hbefore.step hnext
  have hwhole := hpart t.threads.length (Nat.le_refl _)
  exact hwhole.next (Nat.le_of_eq (hwhole.length_threads.trans h.length_threads.symm))

theorem rounds_succ (compile : Text → Compilation) (n : Nat) (t : Traffic) :
    t.rounds compile (n + 1) =
      (t.rounds compile n).run ((List.range t.threads.length).map (.steps · compile)) := by
  rw [rounds, List.replicate_succ', List.flatten_append, List.flatten_singleton, run,
    List.foldl_append]
  rfl

theorem InRound.rounds (h : InRound compile start 0 0 start) (n : Nat) :
    InRound compile start n 0 (start.rounds compile n) := by
  induction n with
  | zero => exact h
  | succ n ih =>
      rw [rounds_succ, ← ih.length_threads]
      exact ih.round

/-- After four rounds more than there are threads, nobody is still on the way. -/
theorem InRound.exists_answered (h : InRound compile start (start.threads.length + 4) 0 t)
    {i : Nat} {name : Text} {stage : Stage} (hi : t.threads[i]? = some ⟨name, stage⟩) :
    ∃ result, stage = .answered result := by
  have hlt : i < start.threads.length := by
    rw [← h.length_threads]
    exact (List.getElem?_eq_some_iff.mp hi).1
  have htime : OnTime (start.delay name) i (start.threads.length + 4) stage :=
    h.on_time i name stage hi
  have hdelay := start.delay_le_two name
  cases stage with
  | seeking => cases htime
  | reserving => cases htime.1
  | looking slot =>
      have hsteps : start.threads.length + 4 = start.delay name := htime
      omega
  | waiting slot =>
      have hplace : start.threads.length + 4 ≤ i + 3 := htime.2
      omega
  | compiling slot =>
      have hplace : start.threads.length + 4 ≤ i + 4 := htime
      omega
  | answered result => exact ⟨result, rfl⟩

/-! ## Requests that come together -/

theorem threads_foldl_arrive (names : List Text) (t : Traffic) :
    (names.foldl arrive t).threads = t.threads ++ names.map (⟨·, .seeking⟩) := by
  induction names generalizing t with
  | nil => exact (List.append_nil _).symm
  | cons name rest ih =>
      rw [List.foldl_cons, ih, arrive, List.append_assoc, List.map_cons, List.singleton_append]

theorem events_foldl_arrive (names : List Text) (t : Traffic) :
    (names.foldl arrive t).events = t.events := by
  induction names generalizing t with
  | nil => rfl
  | cons name rest ih => exact ih (t.arrive name)

theorem TakesTurns.foldl_arrive (h : t.TakesTurns) (names : List Text) :
    (names.foldl Traffic.arrive t).TakesTurns := by
  induction names generalizing t with
  | nil => exact h
  | cons name rest ih => exact ih (h.arrive name)

theorem inRound_foldl_arrive (compile : Text → Compilation) (cache : Cache) (compiled : Nat)
    (names : List Text) :
    InRound compile (names.foldl arrive (ofCache cache compiled)) 0 0
      (names.foldl arrive (ofCache cache compiled)) := by
  have hseeking : ∀ (i : Nat) name stage,
      (names.foldl arrive (ofCache cache compiled)).threads[i]? = some ⟨name, stage⟩ →
        stage = .seeking := by
    intro i name stage hi
    rw [threads_foldl_arrive] at hi
    obtain ⟨other, -, heq⟩ := List.mem_map.mp (List.mem_of_getElem? hi)
    exact (Thread.mk.inj heq).2.symm
  constructor
  · exact (takesTurns_ofCache cache compiled).foldl_arrive names
  · rfl
  · intro i name stage hi
    obtain rfl := hseeking i name stage hi
    rfl
  · exact fun _ => rfl
  · intro i j name stage slot hlt hi hj
    cases hseeking j name _ hj
  · intro i j name slot slot' hi
    exact absurd hi (Nat.not_lt_zero i)
  · intro i name c hevent
    rw [events_foldl_arrive] at hevent
    cases hevent

/-- Answers one by one, when all threads have one. -/
theorem forall₂_answers {P : Text → Except PageError Compiled → Prop}
    (hall : ∀ th ∈ t.threads, ∃ result, th.stage = .answered result ∧ P th.name result) :
    List.Forall₂ P (t.threads.map (·.name)) t.answers := by
  unfold answers
  generalize t.threads = threads at hall
  induction threads with
  | nil => exact .nil
  | cons th rest ih =>
      obtain ⟨hfirst, hrest⟩ := List.forall_mem_cons.mp hall
      obtain ⟨result, hstage, hresult⟩ := hfirst
      rw [List.map_cons, List.filterMap_cons_some (by rw [hstage])]
      exact .cons hresult (ih hrest)

theorem InRound.isAnswer {rounds done : Nat} (h : InRound compile start rounds done t)
    {i : Nat} {name : Text} {result : Except PageError Compiled}
    (hi : t.threads[i]? = some ⟨name, .answered result⟩) :
    IsAnswer t.pageFor? compile name result := by
  have hfits := h.fits i name _ hi
  cases result with
  | ok page => exact hfits
  | error e =>
      obtain ⟨c, hevent, herror⟩ := hfits
      rw [IsAnswer, ← h.ended i name c hevent, herror]

end Traffic

/-- Requests that come together to a site that keeps its pages are all answered: with the page that
the site keeps in the end under the name, or as the compilation of the page fails. -/
theorem getTogether_answers {site : Site} (hcaching : site.cache.isSome) (store : Store)
    (names : List Text) :
    let together := site.getTogether store names
    List.Forall₂ (fun name => IsAnswer together.site.kept? (site.compile store) (site.resolve name))
      names together.results := by
  intro together
  obtain ⟨cache, hcache⟩ := Option.isSome_iff_exists.mp hcaching
  let start := (names.map site.resolve).foldl Traffic.arrive (Traffic.ofCache cache site.compiled)
  let last := start.rounds (site.compile store) (names.length + 4)
  have htogether : together =
      ⟨{ site with cache := some last.cache, compiled := last.compiled }, last.reads,
        last.answers⟩ := by
    simp only [together, getTogether, hcache]
    rfl
  have hstart : start.threads.map (·.name) = names.map site.resolve := by
    rw [Traffic.threads_foldl_arrive, List.map_append, List.map_map]
    exact List.map_id' _
  have hlength : start.threads.length = names.length := by
    simpa using congrArg List.length hstart
  have hlast : Traffic.InRound (site.compile store) start (start.threads.length + 4) 0 last := by
    rw [hlength]
    exact (Traffic.inRound_foldl_arrive _ cache site.compiled _).rounds _
  have hkept : together.site.kept? = last.pageFor? := by
    funext name
    rw [htogether, ← Traffic.find?_cache hlast.slotted]
    rfl
  rw [hkept, htogether, ← List.forall₂_map_left_iff, ← hstart, ← hlast.names]
  apply Traffic.forall₂_answers
  intro th hth
  obtain ⟨i, hi⟩ := List.getElem?_of_mem hth
  obtain ⟨result, hresult⟩ := hlast.exists_answered hi
  refine ⟨result, hresult, hlast.isAnswer (i := i) ?_⟩
  rw [hi, ← hresult]

/-- No request goes without an answer. -/
theorem length_results_getTogether (site : Site) (store : Store) (names : List Text) :
    (site.getTogether store names).results.length = names.length := by
  cases hcache : site.cache with
  | some cache =>
      exact (getTogether_answers (Option.isSome_of_eq_some hcache) store names).length_eq.symm
  | none =>
      -- one request after the other, each with its answer
      have hfold : ∀ all : Answers, (names.foldl (fun (all : Answers) name =>
          (⟨(all.site.get store name).site, all.reads ++ (all.site.get store name).reads,
            all.results ++ [(all.site.get store name).result]⟩ : Answers)) all).results.length =
          all.results.length + names.length := by
        induction names with
        | nil => exact fun all => rfl
        | cons name rest ih =>
            intro all
            rw [List.foldl_cons, ih, List.length_append, List.length_singleton, List.length_cons]
            omega
      rw [getTogether, hcache]
      exact (hfold ⟨site, [], []⟩).trans (Nat.zero_add _)

end PageTemplates.Site
