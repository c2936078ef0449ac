import PageTemplates.Site.Basic

/-!
Requests for the pages of a caching site that are under way at the same time.  Each request is a thread, and
what it does is cut into the steps that other threads can come between: it looks for the slot of its name,
makes one when there is none, looks into the slot, waits for its turn to fill it, and compiles the page.  A
slot is filled by one thread at a time, and a thread that comes too late takes what is there.  Any order of
steps is a run; a request that is alone does what `get` does.
-/

namespace PageTemplates.Site

/-- How far a request has come.  Slots are known by their numbers. -/
inductive Stage where
  /-- It looks for the slot of its name. -/
  | seeking
  /-- It found no slot and looks again while no other thread can, to make one. -/
  | reserving
  /-- It has a slot and looks into it. -/
  | looking (slot : Nat)
  /-- It found the slot empty and waits until no other thread fills it. -/
  | waiting (slot : Nat)
  /-- It has its turn and compiles the page. -/
  | compiling (slot : Nat)
  | answered (result : Except PageError Compiled)
deriving Inhabited

/-- A request for the page with a name that stands for itself. -/
structure Thread where
  name : Text
  stage : Stage
deriving Inhabited

/-- A place for a compiled page. -/
structure Slot where
  page : Option Compiled
  /-- Whether a thread compiles the page for it. -/
  busy : Bool
deriving Inhabited

/-- What can be told of the compilations afterwards. -/
inductive Event where
  /-- A thread began to compile the page with a name. -/
  | began (thread : Nat) (name : Text)
  | ended (thread : Nat) (name : Text) (compilation : Compilation)

/-- The slots of a site and the requests that are under way. -/
structure Traffic where
  /-- The numbers of the slots by name. -/
  slotOf : Table Nat
  slots : List Slot
  threads : List Thread
  /-- How many pages have been compiled. -/
  compiled : Nat
  /-- The compilations so far, first to last. -/
  events : List Event

namespace Traffic

/-- The slots of a cache, with no request under way. -/
def ofCache (cache : Cache) (compiled : Nat) : Traffic where
  slotOf := Table.ofList (cache.slots.names.zipIdx)
  slots := cache.slots.entries.map fun (_, page) => ⟨page, false⟩
  threads := []
  compiled := compiled
  events := []

/-- The page in the slot with a number, if there is one. -/
def pageIn? (t : Traffic) (slot : Nat) : Option Compiled :=
  t.slots[slot]?.bind (·.page)

/-- Whether a thread compiles the page for a slot. -/
def isBusy (t : Traffic) (slot : Nat) : Bool :=
  t.slots[slot]?.any (·.busy)

/-- The slots as a cache. -/
def cache (t : Traffic) : Cache :=
  ⟨Table.ofList (t.slotOf.entries.map fun (name, slot) => (name, t.pageIn? slot))⟩

/-- The paths that were read, first to last. -/
def reads (t : Traffic) : List Text :=
  t.events.flatMap fun
    | .began _ _ => []
    | .ended _ _ compilation => compilation.reads

/-- The answers that threads have, in the order of the threads. -/
def answers (t : Traffic) : List (Except PageError Compiled) :=
  t.threads.filterMap fun thread => match thread.stage with
    | .answered result => some result
    | _ => none

def arrive (t : Traffic) (name : Text) : Traffic :=
  { t with threads := t.threads ++ [⟨name, .seeking⟩] }

def moveTo (t : Traffic) (thread : Nat) (stage : Stage) : Traffic :=
  { t with threads := t.threads.modify thread fun th => { th with stage } }

def setSlot (t : Traffic) (slot : Nat) (content : Slot) : Traffic :=
  { t with slots := t.slots.set slot content }

/-- A new empty slot for a name. -/
def reserve (t : Traffic) (name : Text) : Traffic :=
  { t with
    slotOf := t.slotOf.insert name t.slots.length
    slots := t.slots ++ [⟨none, false⟩] }

def count (t : Traffic) : Traffic :=
  { t with compiled := t.compiled + 1 }

/-- One more compilation that began or ended. -/
def tell (t : Traffic) (event : Event) : Traffic :=
  { t with events := t.events ++ [event] }

/-- A thread begins to compile for a slot, and nobody else can until it is done. -/
def begin (t : Traffic) (thread : Nat) (name : Text) (slot : Nat) : Traffic :=
  ((t.setSlot slot ⟨none, true⟩).tell (.began thread name)).moveTo thread (.compiling slot)

/-- A compilation is over: the page goes into the slot, and after a failure the slot stays empty. -/
def conclude (t : Traffic) (thread : Nat) (name : Text) (slot : Nat) (c : Compilation) : Traffic :=
  let t := t.tell (.ended thread name c)
  match c.result with
  | .ok view =>
    let page : Compiled := ⟨t.compiled, view⟩
    (t.count.setSlot slot ⟨some page, false⟩).moveTo thread (.answered (.ok page))
  | .error e => (t.setSlot slot ⟨none, false⟩).moveTo thread (.answered (.error e))

/-- One step of a thread; a compilation that it ends comes out as `compile` says.  A thread that has to
wait, or has its answer, stays where it is. -/
def step (compile : Text → Compilation) (thread : Nat) (t : Traffic) : Traffic :=
  match t.threads[thread]? with
  | none => t
  | some ⟨name, .seeking⟩ =>
    match t.slotOf.get? name with
    | some slot => t.moveTo thread (.looking slot)
    | none => t.moveTo thread .reserving
  | some ⟨name, .reserving⟩ =>
    match t.slotOf.get? name with
    | some slot => t.moveTo thread (.looking slot)
    | none => (t.reserve name).moveTo thread (.looking t.slots.length)
  | some ⟨_, .looking slot⟩ =>
    match t.pageIn? slot with
    | some page => t.moveTo thread (.answered (.ok page))
    | none => t.moveTo thread (.waiting slot)
  | some ⟨name, .waiting slot⟩ =>
    match t.pageIn? slot with
    | some page => t.moveTo thread (.answered (.ok page))
    | none => if t.isBusy slot then t else t.begin thread name slot
  | some ⟨name, .compiling slot⟩ => t.conclude thread name slot (compile name)
  | some ⟨_, .answered _⟩ => t

inductive Move where
  | arrives (name : Text)
  /-- A thread takes a step, while a compilation would come out as `compile` says. -/
  | steps (thread : Nat) (compile : Text → Compilation)

def move (t : Traffic) : Move → Traffic
  | .arrives name => t.arrive name
  | .steps thread compile => t.step compile thread

/-- The traffic after some moves, first to last. -/
def run (t : Traffic) (moves : List Move) : Traffic :=
  moves.foldl move t

/-- Rounds in which every thread takes a step in turn. -/
def rounds (compile : Text → Compilation) (n : Nat) (t : Traffic) : Traffic :=
  t.run ((List.replicate n ((List.range t.threads.length).map (.steps · compile))).flatten)

end Traffic

/-- What requests for several pages at the same time did: the site after them, the paths that were read, and
the answers. -/
structure Answers where
  site : Site
  reads : List Text
  results : List (Except PageError Compiled)

/-- The pages with the given names, each requested by a thread of its own while nothing changes in the
store.  All threads have their answers after five rounds and one more for every other thread, as a thread
waits at worst until all others have failed. -/
def getTogether (site : Site) (store : Store) (names : List Text) : Answers :=
  match site.cache with
  | some cache =>
    let start := (names.map site.resolve).foldl Traffic.arrive (Traffic.ofCache cache site.compiled)
    let last := start.rounds (site.compile store) (names.length + 4)
    ⟨{ site with cache := some last.cache, compiled := last.compiled }, last.reads, last.answers⟩
  | none =>
    names.foldl
      (fun all name =>
        let one := all.site.get store name
        ⟨one.site, all.reads ++ one.reads, all.results ++ [one.result]⟩)
      ⟨site, [], []⟩

end PageTemplates.Site
