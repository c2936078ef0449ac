import PageTemplates.Text.Basic

/-!
Tables: finite maps from names to values, listed in the order of their names.  Main statements: what a
table answers after an insertion or a removal, and that two tables with the same answers are the same
table, so nothing of the history that built one is left in it.
-/

namespace PageTemplates

variable {α : Type}

/-- Names in strictly increasing order. -/
def Increasing (entries : List (Text × α)) : Prop :=
  entries.Pairwise fun a b => a.1 < b.1

/-- The entries with `key` bound to `value`, at its place in the order. -/
def insertEntry (key : Text) (value : α) : List (Text × α) → List (Text × α)
  | [] => [(key, value)]
  | (other, old) :: rest =>
    if key < other then (key, value) :: (other, old) :: rest
    else if key = other then (key, value) :: rest
    else (other, old) :: insertEntry key value rest

private theorem text_lt_of_not {a b : Text} (h : ¬ a < b) (hne : a ≠ b) : b < a := by
  rcases Classical.em (b < a) with hba | hba
  · exact hba
  · exact absurd (List.le_antisymm (List.not_lt.1 hba) (List.not_lt.1 h)) hne

theorem mem_insertEntry {key : Text} {value : α} {entries : List (Text × α)} {e : Text × α}
    (h : e ∈ insertEntry key value entries) : e = (key, value) ∨ e ∈ entries := by
  induction entries with
  | nil => simpa [insertEntry] using h
  | cons entry rest ih => grind [insertEntry]

theorem increasing_insertEntry (key : Text) (value : α) {entries : List (Text × α)}
    (h : Increasing entries) : Increasing (insertEntry key value entries) := by
  induction entries with
  | nil => simp [insertEntry, Increasing]
  | cons entry rest ih =>
    obtain ⟨other, old⟩ := entry
    obtain ⟨hfirst, hrest⟩ := List.pairwise_cons.1 h
    by_cases hlt : key < other
    · simp only [insertEntry, if_pos hlt]
      exact List.pairwise_cons.2 ⟨fun e he => by
        rcases List.mem_cons.1 he with rfl | he
        · exact hlt
        · exact List.lt_trans hlt (hfirst e he), h⟩
    · by_cases heq : key = other
      · subst heq
        simp only [insertEntry, if_neg hlt, if_true]
        exact List.pairwise_cons.2 ⟨hfirst, hrest⟩
      · simp only [insertEntry, if_neg hlt, if_neg heq]
        exact List.pairwise_cons.2 ⟨fun e he => by
          rcases mem_insertEntry he with rfl | he
          · exact text_lt_of_not hlt heq
          · exact hfirst e he, ih hrest⟩

theorem lookup_cons_ite (name key : Text) (value : α) (entries : List (Text × α)) :
    ((key, value) :: entries).lookup name = if name = key then some value else entries.lookup name := by
  by_cases h : name = key
  · simp [h]
  · rw [List.lookup_cons, beq_false_of_ne h, if_neg h]

theorem lookup_insertEntry (key name : Text) (value : α) (entries : List (Text × α)) :
    (insertEntry key value entries).lookup name =
      if name = key then some value else entries.lookup name := by
  induction entries with
  | nil => simp only [insertEntry, lookup_cons_ite]
  | cons entry rest ih =>
    obtain ⟨other, old⟩ := entry
    by_cases hlt : key < other
    · simp only [insertEntry, if_pos hlt, lookup_cons_ite]
    · by_cases heq : key = other
      · subst heq
        simp only [insertEntry, if_neg hlt, if_true, lookup_cons_ite]
        split <;> rfl
      · simp only [insertEntry, if_neg hlt, if_neg heq, lookup_cons_ite, ih]
        by_cases h : name = other
        · subst h
          simp [Ne.symm heq]
        · simp [h]

theorem lookup_filter_ne (key name : Text) (entries : List (Text × α)) :
    (entries.filter (·.1 ≠ key)).lookup name = if name = key then none else entries.lookup name := by
  induction entries with
  | nil => simp
  | cons entry rest ih =>
    obtain ⟨other, old⟩ := entry
    by_cases hother : other = key
    · subst hother
      rw [List.filter_cons_of_neg (by simp), ih, lookup_cons_ite]
      split <;> rfl
    · rw [List.filter_cons_of_pos (by simp [hother]), lookup_cons_ite, ih, lookup_cons_ite]
      by_cases h : name = other
      · subst h; simp [hother]
      · simp [h]

theorem mem_map_fst_iff {name : Text} {entries : List (Text × α)} :
    name ∈ entries.map (·.1) ↔ ∃ v, entries.lookup name = some v := by
  induction entries with
  | nil => simp
  | cons entry rest ih =>
    obtain ⟨other, old⟩ := entry
    rw [List.map_cons, List.mem_cons, lookup_cons_ite, ih]
    by_cases h : name = other <;> simp [h]

/-- Entries in increasing order are known by what they answer. -/
theorem eq_of_lookup_eq {entries others : List (Text × α)} (h : Increasing entries)
    (h' : Increasing others) (heq : ∀ name, entries.lookup name = others.lookup name) :
    entries = others := by
  induction entries generalizing others with
  | nil =>
    cases others with
    | nil => rfl
    | cons e rest =>
      have := heq e.1
      rw [lookup_cons_ite e.1 e.1 e.2 rest] at this
      simp at this
  | cons e rest ih =>
    obtain ⟨key, value⟩ := e
    cases others with
    | nil => simpa using heq key
    | cons e' rest' =>
      obtain ⟨key', value'⟩ := e'
      obtain ⟨hfirst, hrest⟩ := List.pairwise_cons.1 h
      obtain ⟨hfirst', hrest'⟩ := List.pairwise_cons.1 h'
      have absent : ∀ {name : Text} {es : List (Text × α)}, (∀ e ∈ es, name < e.1) →
          es.lookup name = none := by
        intro name es hes
        rw [← Option.not_isSome_iff_eq_none, Option.isSome_iff_exists, ← mem_map_fst_iff]
        intro hmem
        obtain ⟨e, he, rfl⟩ := List.mem_map.1 hmem
        exact List.lt_irrefl _ (hes e he)
      have hkey : key = key' := by
        rcases Classical.em (key = key') with hk | hk
        · exact hk
        · rcases Classical.em (key < key') with hlt | hlt
          · have hnone : ((key', value') :: rest').lookup key = none :=
              absent fun e he => by
                rcases List.mem_cons.1 he with rfl | he
                · exact hlt
                · exact List.lt_trans hlt (hfirst' e he)
            have := heq key
            rw [hnone] at this
            simp at this
          · have hnone : ((key, value) :: rest).lookup key' = none :=
              absent fun e he => by
                rcases List.mem_cons.1 he with rfl | he
                · exact text_lt_of_not hlt hk
                · exact List.lt_trans (text_lt_of_not hlt hk) (hfirst e he)
            have := heq key'
            rw [hnone] at this
            simp at this
      subst hkey
      have hvalue : value = value' := by simpa using heq key
      subst hvalue
      have htail : rest = rest' := ih hrest hrest' fun name => by
        have := heq name
        rw [lookup_cons_ite, lookup_cons_ite] at this
        by_cases hn : name = key
        · subst hn; rw [absent hfirst, absent hfirst']
        · simpa [hn] using this
      rw [htail]

/-- A finite map from names to values. -/
structure Table (α : Type) where
  /-- The bindings in the order of their names. -/
  entries : List (Text × α)
  increasing : Increasing entries

namespace Table

def empty : Table α :=
  ⟨[], List.Pairwise.nil⟩

instance : Inhabited (Table α) :=
  ⟨empty⟩

instance : EmptyCollection (Table α) :=
  ⟨empty⟩

def get? (t : Table α) (name : Text) : Option α :=
  t.entries.lookup name

def contains (t : Table α) (name : Text) : Bool :=
  (t.get? name).isSome

/-- The table with `name` bound to `value`, in place of an earlier binding. -/
def insert (t : Table α) (name : Text) (value : α) : Table α :=
  ⟨insertEntry name value t.entries, increasing_insertEntry name value t.increasing⟩

def erase (t : Table α) (name : Text) : Table α :=
  ⟨t.entries.filter (·.1 ≠ name), t.increasing.sublist List.filter_sublist⟩

/-- The table after binding each name of the list in turn. -/
def insertAll (t : Table α) (bindings : List (Text × α)) : Table α :=
  bindings.foldl (fun t (name, value) => t.insert name value) t

/-- The table of a list of bindings, where a later one replaces an earlier one. -/
def ofList (bindings : List (Text × α)) : Table α :=
  empty.insertAll bindings

/-- The bound names in increasing order. -/
def names (t : Table α) : List Text :=
  t.entries.map (·.1)

def size (t : Table α) : Nat :=
  t.entries.length

@[simp] theorem get?_empty (name : Text) : (empty : Table α).get? name = none := rfl

theorem get?_insert (t : Table α) (key name : Text) (value : α) :
    (t.insert key value).get? name = if name = key then some value else t.get? name :=
  lookup_insertEntry key name value t.entries

/-- Of several bindings of one name the last one counts. -/
theorem get?_insertAll (t : Table α) (bindings : List (Text × α)) (name : Text) :
    (t.insertAll bindings).get? name = (bindings.reverse.lookup name).or (t.get? name) := by
  induction bindings generalizing t with
  | nil => rfl
  | cons binding rest ih =>
    obtain ⟨key, value⟩ := binding
    rw [insertAll, List.foldl_cons, ← insertAll, ih, get?_insert, List.reverse_cons,
      List.lookup_append, lookup_cons_ite]
    cases rest.reverse.lookup name <;> by_cases h : name = key <;> simp [h]

/-- A list that binds a name to one value at most binds it to what its table answers. -/
theorem get?_ofList_iff {bindings : List (Text × α)} {name : Text} {value : α}
    (hone : ∀ v w, (name, v) ∈ bindings → (name, w) ∈ bindings → v = w) :
    (ofList bindings).get? name = some value ↔ (name, value) ∈ bindings := by
  have hget : (ofList bindings).get? name = bindings.reverse.lookup name := by
    rw [ofList, get?_insertAll, get?_empty, Option.or_none]
  have hmem : ∀ {found}, bindings.reverse.lookup name = some found → (name, found) ∈ bindings := by
    intro found hfound
    obtain ⟨before, after, hsplit, -⟩ := List.lookup_eq_some_iff.mp hfound
    rw [← List.mem_reverse, hsplit]
    exact List.mem_append_right before List.mem_cons_self
  rw [hget]
  constructor
  · exact hmem
  · intro hvalue
    have hname : name ∈ bindings.reverse.map (·.1) :=
      List.mem_map.mpr ⟨_, List.mem_reverse.mpr hvalue, rfl⟩
    obtain ⟨found, hfound⟩ := mem_map_fst_iff.mp hname
    rw [hfound, hone found value (hmem hfound) hvalue]

theorem get?_erase (t : Table α) (key name : Text) :
    (t.erase key).get? name = if name = key then none else t.get? name :=
  lookup_filter_ne key name t.entries

theorem mem_names_iff {t : Table α} {name : Text} : name ∈ t.names ↔ ∃ v, t.get? name = some v :=
  mem_map_fst_iff

/-- A table is known by what it answers. -/
theorem ext_get? {t u : Table α} (h : ∀ name, t.get? name = u.get? name) : t = u := by
  have := eq_of_lookup_eq t.increasing u.increasing h
  cases t; cases u; simp_all

end Table
end PageTemplates
