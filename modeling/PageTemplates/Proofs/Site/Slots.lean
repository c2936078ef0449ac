import Mathlib.Data.Finset.Card
import PageTemplates.Site.Cache

/-!
What a cache answers after a slot was reserved or filled, what its size counts, and
how the pages in it are told apart.
-/

namespace PageTemplates

namespace Table

variable {α : Type}

theorem mem_entries_iff {t : Table α} {name : Text} {value : α} :
    (name, value) ∈ t.entries ↔ t.get? name = some value := by
  have hincreasing := t.increasing
  unfold get?
  generalize t.entries = entries at hincreasing
  induction entries with
  | nil => simp
  | cons entry rest ih =>
      obtain ⟨hfirst, hrest⟩ := List.pairwise_cons.mp hincreasing
      have hmem : (name, value) ∈ rest ↔ rest.lookup name = some value := ih hrest
      rw [lookup_cons_ite, List.mem_cons, hmem]
      by_cases hname : name = entry.1
      · subst hname
        have hlater : rest.lookup entry.1 ≠ some value := by
          intro hlookup
          have hlt := hfirst (entry.1, value) (hmem.mpr hlookup)
          exact List.lt_irrefl entry.1 hlt
        simp [hlater, Prod.ext_iff, eq_comm]
      · simp [hname, Prod.ext_iff]

theorem names_nodup (t : Table α) : t.names.Nodup := by
  have hne : ∀ {a b : Text × α}, a.1 < b.1 → a.1 ≠ b.1 := by
    intro a b hlt heq
    rw [heq] at hlt
    exact List.lt_irrefl _ hlt
  rw [names, List.Nodup, List.pairwise_map]
  exact t.increasing.imp hne

end Table

namespace Site.Cache

theorem find?_empty (name : Text) : empty.find? name = none := rfl

theorem get?_fill (cache : Cache) (name other : Text) (page : Compiled) :
    (cache.fill name page).slots.get? other =
      if other = name then some (some page) else cache.slots.get? other :=
  cache.slots.get?_insert name other (some page)

theorem find?_fill (cache : Cache) (name other : Text) (page : Compiled) :
    (cache.fill name page).find? other =
      if other = name then some page else cache.find? other := by
  rw [find?, get?_fill]
  split <;> rfl

/-- A reserved slot has the page that was there, if there was one. -/
theorem get?_reserve (cache : Cache) (name other : Text) :
    (cache.reserve name).slots.get? other =
      if other = name then some (cache.find? name) else cache.slots.get? other := by
  unfold reserve
  cases hget : cache.slots.get? name with
  | none =>
      have hfind : cache.find? name = none := by rw [find?, hget, Option.join_none]
      rw [Table.contains, hget, if_neg (by simp), Table.get?_insert, hfind]
  | some content =>
      have hfind : cache.find? name = content := by rw [find?, hget, Option.join_some]
      rw [Table.contains, hget, if_pos (by simp), hfind]
      split
      · next hother => rw [hother, hget]
      · rfl

/-- An empty slot is not seen. -/
theorem find?_reserve (cache : Cache) (name other : Text) :
    (cache.reserve name).find? other = cache.find? other := by
  rw [find?, get?_reserve]
  split
  · next hother => rw [hother, Option.join_some]
  · rfl

/-- The names of the full slots. -/
def fullNames (cache : Cache) : List Text :=
  (cache.slots.entries.filter (·.2.isSome)).map (·.1)

theorem mem_fullNames_iff {cache : Cache} {name : Text} :
    name ∈ cache.fullNames ↔ ∃ page, cache.find? name = some page := by
  simp only [fullNames, List.mem_map, List.mem_filter, find?, Option.join_eq_some_iff]
  constructor
  · rintro ⟨⟨found, content⟩, ⟨hentry, hfull⟩, rfl⟩
    obtain ⟨page, rfl⟩ := Option.isSome_iff_exists.mp hfull
    exact ⟨page, Table.mem_entries_iff.mp hentry⟩
  · rintro ⟨page, hpage⟩
    exact ⟨(name, some page), ⟨Table.mem_entries_iff.mpr hpage, rfl⟩, rfl⟩

/-- The size of a cache is the number of names under which it has a page. -/
theorem size_eq_card {cache : Cache} {names : Finset Text}
    (hnames : ∀ name, name ∈ names ↔ ∃ page, cache.find? name = some page) :
    cache.size = names.card := by
  have hnodup : cache.fullNames.Nodup :=
    cache.slots.names_nodup.sublist (List.filter_sublist.map _)
  have hsame : names = cache.fullNames.toFinset := by
    ext name
    rw [hnames, List.mem_toFinset, mem_fullNames_iff]
  rw [hsame, List.toFinset_card_of_nodup hnodup, fullNames, List.length_map, size,
    List.countP_eq_length_filter]

end Site.Cache

namespace Site

/-- Pages by name, each with a number of its own that was given before. -/
structure Numbered (pages : Text → Option Compiled) (compiled : Nat) : Prop where
  below : ∀ name page, pages name = some page → page.serial < compiled
  distinct : ∀ name name' page page', pages name = some page →
    pages name' = some page' → page.serial = page'.serial → name = name'

theorem Numbered.of_eq_none {pages : Text → Option Compiled} {compiled : Nat}
    (hnone : ∀ name, pages name = none) : Numbered pages compiled := by
  constructor
  · intro name page hpage
    rw [hnone] at hpage
    cases hpage
  · intro name name' page page' hpage
    rw [hnone] at hpage
    cases hpage

theorem Numbered.congr {pages pages' : Text → Option Compiled} {compiled : Nat}
    (h : Numbered pages compiled) (heq : ∀ name, pages' name = pages name) :
    Numbered pages' compiled := by
  have hsame : pages' = pages := funext heq
  rw [hsame]
  exact h

/-- The next page gets the next number. -/
theorem Numbered.fill {pages pages' : Text → Option Compiled} {compiled : Nat}
    (h : Numbered pages compiled) {name : Text} {view : Template.Namespace}
    (hfill : ∀ other, pages' other =
      if other = name then some ⟨compiled, view⟩ else pages other) :
    Numbered pages' (compiled + 1) := by
  constructor
  · intro other page hpage
    rw [hfill] at hpage
    split at hpage
    · obtain rfl := Option.some.inj hpage
      exact Nat.lt_succ_self _
    · exact Nat.lt_succ_of_lt (h.below other page hpage)
  · intro other other' page page' hpage hpage' hserial
    rw [hfill] at hpage hpage'
    -- an earlier page has a smaller number than the new one
    split at hpage <;> split at hpage'
    · next hother hother' => exact hother.trans hother'.symm
    · obtain rfl := Option.some.inj hpage
      exact absurd hserial.symm (Nat.ne_of_lt (h.below other' page' hpage'))
    · obtain rfl := Option.some.inj hpage'
      exact absurd hserial (Nat.ne_of_lt (h.below other page hpage))
    · exact h.distinct other other' page page' hpage hpage' hserial

end Site
end PageTemplates
