import PageTemplates.Store.Directory
import PageTemplates.Store.Memory

/-!
The order of listings.  Entries are put into a strict order, by path and with one path the
file before the directory, so a listing holds each of them once.  The listings of all
stores are in this order, also when some files cannot be read.
-/

namespace PageTemplates

namespace Entry

theorem Before.trans {a b c : Entry} (hab : a.Before b) (hbc : b.Before c) : a.Before c := by
  rcases hab with hlt | ⟨hsame, hfile, hdir⟩
  · rcases hbc with hlt' | ⟨hsame', -, -⟩
    · exact Or.inl (List.lt_trans hlt hlt')
    · exact Or.inl (hsame' ▸ hlt)
  · rcases hbc with hlt' | ⟨-, hfile', -⟩
    · exact Or.inl (hsame ▸ hlt')
    · rw [hdir] at hfile'
      cases hfile'

theorem before_trichotomy (a b : Entry) : a.Before b ∨ a = b ∨ b.Before a := by
  obtain ⟨path, isDir⟩ := a
  obtain ⟨path', isDir'⟩ := b
  rcases Std.lt_trichotomy path path' with hlt | rfl | hgt
  · exact Or.inl (Or.inl hlt)
  · cases isDir <;> cases isDir' <;> simp [Before]
  · exact Or.inr (Or.inr (Or.inl hgt))

theorem mem_insert_iff {e other : Entry} {entries : List Entry} :
    other ∈ insert e entries ↔ other = e ∨ other ∈ entries := by
  induction entries with
  | nil => simp [insert]
  | cons first rest ih =>
      rw [insert]
      split
      · exact List.mem_cons
      · split
        · next hsame => simp [hsame]
        · rw [List.mem_cons, ih, List.mem_cons, or_left_comm]

theorem pairwise_insert (e : Entry) {entries : List Entry} (h : entries.Pairwise Before) :
    (insert e entries).Pairwise Before := by
  induction entries with
  | nil => exact List.pairwise_singleton Before e
  | cons first rest ih =>
      obtain ⟨hfirst, hrest⟩ := List.pairwise_cons.mp h
      rw [insert]
      split
      · next hbefore =>
        refine List.pairwise_cons.mpr ⟨?_, h⟩
        intro other hother
        rcases List.mem_cons.mp hother with rfl | hother
        · exact hbefore
        · exact hbefore.trans (hfirst other hother)
      · next hnot =>
        split
        · exact h
        · next hne =>
          refine List.pairwise_cons.mpr ⟨?_, ih hrest⟩
          intro other hother
          rcases mem_insert_iff.mp hother with rfl | hother
          · exact ((before_trichotomy other first).resolve_left hnot).resolve_left hne
          · exact hfirst other hother

theorem pairwise_sorted (entries : List Entry) : (sorted entries).Pairwise Before := by
  induction entries with
  | nil => exact List.Pairwise.nil
  | cons e rest ih => exact pairwise_insert e ih

theorem mem_sorted_iff {e : Entry} {entries : List Entry} : e ∈ sorted entries ↔ e ∈ entries := by
  induction entries with
  | nil => exact Iff.rfl
  | cons first rest ih =>
      rw [sorted, List.foldr_cons, ← sorted, mem_insert_iff, ih, List.mem_cons]

theorem Before.ne {a b : Entry} (h : a.Before b) : a ≠ b := by
  rintro rfl
  rcases h with hlt | ⟨-, hfile, hdir⟩
  · exact List.lt_irrefl _ hlt
  · rw [hfile] at hdir
    cases hdir

/-- Entries in order stand there once each. -/
theorem nodup_of_pairwise {entries : List Entry} (h : entries.Pairwise Before) :
    entries.Nodup :=
  h.imp Before.ne

end Entry

/-! ## Stores -/

/-- Whether a store lists what it holds in order. -/
def Store.Ordered (store : Store) : Prop :=
  ∀ entries, store.list = .ok entries → entries.Pairwise Entry.Before

theorem Memory.ordered (m : Memory) : m.store.Ordered := by
  intro entries hlist
  obtain rfl := Except.ok.inj hlist
  exact Entry.pairwise_sorted _

theorem Directory.ordered (d : Directory) : d.store.Ordered := by
  intro entries hlist
  change d.list = .ok entries at hlist
  unfold list at hlist
  split at hlist
  · cases hlist
  · dsimp only at hlist
    split at hlist
    · cases hlist
    · obtain rfl := Except.ok.inj hlist
      exact Entry.pairwise_sorted _

theorem Store.Ordered.withFaults {store : Store} (h : store.Ordered) (faults : Table String)
    (listFault : Option String) : (store.withFaults faults listFault).Ordered := by
  intro entries hlist
  cases listFault with
  | some reason => cases hlist
  | none => exact h entries hlist

/-- The files of a listing in order have increasing paths. -/
theorem Entry.pairwise_path_lt {entries : List Entry} (h : entries.Pairwise Before)
    (hfiles : ∀ e ∈ entries, e.isDir = false) :
    (entries.map (·.path)).Pairwise (· < ·) := by
  rw [List.pairwise_map]
  refine h.imp_of_mem ?_
  rintro a b - hb (hlt | ⟨-, -, hdir⟩)
  · exact hlt
  · rw [hfiles b hb] at hdir
    cases hdir

end PageTemplates
