import PageTemplates.Proofs.Store.Holding
import PageTemplates.Proofs.Store.Listing

/-!
Histories of a memory.  After any insertions and removals a file is there just when the
last change of it was an insertion, with the content of that one.  The listing shows
these files, and before each slash of their paths a directory.
-/

namespace PageTemplates.Memory

open Utf8 (Bytes)

/-- A change to the files of a memory. -/
inductive Change where
  | insert (path : Text) (content : Bytes)
  | remove (path : Text)

namespace Change

/-- The file that a change is about: slashes in front of a path do not count. -/
def file : Change → Text
  | insert path _ | remove path => Store.belowTop path

/-- What a change leaves in its file; nothing when it takes the file away. -/
def content? : Change → Option Bytes
  | insert _ content => some content
  | remove _ => none

end Change

def change (m : Memory) : Change → Memory
  | .insert path content => m.insert path content
  | .remove path => m.remove path

/-- The memory after some changes, first to last. -/
def after (changes : List Change) : Memory :=
  changes.foldl change empty

/-- Whether some changes leave a file with some content: it was inserted with that content, and no later
change is about it. -/
def Leaves (changes : List Change) (file : Text) (content : Bytes) : Prop :=
  ∃ earlier path later, changes = earlier ++ .insert path content :: later ∧
    Store.belowTop path = file ∧ ∀ change ∈ later, change.file ≠ file

variable {changes : List Change} {file : Text} {content : Bytes}

/-! ## One change -/

theorem get?_change (m : Memory) (c : Change) (file : Text) :
    (m.change c).files.get? file = if file = c.file then c.content? else m.files.get? file := by
  cases c with
  | insert path content => exact Table.get?_insert m.files (Store.belowTop path) file content
  | remove path => exact Table.get?_erase m.files (Store.belowTop path) file

theorem not_leaves_nil : ¬ Leaves [] file content := by
  rintro ⟨earlier, path, later, hnil, -⟩
  simp at hnil

/-- Either the last change put the content there, or it is about another file. -/
theorem Leaves.last_or_earlier {c : Change} (h : Leaves (changes ++ [c]) file content) :
    (file = c.file ∧ c.content? = some content) ∨ (file ≠ c.file ∧ Leaves changes file content) := by
  obtain ⟨earlier, path, later, hsplit, hpath, hlater⟩ := h
  rcases List.eq_nil_or_concat later with rfl | ⟨front, last, rfl⟩
  · obtain ⟨-, hlast⟩ := List.append_inj' hsplit rfl
    rw [(List.cons.inj hlast).1]
    exact .inl ⟨hpath.symm, rfl⟩
  · rw [List.concat_eq_append] at hlater hsplit
    rw [← List.cons_append, ← List.append_assoc] at hsplit
    obtain ⟨hsplit, hlast⟩ := List.append_inj' hsplit rfl
    obtain ⟨hfront, hother⟩ := List.forall_mem_append.mp hlater
    rw [← (List.cons.inj hlast).1, List.forall_mem_singleton] at hother
    exact .inr ⟨Ne.symm hother, earlier, path, front, hsplit, hpath, hfront⟩

/-- The last change decides about its file, and about no other. -/
theorem leaves_concat_iff {c : Change} : Leaves (changes ++ [c]) file content ↔
    if file = c.file then c.content? = some content else Leaves changes file content := by
  constructor
  · intro h
    rcases h.last_or_earlier with ⟨hfile, hcontent⟩ | ⟨hfile, hearlier⟩
    · rwa [if_pos hfile]
    · rwa [if_neg hfile]
  · split
    · next hfile =>
      intro hcontent
      cases c with
      | insert path inserted =>
        obtain rfl := Option.some.inj hcontent
        exact ⟨changes, path, [], rfl, hfile.symm, List.forall_mem_nil _⟩
      | remove path => cases hcontent
    · next hfile =>
      rintro ⟨earlier, path, later, rfl, hpath, hlater⟩
      refine ⟨earlier, path, later ++ [c], by simp, hpath, ?_⟩
      exact List.forall_mem_append.mpr ⟨hlater, List.forall_mem_singleton.mpr (Ne.symm hfile)⟩

/-! ## All changes -/

theorem get?_after (changes : List Change) (file : Text) (content : Bytes) :
    (after changes).files.get? file = some content ↔ Leaves changes file content := by
  induction changes using List.reverseRecOn with
  | nil => exact iff_of_false (by simp [after, empty]) not_leaves_nil
  | append_singleton changes c ih =>
      rw [after, List.foldl_concat, ← after, get?_change, leaves_concat_iff]
      split
      · exact Iff.rfl
      · exact ih

/-! ## What a listing shows -/

/-- The directories of a path are what stands before its slashes. -/
theorem mem_directories_iff {dir path : Text} :
    dir ∈ directories path ↔ dir ++ ['/'] <+: path := by
  induction path generalizing dir with
  | nil => simp [directories]
  | cons c rest ih =>
      rw [directories, List.mem_append, List.mem_map]
      cases dir with
      | nil =>
          by_cases hc : c = '/'
          · simp [hc]
          · simp [hc, Ne.symm hc]
      | cons first others =>
          have hnot : first :: others ∉ if c = '/' then [([] : Text)] else [] := by
            split <;> simp
          rw [List.cons_append, List.cons_prefix_cons, ← ih]
          simp [hnot, and_comm, eq_comm]

theorem mem_list_iff {m : Memory} {e : Entry} : e ∈ m.list ↔
    ∃ file ∈ m.files.names, e = ⟨file, false⟩ ∨ ∃ dir, dir ++ ['/'] <+: file ∧ e = ⟨dir, true⟩ := by
  simp only [list, Entry.mem_sorted_iff, List.mem_flatMap, List.mem_cons, List.mem_map,
    mem_directories_iff, eq_comm]

theorem file_mem_list_iff {m : Memory} :
    ⟨file, false⟩ ∈ m.list ↔ ∃ content, m.files.get? file = some content := by
  rw [mem_list_iff, ← Table.mem_names_iff]
  simp

theorem dir_mem_list_iff {m : Memory} {dir : Text} : ⟨dir, true⟩ ∈ m.list ↔
    ∃ file content, m.files.get? file = some content ∧ dir ++ ['/'] <+: file := by
  simp only [mem_list_iff, Table.mem_names_iff]
  simp

/-! ## Reading and listing -/

/-- After any changes a file is read as they leave it, and one that they do not leave is not found.  The
listing holds, in strict order and so each once, the files that the changes leave and the directories
that these lie in; what can be read is what it lists as files. -/
theorem read_list_after (changes : List Change) :
    let store := (after changes).store
    (∀ path content, store.read path = .ok content ↔
        Leaves changes (Store.belowTop path) content) ∧
      (∀ path e, store.read path = .error e ↔
        e = .notFound path ∧ ∀ content, ¬ Leaves changes (Store.belowTop path) content) ∧
      ∃ entries, store.list = .ok entries ∧ entries.Pairwise Entry.Before ∧ entries.Nodup ∧
        (∀ file, ⟨file, false⟩ ∈ entries ↔ ∃ content, Leaves changes file content) ∧
        (∀ dir, ⟨dir, true⟩ ∈ entries ↔
          ∃ file content, Leaves changes file content ∧ dir ++ ['/'] <+: file) ∧
        ∀ path, (∃ content, store.read path = .ok content) ↔
          ⟨Store.belowTop path, false⟩ ∈ entries := by
  have hread : ∀ path content, (after changes).store.read path = .ok content ↔
      Leaves changes (Store.belowTop path) content := fun path content =>
    read_eq_ok_iff.trans (get?_after changes (Store.belowTop path) content)
  have hordered : (after changes).list.Pairwise Entry.Before := (after changes).ordered _ rfl
  refine ⟨hread, fun path e => ?_, (after changes).list, rfl, hordered,
    Entry.nodup_of_pairwise hordered, fun file => ?_, fun dir => ?_, fun path => ?_⟩
  · constructor
    · intro he
      refine ⟨error_of_read he, fun content hleaves => ?_⟩
      rw [(hread path content).mpr hleaves] at he
      cases he
    · rintro ⟨rfl, hnone⟩
      cases hresult : (after changes).store.read path with
      | ok content => exact absurd ((hread path content).mp hresult) (hnone content)
      | error e => rw [error_of_read hresult]
  · simp only [file_mem_list_iff, get?_after]
  · simp only [dir_mem_list_iff, get?_after]
  · simp only [hread, file_mem_list_iff, get?_after]

example : (after [.insert "/a//b".toList [1], .insert "a".toList [], .remove "//a//b".toList,
    .insert "a//b".toList [2]]).list =
      [⟨"a".toList, false⟩, ⟨"a".toList, true⟩, ⟨"a/".toList, true⟩, ⟨"a//b".toList, false⟩] := by
  decide

end PageTemplates.Memory
