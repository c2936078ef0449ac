import PageTemplates.Proofs.Store.Holding

/-!
What a directory store can read.  Whatever the path is, only files below the root are read, and
what lies outside the root makes no difference; a path with a double dot is refused before
anything is looked at.
-/

namespace PageTemplates

open Utf8 (Bytes)

namespace Directory

theorem read_of_up {d : Directory} {path : Text}
    (hup : Path.up ∈ Text.pieces '/' (Store.belowTop path)) :
    d.read path = .error (.notFound path) := by
  unfold read
  rw [if_pos hup]

/-- The content that is read is that of a file below the root, under the names of the path. -/
theorem exists_mem_files_of_read {d : Directory} {path : Text} {content : Bytes}
    (hread : d.read path = .ok content) :
    ∃ entries, d.disk.follow d.rootPath = .ok (.dir entries) ∧
      Path.BelowRoot (Path.names (Store.belowTop path)) ∧
        (Path.names (Store.belowTop path), content) ∈ (Tree.dir entries).files := by
  by_cases hup : Path.up ∈ Text.pieces '/' (Store.belowTop path)
  · rw [read_of_up hup] at hread
    cases hread
  · have hnames : Path.names (Store.belowTop path) =
        Path.resolve false (Text.pieces '/' (Store.belowTop path)) := by
      rw [Path.names, isRooted_belowTop]
    have hfollow : d.disk.follow (Path.continued d.rootPath (Store.belowTop path)) =
        .ok (.file content) := by
      simp only [read, if_neg hup, Tree.read] at hread
      cases hfollow : d.disk.follow (Path.continued d.rootPath (Store.belowTop path)) with
      | error fault =>
          rw [hfollow] at hread
          cases fault <;> cases hread
      | ok found =>
          rw [hfollow] at hread
          cases found with
          | file found => rw [Except.ok.inj hread]
          | dir entries => cases hread
    obtain ⟨entries, hroot, hfind⟩ :=
      Tree.exists_dir_of_follow_continued (isRooted_belowTop path) hup hfollow
    refine ⟨entries, hroot, ⟨?_, fun name => Path.slash_not_mem_of_mem_names⟩, ?_⟩
    · rw [hnames, Path.resolve_of_up_not_mem false hup]
      intro name hname
      exact of_decide_eq_true (List.mem_filter.mp hname).2
    · rw [hnames]
      exact Tree.mem_files_of_find hup hfind

/-- Two file systems with the same root directory answer alike, whatever else is in them. -/
theorem read_congr_root {d : Directory} {disk top : Tree} (path : Text)
    (hroot : d.disk.follow d.rootPath = .ok top) (hother : disk.follow d.rootPath = .ok top) :
    Directory.read { d with disk } path = d.read path := by
  by_cases hup : Path.up ∈ Text.pieces '/' (Store.belowTop path)
  · rw [read_of_up hup, read_of_up hup]
  · have hsame : Directory.rootPath { d with disk } = d.rootPath := rfl
    rw [read_eq hroot hup, read_eq (hsame ▸ hother) hup]
    rfl

/-- Reading never leaves the root.  A content that is read is that of a file below the root
directory, what lies outside it makes no difference, and a path with a double dot behind the
slashes in front of it is not found, whatever the file system holds. -/
theorem read_confined (d : Directory) (path : Text) :
    (∀ content, d.read path = .ok content →
        ∃ entries, d.disk.follow d.rootPath = .ok (.dir entries) ∧
          Path.BelowRoot (Path.names (Store.belowTop path)) ∧
            (Path.names (Store.belowTop path), content) ∈ (Tree.dir entries).files) ∧
      (∀ disk top, d.disk.follow d.rootPath = .ok top → disk.follow d.rootPath = .ok top →
        Directory.read { d with disk } path = d.read path) ∧
      (Path.up ∈ Text.pieces '/' (Store.belowTop path) →
        ∀ disk, Directory.read { d with disk } path = .error (.notFound path)) :=
  ⟨fun _ hread => exists_mem_files_of_read hread,
    fun _ _ hroot hother => read_congr_root path hroot hother,
    fun hup _ => read_of_up hup⟩

/-- A page two directories below the top, and a file beside the root that a double dot would lead
to. -/
theorem read_confined_detour :
    let page := Utf8.encode "page".toList
    let top := Tree.dir [("a".toList, .dir [("page.html".toList, .file page)])]
    let disk := Tree.dir [("srv".toList,
      .dir [("secret".toList, .file (Utf8.encode "secret".toList)), ("templates".toList, top)])]
    let bare := Tree.dir [("srv".toList, .dir [("templates".toList, top)])]
    let d : Directory := ⟨disk, "/srv".toList, some "templates".toList⟩
    disk.read "/srv/templates/../secret".toList = .ok (Utf8.encode "secret".toList) ∧
      d.read "//a/.//page.html".toList = .ok page ∧
      Path.names (Store.belowTop "//a/.//page.html".toList) = ["a".toList, "page.html".toList] ∧
      (["a".toList, "page.html".toList], page) ∈ top.files ∧
      Directory.read { d with disk := bare } "//a/.//page.html".toList = .ok page ∧
      d.read "/../secret".toList = .error (.notFound "/../secret".toList) := by
  intro page top disk bare d
  have hread : d.read "//a/.//page.html".toList = .ok page := by decide +kernel
  have hroot : d.disk.follow d.rootPath = .ok top := by rfl
  have hbare : bare.follow d.rootPath = .ok top := by rfl
  obtain ⟨hfile, hsame, -⟩ := read_confined d "//a/.//page.html".toList
  obtain ⟨-, -, hrefused⟩ := read_confined d "/../secret".toList
  obtain ⟨entries, hentries, -, hmem⟩ := hfile page hread
  rw [hroot] at hentries
  refine ⟨by decide +kernel, hread, by decide +kernel, ?_, (hsame bare top hroot hbare).trans hread,
    hrefused (by decide +kernel) disk⟩
  rw [Except.ok.inj hentries]
  exact hmem

end Directory
end PageTemplates
