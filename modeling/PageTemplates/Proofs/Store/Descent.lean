import PageTemplates.Proofs.Except
import PageTemplates.Proofs.Path.Names
import PageTemplates.Store.Directory

/-!
Going down in a tree of files.  Names without a double dot lead to the same place from
wherever the tree stands, a path that goes on from a directory leads to what its own names
lead to in that directory, and so a directory store reads what lies in its root.
-/

namespace PageTemplates

namespace Tree

/-- Whatever does not go up does not depend on the directories around. -/
theorem findFrom_eq_find {names : List Text} (hnames : Path.up ∉ names) (around : List Tree)
    (t : Tree) : findFrom around t names = t.find names := by
  have hany : ∀ (names : List Text) (around other : List Tree) (t : Tree), Path.up ∉ names →
      findFrom around t names = findFrom other t names := by
    intro names
    induction names with
    | nil => intros; rw [findFrom, findFrom]
    | cons name rest ih =>
        intro around other t hnames
        obtain ⟨hname, hrest⟩ := List.ne_and_not_mem_of_not_mem_cons hnames
        cases t with
        | file content => rfl
        | dir entries =>
            rw [findFrom.eq_def, findFrom.eq_def other]
            simp only [if_neg (Ne.symm hname)]
            split
            · exact ih around other _ hrest
            · cases entries.lookup name with
              | none => rfl
              | some t => simp only [ih (dir entries :: around) (dir entries :: other) t hrest]
  exact hany names around [] t hnames

theorem find_nil (t : Tree) : t.find [] = .ok t := by
  rw [find, findFrom]

theorem find_file_cons (content : Utf8.Bytes) (name : Text) (rest : List Text) :
    (file content).find (name :: rest) = .error .notDirectory := rfl

theorem find_append (t : Tree) (first : List Text) {second : List Text}
    (hsecond : Path.up ∉ second) :
    t.find (first ++ second) = (t.find first).bind (·.find second) := by
  have hany : ∀ (first : List Text) (around : List Tree) (t : Tree),
      findFrom around t (first ++ second) =
        (findFrom around t first).bind (·.find second) := by
    intro first
    induction first with
    | nil =>
        intro around t
        rw [List.nil_append, findFrom_eq_find hsecond, findFrom]
        rfl
    | cons name rest ih =>
        intro around t
        cases t with
        | file content => rfl
        | dir entries =>
            rw [List.cons_append, findFrom.eq_def, findFrom.eq_def around]
            dsimp only
            split
            · exact ih around _
            · split
              · cases around with
                | nil => exact ih [] _
                | cons outer around => exact ih around outer
              · split
                · rfl
                · cases entries.lookup name with
                  | none => rfl
                  | some t => exact ih (dir entries :: around) t
  exact hany first [] t

/-- One ordinary name leads to the entry of that name. -/
theorem find_dir_cons {name : Text} {rest : List Text} (entries : List (Text × Tree))
    (hname : Path.Ordinary name) (hrest : Path.up ∉ rest) :
    (dir entries).find (name :: rest) =
      if maxName < (Utf8.encode name).length then .error .nameTooLong
      else match entries.lookup name with
        | some t => t.find rest
        | none => .error .missing := by
  obtain ⟨hempty, hhere, hup⟩ := hname
  have hstay : isStay name = false := by
    rw [isStay, Bool.or_eq_false_iff, beq_eq_false_iff_ne, beq_eq_false_iff_ne]
    exact ⟨hempty, hhere⟩
  rw [find, findFrom.eq_def]
  simp only [if_neg (Bool.eq_false_iff.mp hstay), if_neg hup]
  cases entries.lookup name with
  | none => rfl
  | some t => simp only [findFrom_eq_find hrest]

/-- What stands before other names on the way to something is a directory. -/
theorem exists_dir_of_find_append {t found : Tree} {first second : List Text}
    (hsecond : Path.up ∉ second) (hne : second ≠ [])
    (hfound : t.find (first ++ second) = .ok found) :
    ∃ entries, t.find first = .ok (dir entries) ∧ (dir entries).find second = .ok found := by
  rw [find_append t first hsecond, Except.bind_eq_ok_iff] at hfound
  obtain ⟨there, hthere, hfound⟩ := hfound
  obtain ⟨name, rest, rfl⟩ := List.exists_cons_of_ne_nil hne
  cases there with
  | file content =>
      rw [find_file_cons] at hfound
      cases hfound
  | dir entries => exact ⟨entries, hthere, hfound⟩

/-- In a directory there is something of a name, or nothing. -/
theorem missing_of_find_concat {t : Tree} {names : List Text} {entries : List (Text × Tree)}
    (hthere : t.find names = .ok (dir entries)) {name : Text} (hname : Path.Ordinary name)
    (hshort : (Utf8.encode name).length ≤ maxName) {fault : TreeFault}
    (hfault : t.find (names ++ [name]) = .error fault) : fault = .missing := by
  have hup : Path.up ∉ [name] := fun hup => hname.2.2 (List.mem_singleton.mp hup).symm
  rw [find_append t names hup, hthere] at hfault
  change (dir entries).find [name] = .error fault at hfault
  rw [find_dir_cons entries hname List.not_mem_nil, if_neg (Nat.not_lt.mpr hshort)] at hfault
  cases hentry : entries.lookup name with
  | none =>
      rw [hentry] at hfault
      exact (Except.error.inj hfault).symm
  | some t =>
      simp only [hentry, find_nil] at hfault
      cases hfault

/-- A slash at the end asks for a directory and leads no further. -/
theorem find_of_find_concat_nil {t found : Tree} {names : List Text}
    (hfound : t.find (names ++ [[]]) = .ok found) : t.find names = .ok found := by
  obtain ⟨entries, hthere, hstay⟩ :=
    exists_dir_of_find_append (by decide) (List.cons_ne_nil [] []) hfound
  rw [hthere]
  exact hstay

theorem find_of_follow {t found : Tree} {path : Text} (hfound : t.follow path = .ok found) :
    t.find (Text.pieces '/' path) = .ok found := by
  unfold follow at hfound
  cases hfault : pathFault? path with
  | some fault =>
      rw [hfault] at hfound
      cases hfound
  | none =>
      rw [hfault] at hfound
      exact hfound

/-- The system never calls a path missing before it has looked. -/
theorem pathFault?_ne_missing (path : Text) : pathFault? path ≠ some .missing := by
  unfold pathFault?
  split
  · exact nofun
  · split <;> exact nofun

/-- A path that goes on from a directory, when the system takes it at all. -/
theorem follow_continued {t top : Tree} {base below : Text} (hbase : t.follow base = .ok top)
    (hbelow : Path.isRooted below = false)
    (hup : Path.up ∉ Text.pieces '/' below) :
    t.follow (Path.continued base below) =
      match pathFault? (Path.continued base below) with
      | some fault => .error fault
      | none => top.find (Text.pieces '/' below) := by
  have hfound := find_of_follow hbase
  have hsame : t.find (Text.pieces '/' (Path.continued base below)) =
      top.find (Text.pieces '/' below) := by
    rw [Path.continued, if_neg (Bool.eq_false_iff.mp hbelow)]
    split
    · next hslash =>
      -- The base ends with a slash of its own, which is the one between the two.
      obtain ⟨start, rfl⟩ := List.getLast?_eq_some_iff.mp (beq_iff_eq.mp hslash)
      rw [Text.pieces_append_cons] at hfound
      rw [List.append_assoc, List.singleton_append, Text.pieces_append_cons,
        find_append t _ hup, find_of_find_concat_nil hfound]
      rfl
    · rw [Text.pieces_append_cons, find_append t _ hup, hfound]
      rfl
  unfold follow
  cases pathFault? (Path.continued base below) with
  | some fault => rfl
  | none => exact hsame

/-- A path that the system takes goes on from one that it takes. -/
theorem pathFault?_append {base rest : Text} (h : pathFault? (base ++ rest) = none) :
    pathFault? base = none := by
  unfold pathFault? at h ⊢
  split at h
  · cases h
  · next hnul =>
    split at h
    · cases h
    · next hlength =>
      rw [Utf8.encode_append, List.length_append] at hlength
      rw [List.contains_append, Bool.or_eq_true, not_or] at hnul
      rw [if_neg hnul.1, if_neg (by omega)]

/-- Where a path goes on to something, it goes on from a directory. -/
theorem exists_dir_of_follow_continued {t found : Tree} {base below : Text}
    (hbelow : Path.isRooted below = false) (hup : Path.up ∉ Text.pieces '/' below)
    (hfound : t.follow (Path.continued base below) = .ok found) :
    ∃ entries, t.follow base = .ok (dir entries) ∧
      (dir entries).find (Text.pieces '/' below) = .ok found := by
  have hfind := find_of_follow hfound
  have hfault : pathFault? (Path.continued base below) = none := by
    unfold follow at hfound
    split at hfound
    · cases hfound
    · next hnone => exact hnone
  rw [Path.continued, if_neg (Bool.eq_false_iff.mp hbelow)] at hfind hfault
  unfold follow
  split at hfind
  · next hslash =>
    rw [if_pos hslash] at hfault
    obtain ⟨start, rfl⟩ := List.getLast?_eq_some_iff.mp (beq_iff_eq.mp hslash)
    rw [List.append_assoc, List.singleton_append, Text.pieces_append_cons] at hfind
    obtain ⟨entries, hentries, hfind⟩ :=
      exists_dir_of_find_append hup (Text.pieces_ne_nil '/' below) hfind
    refine ⟨entries, ?_, hfind⟩
    -- The slash at the end of the base asks for the directory that is there.
    rw [pathFault?_append hfault, Text.pieces_append_cons, find_append t _ (by decide), hentries]
    rfl
  · next hslash =>
    rw [if_neg hslash] at hfault
    rw [Text.pieces_append_cons] at hfind
    obtain ⟨entries, hentries, hfind⟩ :=
      exists_dir_of_find_append hup (Text.pieces_ne_nil '/' below) hfind
    refine ⟨entries, ?_, hfind⟩
    rw [pathFault?_append hfault]
    exact hentries

end Tree

namespace Directory

/-- The path of a file of the store in the whole file system. -/
def wholePath (d : Directory) (path : Text) : Text :=
  Path.continued d.rootPath (Store.belowTop path)

theorem isRooted_belowTop (path : Text) : Path.isRooted (Store.belowTop path) = false := by
  rw [Path.isRooted, Bool.eq_false_iff]
  intro hhead
  have hnot := List.head?_dropWhile_not (· == '/') path
  rw [← Store.belowTop, beq_iff_eq.mp hhead] at hnot
  cases hnot

/-- A file is read where its names lead in the root of the store. -/
theorem read_eq {d : Directory} {top : Tree} (htop : d.disk.follow d.rootPath = .ok top)
    {path : Text} (hup : Path.up ∉ Text.pieces '/' (Store.belowTop path)) :
    d.read path =
      match Tree.pathFault? (d.wholePath path) with
      | some fault => .error (.io path fault.message)
      | none =>
        match top.find (Text.pieces '/' (Store.belowTop path)) with
        | .ok (.file content) => .ok content
        | .ok (.dir _) => .error (.io path TreeFault.isDirectory.message)
        | .error .missing => .error (.notFound path)
        | .error fault => .error (.io path fault.message) := by
  have hfollow := Tree.follow_continued htop (isRooted_belowTop path) hup
  unfold read
  simp only [if_neg hup, Tree.read]
  rw [wholePath, hfollow]
  cases hfault : Tree.pathFault? (Path.continued d.rootPath (Store.belowTop path)) with
  | some fault =>
      cases fault with
      | missing => exact absurd hfault (Tree.pathFault?_ne_missing _)
      | notDirectory | isDirectory | nameTooLong | nulByte => rfl
  | none =>
      dsimp only
      cases top.find (Text.pieces '/' (Store.belowTop path)) with
      | error fault => cases fault <;> rfl
      | ok found => cases found <;> rfl

end Directory
end PageTemplates
