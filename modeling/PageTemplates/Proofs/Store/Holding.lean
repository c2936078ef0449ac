import PageTemplates.Proofs.Path.Names
import PageTemplates.Proofs.Store.Descent
import PageTemplates.Store.Memory

/-!
Directories that hold the files of a memory.  Every tree of well-named files is held by
the memory of the files in it.  A file is the same in both, and what is missing in memory
is missing on disk too, unless a directory is there or a file stands in the way to it.
-/

namespace PageTemplates

open Utf8 (Bytes)

/-- Whether a directory store holds exactly the files of a memory, `top` being what lies in its root.
The paths of the files are made of ordinary names, and each leads to its file; there may be further
directories with nothing in them. -/
structure Directory.Holds (d : Directory) (top : Tree) (m : Memory) : Prop where
  root : d.disk.follow d.rootPath = .ok top
  ordinary : ∀ path ∈ m.files.names, ∀ name ∈ Text.pieces '/' path, Path.Ordinary name
  same : ∀ names, Path.BelowRoot names → ∀ content,
    top.find names = .ok (.file content) ↔
      m.files.get? (Text.joined ['/'] names) = some content

/-- Whether nothing keeps the store from an answer about the file with this path: the system takes the
path, and no directory is there in place of the file. -/
def Directory.Clear (d : Directory) (top : Tree) (path : Text) : Prop :=
  Tree.pathFault? (d.wholePath path) = none ∧
    (top.find (Text.pieces '/' (Store.belowTop path))).toOption.any Tree.isDir = false

instance (d : Directory) (top : Tree) (path : Text) : Decidable (d.Clear top path) :=
  inferInstanceAs (Decidable (_ ∧ _))

/-! ## The files of a tree -/

namespace Tree

mutual
/-- The files in a tree, each with the names on the way to it. -/
def files : Tree → List (List Text × Bytes)
  | file content => [([], content)]
  | dir entries => filesOf entries
termination_by structural t => t

def filesOf : List (Text × Tree) → List (List Text × Bytes)
  | [] => []
  | (name, t) :: rest =>
    t.files.map (fun (names, content) => (name :: names, content)) ++ filesOf rest
termination_by structural entries => entries
end

mutual
/-- Whether the names in each directory of a tree are such as a system takes, and differ. -/
def wellNamed : Tree → Bool
  | file _ => true
  | dir entries => wellNamedOf entries
termination_by structural t => t

def wellNamedOf : List (Text × Tree) → Bool
  | [] => true
  | (name, t) :: rest =>
    decide (Path.Ordinary name) && !name.contains '/' &&
      decide ((Utf8.encode name).length ≤ maxName) && !(rest.map (·.1)).contains name &&
      t.wellNamed && wellNamedOf rest
termination_by structural entries => entries
end

theorem wellNamedOf_cons_iff {name : Text} {t : Tree} {rest : List (Text × Tree)} :
    wellNamedOf ((name, t) :: rest) = true ↔
      (Path.Ordinary name ∧ '/' ∉ name ∧ (Utf8.encode name).length ≤ maxName ∧
        name ∉ rest.map (·.1)) ∧ t.wellNamed = true ∧ wellNamedOf rest = true := by
  simp only [wellNamedOf, Bool.and_eq_true, decide_eq_true_eq, Bool.not_eq_true',
    List.contains_eq_mem, decide_eq_false_iff_not, and_assoc]

theorem wellNamed_of_lookup {entries : List (Text × Tree)}
    (hentries : wellNamedOf entries = true) {name : Text} {t : Tree}
    (ht : entries.lookup name = some t) :
    Path.Ordinary name ∧ '/' ∉ name ∧ (Utf8.encode name).length ≤ maxName ∧
      t.wellNamed = true := by
  induction entries with
  | nil => cases ht
  | cons entry rest ih =>
      obtain ⟨hentry, hfirst, hrest⟩ := wellNamedOf_cons_iff.mp hentries
      rw [lookup_cons_ite] at ht
      split at ht
      · next hname =>
        obtain rfl := Option.some.inj ht
        rw [hname]
        exact ⟨hentry.1, hentry.2.1, hentry.2.2.1, hfirst⟩
      · exact ih hrest ht

theorem mem_filesOf_of_lookup {entries : List (Text × Tree)} {name : Text} {t : Tree}
    (ht : entries.lookup name = some t) {rest : List Text} {content : Bytes}
    (hfile : (rest, content) ∈ t.files) : (name :: rest, content) ∈ filesOf entries := by
  induction entries with
  | nil => cases ht
  | cons entry others ih =>
      rw [filesOf, List.mem_append]
      rw [lookup_cons_ite] at ht
      split at ht
      · next hname =>
        obtain rfl := Option.some.inj ht
        exact Or.inl (List.mem_map.mpr ⟨(rest, content), hfile, by rw [hname]⟩)
      · exact Or.inr (ih ht)

/-- The files of a directory are those of its entries. -/
theorem mem_filesOf_iff {entries : List (Text × Tree)} (hentries : wellNamedOf entries = true)
    {names : List Text} {content : Bytes} :
    (names, content) ∈ filesOf entries ↔ ∃ name rest t, names = name :: rest ∧
      entries.lookup name = some t ∧ (rest, content) ∈ t.files := by
  constructor
  · intro hfile
    induction entries with
    | nil => cases hfile
    | cons entry others ih =>
        obtain ⟨⟨-, -, -, hother⟩, -, hothers⟩ := wellNamedOf_cons_iff.mp hentries
        rw [filesOf, List.mem_append] at hfile
        rcases hfile with hfirst | hrest
        · obtain ⟨⟨rest, found⟩, hfile, hnames⟩ := List.mem_map.mp hfirst
          obtain ⟨rfl, rfl⟩ := Prod.mk.inj hnames
          exact ⟨entry.1, rest, entry.2, rfl, by rw [lookup_cons_ite, if_pos rfl], hfile⟩
        · obtain ⟨name, rest, t, rfl, ht, hfile⟩ := ih hothers hrest
          have hname : name ≠ entry.1 := by
            rintro rfl
            exact hother (mem_map_fst_iff.mpr ⟨t, ht⟩)
          exact ⟨name, rest, t, rfl, by rw [lookup_cons_ite, if_neg hname, ht], hfile⟩
  · rintro ⟨name, rest, t, rfl, ht, hfile⟩
    exact mem_filesOf_of_lookup ht hfile

theorem belowRoot_of_mem_files {t : Tree} (ht : t.wellNamed = true) {names : List Text}
    {content : Bytes} (hfile : (names, content) ∈ t.files) : Path.BelowRoot names := by
  induction names generalizing t with
  | nil => exact ⟨List.forall_mem_nil _, List.forall_mem_nil _⟩
  | cons name rest ih =>
      cases t with
      | file found => cases List.mem_singleton.mp hfile
      | dir entries =>
          rw [wellNamed] at ht
          rw [files, mem_filesOf_iff ht] at hfile
          obtain ⟨first, others, t, hnames, hlookup, hfile⟩ := hfile
          obtain ⟨rfl, rfl⟩ := List.cons.inj hnames
          obtain ⟨hname, hfree, -, hwell⟩ := wellNamed_of_lookup ht hlookup
          have hrest := ih hwell hfile
          exact ⟨List.forall_mem_cons.mpr ⟨hname, hrest.ordinary⟩,
            List.forall_mem_cons.mpr ⟨hfree, hrest.free⟩⟩

/-- What names lead to without going up is a file of the tree, under the names that lead
somewhere. -/
theorem mem_files_of_find {t : Tree} {names : List Text} {content : Bytes}
    (hup : Path.up ∉ names) (hfile : t.find names = .ok (file content)) :
    (Path.resolve false names, content) ∈ t.files := by
  rw [Path.resolve_of_up_not_mem false hup]
  induction names generalizing t with
  | nil =>
      rw [find_nil] at hfile
      rw [Except.ok.inj hfile]
      exact List.mem_singleton_self _
  | cons name rest ih =>
      obtain ⟨hname, hrest⟩ := List.ne_and_not_mem_of_not_mem_cons hup
      cases t with
      | file found => cases hfile
      | dir entries =>
          rcases Path.skipped_or_up_or_ordinary name with hskip | rfl | hordinary
          · have hnot : ¬ Path.Ordinary name := fun h => hskip.elim h.1 h.2.1
            have hstay : (dir entries).find (name :: rest) = (dir entries).find rest := by
              rcases hskip with rfl | rfl <;> rfl
            rw [hstay] at hfile
            rw [List.filter_cons_of_neg (by simp [hnot])]
            exact ih hrest hfile
          · exact absurd rfl hname
          · rw [find_dir_cons entries hordinary hrest] at hfile
            split at hfile
            · cases hfile
            · split at hfile
              · next t hentry =>
                rw [List.filter_cons_of_pos (by simp [hordinary])]
                exact mem_filesOf_of_lookup hentry (ih hrest hfile)
              · cases hfile

/-- Names lead to a file exactly when it is one of the files of the tree. -/
theorem find_eq_file_iff {t : Tree} (ht : t.wellNamed = true) {names : List Text}
    (hnames : ∀ name ∈ names, Path.Ordinary name) {content : Bytes} :
    t.find names = .ok (file content) ↔ (names, content) ∈ t.files := by
  have hup : Path.up ∉ names := fun hup => (hnames _ hup).2.2 rfl
  constructor
  · intro hfind
    have hfile := mem_files_of_find hup hfind
    rwa [Path.resolve_of_ordinary false hnames] at hfile
  · intro hfile
    induction names generalizing t with
    | nil =>
        cases t with
        | file found =>
            rw [(Prod.mk.inj (List.mem_singleton.mp hfile)).2]
            exact find_nil (file found)
        | dir entries =>
            obtain ⟨name, rest, t, hsplit, -⟩ := (mem_filesOf_iff ht).mp hfile
            cases hsplit
    | cons name rest ih =>
        obtain ⟨hname, hrest⟩ := List.forall_mem_cons.mp hnames
        have huprest : Path.up ∉ rest := List.not_mem_of_not_mem_cons hup
        cases t with
        | file found => cases List.mem_singleton.mp hfile
        | dir entries =>
            obtain ⟨first, others, t, hsplit, hlookup, hfile⟩ := (mem_filesOf_iff ht).mp hfile
            obtain ⟨rfl, rfl⟩ := List.cons.inj hsplit
            obtain ⟨-, -, hlength, hwell⟩ := wellNamed_of_lookup ht hlookup
            rw [find_dir_cons entries hname huprest, if_neg (Nat.not_lt.mpr hlength), hlookup]
            exact ih hwell hrest huprest hfile

end Tree

/-- The files of a tree in memory. -/
def Memory.ofTree (t : Tree) : Memory :=
  ⟨Table.ofList (t.files.map fun (names, content) => (Text.joined ['/'] names, content))⟩

theorem get?_ofTree_iff {t : Tree} (ht : t.wellNamed = true) {path : Text} {content : Bytes} :
    (Memory.ofTree t).files.get? path = some content ↔
      ∃ names, Text.joined ['/'] names = path ∧ (names, content) ∈ t.files := by
  have hmem : ∀ found, (path, found) ∈
      (t.files.map fun (names, content) => (Text.joined ['/'] names, content)) ↔
        ∃ names, Text.joined ['/'] names = path ∧ (names, found) ∈ t.files := by
    intro found
    simp [and_comm]
  rw [Memory.ofTree, Table.get?_ofList_iff, hmem]
  intro found other hfound hother
  obtain ⟨names, hnames, hfile⟩ := (hmem found).mp hfound
  obtain ⟨others, hothers, hfile'⟩ := (hmem other).mp hother
  -- The path spells the same names, and these lead to one file.
  have hbelow := Tree.belowRoot_of_mem_files ht hfile
  obtain rfl := (Tree.belowRoot_of_mem_files ht hfile').eq_of_joined hbelow
    (hothers.trans hnames.symm)
  rw [← Tree.find_eq_file_iff ht hbelow.ordinary] at hfile hfile'
  rw [hfile] at hfile'
  cases hfile'
  rfl

/-- A directory of well-named files holds the memory of them. -/
theorem Directory.holds_ofTree {d : Directory} {entries : List (Text × Tree)}
    (hroot : d.disk.follow d.rootPath = .ok (.dir entries))
    (hentries : Tree.wellNamed (.dir entries) = true) :
    d.Holds (.dir entries) (Memory.ofTree (.dir entries)) where
  root := hroot
  ordinary := by
    intro path hpath
    obtain ⟨content, hcontent⟩ := Table.mem_names_iff.mp hpath
    obtain ⟨names, rfl, hfile⟩ := (get?_ofTree_iff hentries).mp hcontent
    have hbelow := Tree.belowRoot_of_mem_files hentries hfile
    have hne : names ≠ [] := by
      rintro rfl
      rw [Tree.wellNamed] at hentries
      rw [Tree.files, Tree.mem_filesOf_iff hentries] at hfile
      obtain ⟨_, _, _, hnames, -⟩ := hfile
      cases hnames
    rw [Text.pieces_joined hne hbelow.free]
    exact hbelow.ordinary
  same := by
    intro names hnames content
    rw [get?_ofTree_iff hentries, Tree.find_eq_file_iff hentries hnames.ordinary]
    constructor
    · exact fun hfile => ⟨names, rfl, hfile⟩
    · rintro ⟨others, hothers, hfile⟩
      rwa [← (Tree.belowRoot_of_mem_files hentries hfile).eq_of_joined hnames hothers]

/-! ## One file -/

variable {d : Directory} {top : Tree} {m : Memory}

theorem Memory.read_eq_ok_iff {path : Text} {content : Bytes} :
    m.read path = .ok content ↔ m.files.get? (Store.belowTop path) = some content := by
  rw [read]
  cases m.files.get? (Store.belowTop path) <;> simp

theorem Memory.error_of_read {path : Text} {e : StoreError} (he : m.read path = .error e) :
    e = .notFound path := by
  rw [read] at he
  split at he
  · cases he
  · exact (Except.error.inj he).symm

namespace Directory.Holds

theorem belowRoot_of_read (h : d.Holds top m) {path : Text} {content : Bytes}
    (hcontent : m.read path = .ok content) :
    Path.BelowRoot (Text.pieces '/' (Store.belowTop path)) where
  ordinary :=
    h.ordinary _ (Table.mem_names_iff.mpr ⟨content, Memory.read_eq_ok_iff.mp hcontent⟩)
  free := fun _ hname => Text.not_mem_of_mem_pieces hname

theorem read_memory (h : d.Holds top m) {path : Text}
    (hpath : Path.BelowRoot (Text.pieces '/' (Store.belowTop path))) (content : Bytes) :
    m.read path = .ok content ↔
      top.find (Text.pieces '/' (Store.belowTop path)) = .ok (.file content) := by
  rw [h.same _ hpath, Text.joined_pieces, Memory.read_eq_ok_iff]

/-- With no file in the way, a directory answers like the memory of its files, unless it cannot
answer at all. -/
theorem read_eq_or_io (h : d.Holds top m) {path : Text}
    (hpath : Path.BelowRoot (Text.pieces '/' (Store.belowTop path)))
    (hway : ∀ fault, top.find (Text.pieces '/' (Store.belowTop path)) = .error fault →
      fault = .missing) :
    (d.Clear top path → d.read path = m.read path) ∧
      (¬ d.Clear top path → ∃ reason, d.read path = .error (.io path reason)) := by
  have hup : Path.up ∉ Text.pieces '/' (Store.belowTop path) :=
    fun hup => (hpath.ordinary _ hup).2.2 rfl
  have hmemory := h.read_memory hpath
  rw [Directory.read_eq h.root hup, Directory.Clear]
  cases Tree.pathFault? (d.wholePath path) with
  | some fault => exact ⟨nofun, fun _ => ⟨fault.message, rfl⟩⟩
  | none =>
      cases hfind : top.find (Text.pieces '/' (Store.belowTop path)) with
      | error fault =>
          obtain rfl := hway fault hfind
          refine ⟨fun _ => ?_, fun hclear => absurd ⟨rfl, rfl⟩ hclear⟩
          cases hread : m.read path with
          | error e => rw [Memory.error_of_read hread]
          | ok content =>
              rw [hmemory, hfind] at hread
              cases hread
      | ok found =>
          cases found with
          | file content =>
              exact ⟨fun _ => ((hmemory content).mpr hfind).symm,
                fun hclear => absurd ⟨rfl, rfl⟩ hclear⟩
          | dir entries => exact ⟨nofun, fun _ => ⟨TreeFault.isDirectory.message, rfl⟩⟩

end Directory.Holds
end PageTemplates
