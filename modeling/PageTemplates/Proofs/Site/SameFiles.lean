import PageTemplates.Proofs.Site.Lookups
import PageTemplates.Proofs.Site.Layouts
import PageTemplates.Proofs.Store.Holding

/-!
The same files in memory and in a directory.  Layouts are looked for in directories that the
page stands in, so no file is in the way to one, and a page that can be made from memory can
be made from the directory in the same way.  Only where a directory has the path of a layout,
or the system refuses a path, there is an answer on disk that memory never gives: the layout
is not missing but cannot be read.
-/

namespace PageTemplates

namespace Site

/-! ## Reading in turn -/

theorem readSource_congr {store other : Store} {path : Text}
    (hread : store.read path = other.read path) :
    readSource store path = readSource other path := by
  rw [readSource, readSource, hread]

/-- Only the files that are read count. -/
theorem compileInto_congr {store other : Store} {files : List Ingredient}
    (hread : ∀ file ∈ files, store.read file.path = other.read file.path)
    (ns : Template.Namespace) : compileInto store files ns = compileInto other files ns := by
  induction files generalizing ns with
  | nil => rfl
  | cons file rest ih =>
      obtain ⟨hfile, hrest⟩ := List.forall_mem_cons.mp hread
      simp only [compileInto, readSource_congr hfile, ih hrest]

/-- A page that was made met no file that cannot be read, but for those it can do without and that were
missing. -/
theorem missing_of_compileInto {store : Store} {files : List Ingredient}
    {ns view : Template.Namespace} (hview : (compileInto store files ns).result = .ok view)
    {file : Ingredient} (hfile : file ∈ files) {e : StoreError}
    (he : store.read file.path = .error e) : file.optional = true ∧ e.isNotFound = true := by
  induction files generalizing ns with
  | nil => exact absurd hfile List.not_mem_nil
  | cons first rest ih =>
      rcases compileInto_cons_cases store first ns with ⟨next, hnext⟩ | ⟨fault, hfault⟩
      · rcases List.mem_cons.mp hfile with rfl | hrest
        · by_contra hneeded
          have hkept : (file.optional && missing store file.path) = false := by
            rw [missing, he]
            simpa using hneeded
          rw [compileInto_absorb hkept, absorb, readSource, he] at hview
          cases hview
        · rw [hnext] at hview
          exact ih hview hrest
      · rw [hfault] at hview
        cases hview

/-! ## The files that a page is made from -/

theorem eq_nil_or_of_mem_enclosing {path dir : Text} (hdir : dir ∈ enclosing path) :
    dir = [] ∨ ∃ rest, path = dir ++ '/' :: rest := by
  induction path using List.reverseRecOn with
  | nil => exact .inl (List.mem_singleton.mp hdir)
  | append_singleton path c ih =>
      rw [enclosing_append_singleton, List.mem_append] at hdir
      rcases hdir with hdir | hdir
      · apply (ih hdir).imp_right
        rintro ⟨rest, rfl⟩
        exact ⟨rest ++ [c], by simp⟩
      · split at hdir
        · next hc =>
          obtain rfl := List.mem_singleton.mp hdir
          exact .inr ⟨[], by rw [hc]⟩
        · cases hdir

/-- The names on the way to the layout of a directory. -/
theorem pieces_layoutIn (dir : Text) :
    Text.pieces '/' (layoutIn dir) =
      (if dir = [] then [] else Text.pieces '/' dir) ++ [layoutFile] := by
  have hfile : Text.pieces '/' layoutFile = [layoutFile] := rfl
  rw [layoutIn]
  split
  · exact hfile
  · rw [Text.pieces_append_cons, hfile]

theorem belowTop_layoutIn {path dir : Text} (hpath : path.head? ≠ some '/')
    (hdir : dir ∈ enclosing path) : Store.belowTop (layoutIn dir) = layoutIn dir := by
  apply belowTop_of_head?
  rw [layoutIn]
  split
  · decide
  · next hne =>
    rcases eq_nil_or_of_mem_enclosing hdir with hnil | ⟨rest, rfl⟩
    · exact absurd hnil hne
    · rwa [List.head?_append_of_ne_nil dir hne] at hpath ⊢

/-- The directory of a layout is on the way to the page. -/
theorem exists_pieces_eq_append {path dir : Text} (hdir : dir ∈ enclosing path) :
    ∃ rest, rest ≠ [] ∧
      Text.pieces '/' path = (if dir = [] then [] else Text.pieces '/' dir) ++ rest := by
  by_cases hnil : dir = []
  · rw [if_pos hnil]
    exact ⟨_, Text.pieces_ne_nil '/' path, rfl⟩
  · rw [if_neg hnil]
    obtain ⟨rest, rfl⟩ := (eq_nil_or_of_mem_enclosing hdir).resolve_left hnil
    exact ⟨_, Text.pieces_ne_nil '/' rest, Text.pieces_append_cons '/' dir rest⟩

/-- The ways to a file and to the layouts around it end there, or nothing is there: no other file
stands in the way. -/
theorem missing_of_find_layout {d : Directory} {top : Tree} {m : Memory} (h : d.Holds top m)
    {name path : Text} {content : Utf8.Bytes} (hpage : m.read name = .ok content)
    (hpath : path ∈ layoutsAround name ++ [name]) :
    Path.BelowRoot (Text.pieces '/' (Store.belowTop path)) ∧
      ∀ fault, top.find (Text.pieces '/' (Store.belowTop path)) = .error fault →
        fault = .missing := by
  have hname := h.belowRoot_of_read hpage
  have hfind := (h.read_memory hname content).mp hpage
  rcases List.mem_append.mp hpath with hlayout | hself
  · obtain ⟨dir, hdir, rfl⟩ := List.mem_map.mp hlayout
    rw [belowTop_layoutIn (head?_belowTop name) hdir, pieces_layoutIn]
    obtain ⟨rest, hrest, hsplit⟩ := exists_pieces_eq_append hdir
    rw [hsplit] at hname hfind
    generalize (if dir = [] then [] else Text.pieces '/' dir) = names at hname hfind ⊢
    have hup : Path.up ∉ rest :=
      fun hup => (hname.ordinary _ (List.mem_append_right names hup)).2.2 rfl
    obtain ⟨entries, hthere, -⟩ := Tree.exists_dir_of_find_append hup hrest hfind
    have hlayout : Path.Ordinary layoutFile := by decide
    exact ⟨hname.left.concat hlayout (by decide),
      fun fault => Tree.missing_of_find_concat hthere hlayout (by decide)⟩
  · obtain rfl := List.mem_singleton.mp hself
    refine ⟨hname, fun fault hfault => ?_⟩
    rw [hfind] at hfault
    cases hfault

/-! ## The whole page -/

/-- A page that nothing is kept of is compiled from what the store answers. -/
theorem get_congr {site : Site} {store other : Store} {name : Text}
    (hcompile : site.compile store (site.resolve name) =
      site.compile other (site.resolve name)) :
    site.get store name = site.get other name := by
  simp only [get, hcompile]

theorem compile_ok_of_get_ok {site : Site} {store : Store} {name : Text} {page : Compiled}
    (hfree : site.kept? (site.resolve name) = none)
    (hpage : (site.get store name).result = .ok page) :
    ∃ view, (site.compile store (site.resolve name)).result = .ok view := by
  rcases get_cases site store name with ⟨found, hkept, -⟩ | ⟨view, hview, -⟩ | ⟨e, he⟩
  · rw [hfree] at hkept
    cases hkept
  · exact ⟨view, hview⟩
  · rw [he] at hpage
    cases hpage

/-- The files of a page found by convention. -/
def convened (name : Text) : List Ingredient :=
  (layoutsAround name).map (⟨·, true⟩) ++ [⟨name, false⟩]

theorem mem_layoutsAround_iff {name path : Text} :
    path ∈ layoutsAround name ++ [name] ↔ ∃ file ∈ convened name, file.path = path := by
  simp [convened, or_comm, eq_comm]

theorem isLayout_of_compile {site : Site} {store : Store} {name : Text}
    {view : Template.Namespace} (hmode : site.mode = .convention)
    (hview : (site.compile store name).result = .ok view) : isLayout name = false := by
  unfold compile compileByConvention at hview
  rw [hmode] at hview
  cases hname : isLayout name with
  | false => rfl
  | true => simp [hname] at hview

theorem compile_of_convention {site : Site} {name : Text} (hmode : site.mode = .convention)
    (hname : isLayout name = false) (store : Store) :
    site.compile store name = compileInto store (convened name) (.empty site.funcs) := by
  unfold compile compileByConvention
  rw [hmode, hname, conventionIngredients_eq]
  rfl

/-- The same files in memory and in a directory make the same page, from the same readings, exactly when
nothing keeps the directory from an answer: the system takes the path of the page and that of every
layout that is looked for, and there is no directory in place of any of them. -/
theorem get_directory_eq_iff {site : Site} {d : Directory} {top : Tree} {m : Memory} {name : Text}
    {page : Compiled} (h : d.Holds top m) (hmode : site.mode = .convention)
    (hfree : site.kept? (site.resolve name) = none)
    (hpage : (site.get m.store name).result = .ok page) :
    site.get d.store name = site.get m.store name ↔
      ∀ path ∈ layoutsAround (site.resolve name) ++ [site.resolve name], d.Clear top path := by
  obtain ⟨view, hview⟩ := compile_ok_of_get_ok hfree hpage
  have hfiles := compile_of_convention hmode (isLayout_of_compile hmode hview)
  obtain ⟨content, hcontent⟩ : ∃ content, m.read (site.resolve name) = .ok content := by
    cases hread : m.read (site.resolve name) with
    | ok content => exact ⟨content, rfl⟩
    | error e =>
        rw [hfiles] at hview
        cases (missing_of_compileInto hview (List.mem_append_right _ List.mem_cons_self) hread).1
  have hanswer : ∀ path ∈ layoutsAround (site.resolve name) ++ [site.resolve name],
      (d.Clear top path → d.read path = m.read path) ∧
        (¬ d.Clear top path → ∃ reason, d.read path = .error (.io path reason)) := by
    intro path hpath
    obtain ⟨hnames, hway⟩ := missing_of_find_layout h hcontent hpath
    exact h.read_eq_or_io hnames hway
  constructor
  · intro hsame path hpath
    by_contra hclear
    obtain ⟨reason, hread⟩ := (hanswer path hpath).2 hclear
    obtain ⟨found, hfound⟩ := compile_ok_of_get_ok hfree (hsame ▸ hpage)
    rw [hfiles] at hfound
    obtain ⟨file, hfile, rfl⟩ := mem_layoutsAround_iff.mp hpath
    cases (missing_of_compileInto hfound hfile hread).2
  · intro hclear
    apply get_congr
    rw [hfiles, hfiles]
    apply compileInto_congr
    intro file hfile
    have hpath := mem_layoutsAround_iff.mpr ⟨file, hfile, rfl⟩
    exact (hanswer file.path hpath).1 (hclear file.path hpath)

/-- A page behind two slashes, in a directory that has no layout of its own. -/
theorem get_directory_eq_behind_slashes :
    let top := Tree.dir [("@layout.html".toList, .file (Utf8.encode "x".toList)),
      ("a".toList, .dir [("page.html".toList, .file (Utf8.encode "y".toList))])]
    let d : Directory := ⟨.dir [("templates".toList, top)], "/".toList, some "templates".toList⟩
    let site := ofSettings .plain
    let name := "//a/page.html".toList
    d.Holds top (.ofTree top) ∧ site.mode = .convention ∧
      site.kept? (site.resolve name) = none ∧
      (∃ page, (site.get (Memory.ofTree top).store name).result = .ok page) ∧
      site.get d.store name = site.get (Memory.ofTree top).store name := by
  intro top d site name
  have hroot : d.disk.follow d.rootPath = .ok top := rfl
  have hholds := Directory.holds_ofTree hroot (by decide)
  have hmade : (site.get (Memory.ofTree top).store name).result.isOk = true := by decide +kernel
  obtain ⟨page, hpage⟩ := Except.isOk_iff.mp hmade
  exact ⟨hholds, rfl, rfl, ⟨page, hpage⟩,
    (get_directory_eq_iff hholds rfl rfl hpage).mpr (by decide +kernel)⟩

/-- A page beside a directory that has the name of a layout. -/
theorem get_directory_of_directory_layout :
    let top := Tree.dir [
      ("@layout.html".toList, .dir [("x.html".toList, .file (Utf8.encode "x".toList))]),
      ("page.html".toList, .file (Utf8.encode "y".toList))]
    let d : Directory := ⟨.dir [("templates".toList, top)], "/".toList, some "templates".toList⟩
    let site := ofSettings .plain
    let name := "page.html".toList
    d.Holds top (.ofTree top) ∧ site.mode = .convention ∧
      (∃ page, (site.get (Memory.ofTree top).store name).result = .ok page) ∧
      (site.get d.store name).result.isOk = false := by
  intro top d site name
  have hroot : d.disk.follow d.rootPath = .ok top := rfl
  have hmade : (site.get (Memory.ofTree top).store name).result.isOk = true := by decide +kernel
  exact ⟨Directory.holds_ofTree hroot (by decide), rfl, Except.isOk_iff.mp hmade, by decide +kernel⟩

end Site
end PageTemplates
