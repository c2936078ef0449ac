import Mathlib.Data.List.Induction
import Mathlib.Data.List.Nodup
import PageTemplates.Proofs.Text.Pieces
import PageTemplates.Site.Compile

/-!
Layouts by convention.  A page is made in the layouts of the directories that it stands
in, as if they had been registered for it: those that the store does not miss, from the
outermost to the page itself.
-/

namespace PageTemplates.Site

open Template (FunctionMap Namespace)

/-! ## The directories around a page -/

/-- The directories that a path below the top stands in, outermost first: the top, and what
stands before each of the slashes. -/
def enclosing (path : Text) : List Text :=
  [] :: ((List.range path.length).filter fun n => path[n]? = some '/').map path.take

theorem enclosing_append_singleton (path : Text) (c : Char) :
    enclosing (path ++ [c]) = enclosing path ++ if c = '/' then [path] else [] := by
  have hbefore : (List.range path.length).filter (fun n => (path ++ [c])[n]? = some '/') =
      (List.range path.length).filter fun n => path[n]? = some '/' := by
    apply List.filter_congr
    intro n hn
    rw [List.getElem?_append_left (List.mem_range.mp hn)]
  have htake : ((List.range path.length).filter fun n => path[n]? = some '/').map
      (path ++ [c]).take =
        ((List.range path.length).filter fun n => path[n]? = some '/').map path.take := by
    apply List.map_congr_left
    intro n hn
    rw [List.take_append_of_le_length
      (Nat.le_of_lt (List.mem_range.mp (List.mem_filter.mp hn).1))]
  rw [enclosing, List.length_append, List.length_singleton, List.range_succ, List.filter_append,
    List.map_append, hbefore, htake]
  by_cases hc : c = '/' <;> simp [enclosing, hc]

theorem enclosing_append_of_not_mem (path : Text) {last : Text} (hlast : '/' ∉ last) :
    enclosing (path ++ last) = enclosing path := by
  induction last using List.reverseRecOn with
  | nil => rw [List.append_nil]
  | append_singleton last c ih =>
      rw [List.mem_append, not_or] at hlast
      have hc : c ≠ '/' := fun hc => hlast.2 (hc ▸ List.mem_singleton_self c)
      rw [← List.append_assoc, enclosing_append_singleton, ih hlast.1, if_neg hc,
        List.append_nil]

theorem enclosing_append_slash (path : Text) {last : Text} (hlast : '/' ∉ last) :
    enclosing (path ++ '/' :: last) = enclosing path ++ [path] := by
  rw [List.append_cons, enclosing_append_of_not_mem _ hlast, enclosing_append_singleton,
    if_pos rfl]

theorem directoryOf_of_not_mem {path : Text} (hpath : '/' ∉ path) : directoryOf path = [] := by
  rw [directoryOf, Text.pieces_of_not_mem hpath]
  rfl

theorem directoryOf_append_slash (path : Text) {last : Text} (hlast : '/' ∉ last) :
    directoryOf (path ++ '/' :: last) = path := by
  rw [directoryOf, Text.pieces_append_cons, Text.pieces_of_not_mem hlast,
    List.dropLast_concat, Text.joined_pieces]

theorem head?_belowTop (path : Text) : (Store.belowTop path).head? ≠ some '/' := by
  intro hhead
  have hnot := List.head?_dropWhile_not (· == '/') path
  rw [← Store.belowTop, hhead] at hnot
  cases hnot

theorem belowTop_of_head? {path : Text} (hpath : path.head? ≠ some '/') :
    Store.belowTop path = path := by
  cases path with
  | nil => rfl
  | cons c rest =>
      have hc : c ≠ '/' := fun hc => hpath (congrArg some hc)
      simp [Store.belowTop, hc]

theorem belowTop_cons {path : Text} (hpath : path.head? ≠ some '/') :
    Store.belowTop ('/' :: path) = path :=
  belowTop_of_head? hpath

/-- The way up from a directory, from its last character to its first. -/
theorem reverse_above {dir : Text} (hdir : dir.head? ≠ some '/') :
    (Path.above (dir.reverse ++ ['/'])).reverse.map Store.belowTop = enclosing dir := by
  induction dir using List.reverseRecOn with
  | nil => rfl
  | append_singleton dir c ih =>
      rw [List.reverse_append, List.reverse_singleton, List.singleton_append, List.cons_append,
        enclosing_append_singleton]
      by_cases hc : c = '/'
      · subst hc
        -- The directory before the slash has a name, so it is not the root.
        have hne : dir ≠ [] := by
          rintro rfl
          exact hdir rfl
        have hhead : dir.head? ≠ some '/' := by
          rwa [List.head?_append_of_ne_nil dir hne] at hdir
        have hroot : ¬ (dir.reverse ++ ['/'] = [] ∨ dir.reverse ++ ['/'] = ['/']) := by
          simp [hne]
        rw [Path.above, if_pos rfl, if_neg hroot, List.reverse_cons, List.map_append, ih hhead,
          if_pos rfl, List.reverse_append, List.reverse_reverse, List.map_singleton]
        exact congrArg (fun top => enclosing dir ++ [top]) (belowTop_cons hhead)
      · have hhead : dir.head? ≠ some '/' := by
          cases dir with
          | nil => exact nofun
          | cons first rest => exact hdir
        rw [Path.above, if_neg hc, if_neg hc, List.append_nil, ih hhead]

/-- The directories whose layouts a page is made in are those that its path stands in. -/
theorem directoriesAround_eq (name : Text) :
    directoriesAround name = enclosing (Store.belowTop name) := by
  have hpath := head?_belowTop name
  rw [directoriesAround]
  generalize Store.belowTop name = path at hpath
  by_cases hslash : '/' ∈ path
  · obtain ⟨dir, last, rfl, hlast⟩ := Text.exists_last_occurrence hslash
    have hne : dir ≠ [] := by
      rintro rfl
      exact hpath rfl
    have hdir : dir.head? ≠ some '/' := by
      rwa [List.head?_append_of_ne_nil dir hne] at hpath
    have hroot : '/' :: dir ≠ ['/'] := fun h => hne (List.cons.inj h).2
    rw [directoryOf_append_slash dir hlast, enclosing_append_slash dir hlast,
      Path.ancestorsRootFirst, Path.ancestors, if_neg hroot, List.reverse_cons, List.map_append,
      List.reverse_cons, reverse_above hdir, List.map_singleton, belowTop_cons hdir]
  · rw [directoryOf_of_not_mem hslash, ← List.nil_append path,
      enclosing_append_of_not_mem [] hslash]
    rfl

theorem nodup_enclosing {path : Text} (hpath : path.head? ≠ some '/') :
    (enclosing path).Nodup := by
  rw [enclosing, List.nodup_cons]
  constructor
  · intro hmem
    obtain ⟨n, hn, htake⟩ := List.mem_map.mp hmem
    have hslash : path[n]? = some '/' := by simpa using (List.mem_filter.mp hn).2
    rcases List.take_eq_nil_iff.mp htake with rfl | rfl
    · exact hpath (List.head?_eq_getElem? ▸ hslash)
    · cases hslash
  · refine List.Nodup.map_on ?_ (List.nodup_range.filter _)
    intro n hn m hm htake
    have hlength := congrArg List.length htake
    have hn := List.mem_range.mp (List.mem_filter.mp hn).1
    have hm := List.mem_range.mp (List.mem_filter.mp hm).1
    rw [List.length_take, List.length_take] at hlength
    omega

/-! ## Layout files -/

theorem layoutIn_injective : Function.Injective layoutIn := by
  intro dir other h
  unfold layoutIn at h
  -- The layout of the top is shorter than that of any other directory.
  split at h <;> split at h
  · rename_i hdir hother
    rw [hdir, hother]
  · have hlength := congrArg List.length h
    rw [List.length_append, List.length_cons] at hlength
    omega
  · have hlength := congrArg List.length h
    rw [List.length_append, List.length_cons] at hlength
    omega
  · exact List.append_cancel_right h

theorem isLayout_layoutIn (dir : Text) : isLayout (layoutIn dir) = true := by
  unfold layoutIn
  split
  · rfl
  · have hfile : Text.pieces '/' layoutFile = [layoutFile] := rfl
    rw [isLayout, Text.pieces_append_cons, hfile, List.getLast?_concat]
    exact beq_self_eq_true _

/-- The layouts that a page is looked for in, outermost first, whether they are there or not. -/
def layoutsAround (name : Text) : List Text :=
  (enclosing (Store.belowTop name)).map layoutIn

theorem conventionIngredients_eq (name : Text) :
    conventionIngredients name = (layoutsAround name).map (⟨·, true⟩) ++ [⟨name, false⟩] := by
  rw [conventionIngredients, directoriesAround_eq, layoutsAround, List.map_map]
  rfl

/-- No file is looked for twice. -/
theorem nodup_layoutsAround {name : Text} (hname : isLayout name = false) :
    (layoutsAround name ++ [name]).Nodup := by
  have hlayouts : (layoutsAround name).Nodup :=
    (nodup_enclosing (head?_belowTop name)).map layoutIn_injective
  rw [← List.concat_eq_append]
  refine hlayouts.concat ?_
  intro hmem
  obtain ⟨dir, -, rfl⟩ := List.mem_map.mp hmem
  rw [isLayout_layoutIn] at hname
  cases hname

/-! ## Reading files in turn -/

/-- Whether the store has no file with the path. -/
def missing (store : Store) (path : Text) : Bool :=
  match store.read path with
  | .ok _ => false
  | .error e => e.isNotFound

/-- The namespace with the file of the given path read into it. -/
def absorb (store : Store) (ns : Namespace) (path : Text) : Except PageError Namespace :=
  (readSource store path).bind fun source => (ns.parse source).mapError (.parse path)

variable {store : Store}

theorem isNotFound_of_readSource {path : Text} {e : PageError}
    (he : readSource store path = .error e) : e.isNotFound = missing store path := by
  unfold readSource at he
  unfold missing
  cases hread : store.read path with
  | error fault =>
      rw [hread] at he
      obtain rfl := Except.error.inj he
      rfl
  | ok content =>
      simp only [hread] at he
      cases hdecode : Utf8.decode content with
      | error fault =>
          rw [hdecode] at he
          obtain rfl := Except.error.inj he
          rfl
      | ok source =>
          rw [hdecode] at he
          cases he

theorem exists_error_of_missing {path : Text} (hpath : missing store path = true) :
    ∃ e, readSource store path = .error e := by
  unfold missing at hpath
  cases hread : store.read path with
  | ok content =>
      rw [hread] at hpath
      cases hpath
  | error e => exact ⟨.read path e, by rw [readSource, hread]⟩

/-- A file without which a page can be made counts for nothing when it is missing. -/
theorem compileInto_missing {path : Text} (hpath : missing store path = true)
    (rest : List Ingredient) (ns : Namespace) :
    compileInto store (⟨path, true⟩ :: rest) ns = (compileInto store rest ns).after path := by
  obtain ⟨e, he⟩ := exists_error_of_missing hpath
  rw [compileInto, he]
  exact if_pos (Bool.and_eq_true_iff.mpr ⟨rfl, (isNotFound_of_readSource he).trans hpath⟩)

/-- Any other file is read into the namespace, or ends the reading. -/
theorem compileInto_absorb {file : Ingredient}
    (hfile : (file.optional && missing store file.path) = false)
    (rest : List Ingredient) (ns : Namespace) :
    compileInto store (file :: rest) ns =
      match absorb store ns file.path with
      | .ok view => (compileInto store rest view).after file.path
      | .error e => ⟨[file.path], .error e⟩ := by
  rw [compileInto, absorb]
  cases hsource : readSource store file.path with
  | error e =>
      rw [← isNotFound_of_readSource hsource] at hfile
      exact if_neg (Bool.not_eq_true _ ▸ hfile)
  | ok source =>
      cases hparse : ns.parse source <;> simp only [Except.bind, Except.mapError, hparse]

/-- Files that can be missing are as good as those of them that are not. -/
theorem result_compileInto_filter (paths : List Text) (rest : List Ingredient) (ns : Namespace) :
    (compileInto store (paths.map (⟨·, true⟩) ++ rest) ns).result =
      (compileInto store ((paths.filter fun path => !missing store path).map (⟨·, false⟩) ++ rest)
        ns).result := by
  induction paths generalizing ns with
  | nil => rfl
  | cons path paths ih =>
      rw [List.map_cons, List.cons_append]
      cases hpath : missing store path with
      | true =>
          rw [compileInto_missing hpath, List.filter_cons_of_neg (by simp [hpath])]
          exact ih ns
      | false =>
          rw [compileInto_absorb (by simp [hpath]), List.filter_cons_of_pos (by simp [hpath]),
            List.map_cons, List.cons_append, compileInto_absorb rfl]
          dsimp only
          cases absorb store ns path with
          | error e => rfl
          | ok view => exact ih view

/-- A file leaves a namespace to the files after it, or the reading ends with it. -/
theorem compileInto_cons_cases (store : Store) (file : Ingredient) (ns : Namespace) :
    (∃ view, ∀ rest, compileInto store (file :: rest) ns =
        (compileInto store rest view).after file.path) ∨
      ∃ e, ∀ rest, compileInto store (file :: rest) ns = ⟨[file.path], .error e⟩ := by
  cases hfile : file.optional && missing store file.path with
  | true =>
      obtain ⟨path, optional⟩ := file
      obtain ⟨rfl, hpath⟩ := Bool.and_eq_true_iff.mp hfile
      exact .inl ⟨ns, fun rest => compileInto_missing hpath rest ns⟩
  | false =>
      cases habsorb : absorb store ns file.path with
      | ok view => exact .inl ⟨view, fun rest => by rw [compileInto_absorb hfile, habsorb]⟩
      | error e => exact .inr ⟨e, fun rest => by rw [compileInto_absorb hfile, habsorb]⟩

/-- Files are read in order, all of them or up to the first with which there is no namespace. -/
theorem compileInto_cases (store : Store) (files : List Ingredient) (ns : Namespace) :
    (∃ view, compileInto store files ns = ⟨files.map (·.path), .ok view⟩) ∨
      ∃ before file after view e, files = before ++ file :: after ∧
        compileInto store before ns = ⟨before.map (·.path), .ok view⟩ ∧
        compileInto store [file] view = ⟨[file.path], .error e⟩ ∧
        compileInto store files ns = ⟨before.map (·.path) ++ [file.path], .error e⟩ := by
  induction files generalizing ns with
  | nil => exact .inl ⟨ns, rfl⟩
  | cons first files ih =>
      rcases compileInto_cons_cases store first ns with ⟨next, hnext⟩ | ⟨e, he⟩
      · rcases ih next with ⟨view, hview⟩ | ⟨before, file, after, view, e, rfl, hbefore, hfile, hall⟩
        · exact .inl ⟨view, by rw [hnext, hview]; rfl⟩
        · refine .inr ⟨first :: before, file, after, view, e, rfl, ?_, hfile, ?_⟩
          · rw [hnext, hbefore]
            rfl
          · rw [hnext, hall]
            rfl
      · exact .inr ⟨[], first, files, ns, e, rfl, rfl, he [], he files⟩

/-! ## Pages -/

/-- A page in the layouts found for it is the page in those of them that are there, registered
with it, and it fails in the same way.  Each file is looked for once, in order, up to the first
that fails. -/
theorem compileByConvention_eq_registered (store : Store) (funcs : FunctionMap) {name : Text}
    (hname : isLayout name = false) :
    let files : List Ingredient := (layoutsAround name).map (⟨·, true⟩) ++ [⟨name, false⟩]
    let layouts := (layoutsAround name).filter fun path => !missing store path
    let found := compileByConvention store funcs name
    found.result = (compileRegistered store funcs ⟨name, layouts⟩).result ∧
      (layoutsAround name ++ [name]).Nodup ∧
      ((∃ view, found = ⟨layoutsAround name ++ [name], .ok view⟩) ∨
        ∃ before file after view e, files = before ++ file :: after ∧
          compileInto store before (.empty funcs) = ⟨before.map (·.path), .ok view⟩ ∧
          compileInto store [file] view = ⟨[file.path], .error e⟩ ∧
          found = ⟨before.map (·.path) ++ [file.path], .error e⟩) := by
  intro files layouts found
  have hfound : found = compileInto store files (.empty funcs) := by
    change compileByConvention store funcs name = _
    rw [compileByConvention, hname, conventionIngredients_eq]
    rfl
  have hpaths : files.map (·.path) = layoutsAround name ++ [name] := by
    simp [files, Function.comp_def]
  refine ⟨?_, nodup_layoutsAround hname, ?_⟩
  · rw [hfound, result_compileInto_filter, compileRegistered, Registration.ingredients,
      List.map_append]
    rfl
  · rw [hfound, ← hpaths]
    exact compileInto_cases store files (.empty funcs)

/-- A page behind two slashes, in a directory that alone has a layout: the layout of the top
and the one between the slashes are looked for and not there. -/
theorem compileByConvention_eq_registered_doubled :
    let layout := "a/@layout.html".toList
    let page := "/a//page.html".toList
    let store : Store :=
      { Store.empty with
        read := fun path =>
          if path = layout then .ok (Utf8.encode "x".toList)
          else if path = page then .ok (Utf8.encode "y".toList)
          else .error (.notFound path) }
    isLayout page = false ∧
      (compileByConvention store Table.empty page).reads =
        ["@layout.html".toList, layout, "a//@layout.html".toList, page] ∧
      (compileByConvention store Table.empty page).result =
        (compileRegistered store Table.empty ⟨page, [layout]⟩).result := by
  intro layout page store
  have hpage : isLayout page = false := rfl
  refine ⟨hpage, by decide +kernel, ?_⟩
  exact (compileByConvention_eq_registered store Table.empty hpage).1

end PageTemplates.Site
