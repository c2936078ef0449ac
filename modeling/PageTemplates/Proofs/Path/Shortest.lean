import Mathlib.Data.List.Flatten
import PageTemplates.Proofs.Path.Names
import PageTemplates.Text.Utf8

/-!
The normal form of a path is the shortest way to write it.  Resolving only ever leaves
names out, so what a path is resolved to can be found again in the path itself, in the
same order; and a normal path is left as it is.
-/

namespace PageTemplates.Path

/-! ## What resolving leaves -/

theorem enter_sublist (rooted : Bool) (reached : List Text) (name : Text) :
    (enter rooted reached name).Sublist (name :: reached) := by
  rcases skipped_or_up_or_ordinary name with hskip | rfl | hname
  · rw [enter_skipped rooted reached hskip]
    exact List.sublist_cons_self name reached
  · cases reached with
    | nil => cases rooted <;> decide
    | cons last earlier =>
        rw [enter_up_cons]
        split
        · exact List.Sublist.refl _
        · exact (List.sublist_cons_self last earlier).cons up
  · rw [enter_ordinary rooted reached hname]

theorem foldl_enter_sublist (rooted : Bool) (reached names : List Text) :
    (names.foldl (enter rooted) reached).Sublist (names.reverse ++ reached) := by
  induction names generalizing reached with
  | nil => exact List.Sublist.refl reached
  | cons name rest ih =>
      have hfirst := (enter_sublist rooted reached name).append_left rest.reverse
      rw [List.foldl_cons, List.reverse_cons, List.append_assoc]
      exact (ih (enter rooted reached name)).trans hfirst

/-- Resolving leaves names out, and keeps the others in their order. -/
theorem resolve_sublist (rooted : Bool) (names : List Text) :
    (resolve rooted names).Sublist names := by
  have hfold := (foldl_enter_sublist rooted [] names).reverse
  rwa [List.append_nil, List.reverse_reverse] at hfold

/-- In a path without a dot nothing is left out but empty names. -/
theorem names_of_dot_not_mem {path : Text} (hpath : '.' ∉ path) : names path = steps path := by
  rw [names_eq_resolve_steps]
  apply resolve_of_ordinary
  intro name hname
  obtain ⟨hpiece, hne⟩ := List.mem_filter.mp hname
  have hdot : '.' ∉ name := fun hdot => hpath ((Text.sublist_of_mem_pieces hpiece).subset hdot)
  refine ⟨of_decide_eq_true hne, ?_, ?_⟩
  · rintro rfl
    exact hdot (by decide)
  · rintro rfl
    exact hdot (by decide)

/-- A path without steps has nothing but slashes. -/
theorem eq_slash_of_steps_eq_nil {path : Text} (hsteps : steps path = []) :
    ∀ c ∈ path, c = '/' := by
  intro c hc
  rw [← Text.joined_pieces '/' path] at hc
  rcases Text.mem_joined hc with hslash | ⟨piece, hpiece, hc⟩
  · exact List.mem_singleton.mp hslash
  · have hempty : ¬ decide (piece ≠ []) = true := List.filter_eq_nil_iff.mp hsteps piece hpiece
    have hnil : piece = [] := by simpa using hempty
    rw [hnil] at hc
    cases hc

/-- A relative path that leads nowhere says so with a dot, unless it is empty. -/
theorem dot_mem_of_names_eq_nil {path : Text} (hpath : path ≠ []) (hrooted : isRooted path = false)
    (hnames : names path = []) : '.' ∈ path := by
  by_contra hdot
  rw [names_of_dot_not_mem hdot] at hnames
  obtain ⟨c, rest, rfl⟩ := List.exists_cons_of_ne_nil hpath
  obtain rfl := eq_slash_of_steps_eq_nil hnames c List.mem_cons_self
  cases hrooted

/-- The characters of the normal form stand in the path, in the same order. -/
theorem normalize_sublist {path : Text} (hpath : path ≠ []) : (normalize path).Sublist path := by
  cases hrooted : isRooted path with
  | true =>
      obtain ⟨c, rest, rfl⟩ := List.exists_cons_of_ne_nil hpath
      obtain rfl : c = '/' := Option.some.inj (beq_iff_eq.mp hrooted)
      have hnames : (names ('/' :: rest)).Sublist (Text.pieces '/' rest) :=
        resolve_sublist true (Text.pieces '/' rest)
      have hjoined := Text.joined_sublist ['/'] hnames
      rw [Text.joined_pieces] at hjoined
      exact hjoined.cons_cons '/'
  | false =>
      rw [normalize, hrooted, ofNames, if_neg Bool.false_ne_true]
      by_cases hnames : names path = []
      · rw [if_pos hnames]
        exact List.singleton_sublist.mpr (dot_mem_of_names_eq_nil hpath hrooted hnames)
      · rw [if_neg hnames]
        have hjoined := Text.joined_sublist ['/'] (resolve_sublist (isRooted path) (Text.pieces '/' path))
        rwa [Text.joined_pieces] at hjoined

/-! ## What a normal path looks like -/

theorem pieces_ofNames_rooted {below : List Text} (hne : below ≠ [])
    (hfree : ∀ name ∈ below, '/' ∉ name) :
    Text.pieces '/' (ofNames true below) = [] :: below := by
  have hrest : Text.pieces '/' ('/' :: Text.joined ['/'] below) =
      [] :: Text.pieces '/' (Text.joined ['/'] below) := rfl
  exact hrest.trans (congrArg ([] :: ·) (Text.pieces_joined hne hfree))

theorem pieces_ofNames_relative {way : List Text} (hne : way ≠ [])
    (hfree : ∀ name ∈ way, '/' ∉ name) : Text.pieces '/' (ofNames false way) = way := by
  rw [ofNames, if_neg Bool.false_ne_true, if_neg hne]
  exact Text.pieces_joined hne hfree

/-- The names of a path are those of its normal form. -/
theorem names_normalize (path : Text) : names (normalize path) = names path := by
  cases hrooted : isRooted path with
  | true =>
      rw [normalize, hrooted]
      exact names_ofNames (belowRoot_names hrooted)
  | false =>
      rw [normalize, hrooted]
      by_cases hnames : names path = []
      · rw [hnames]
        rfl
      · obtain ⟨hway, hdown, -⟩ := resolve_way (Text.pieces '/' path)
        have hfree : ∀ name ∈ names path, '/' ∉ name := fun _ => slash_not_mem_of_mem_names
        have hrelative : isRooted (ofNames false (names path)) = false :=
          isRooted_ofNames (fun _ => ne_nil_of_mem_resolve) hfree
        rw [names, hrelative, pieces_ofNames_relative hnames hfree, names, hrooted, hway,
          resolve_replicate_up_append _ hdown]

theorem normalize_normalize (path : Text) : normalize (normalize path) = normalize path := by
  rw [normalize, isRooted_normalize, names_normalize, normalize]

/-- The normal form of a path is rooted just as the path is.  Between its slashes stand names that
are neither empty nor dots, below the root; or else steps up come before them, or it is the dot
alone.  It is its own normal form, and no path but the empty one is written with fewer
characters or bytes and has it: all characters of the normal form stand in every such path. -/
theorem normalize_canonical (p : Text) :
    isRooted (normalize p) = isRooted p ∧
      (isRooted p = true → normalize p = ['/'] ∨
        ∃ below, Text.pieces '/' (normalize p) = [] :: below ∧ ∀ name ∈ below, Ordinary name) ∧
      (isRooted p = false → normalize p = here ∨
        ∃ n below, Text.pieces '/' (normalize p) = List.replicate n up ++ below ∧
          ∀ name ∈ below, Ordinary name) ∧
      normalize (normalize p) = normalize p ∧
      ∀ q, q ≠ [] → normalize q = normalize p →
        (normalize p).Sublist q ∧ (normalize p).length ≤ q.length ∧
          (Utf8.encode (normalize p)).length ≤ (Utf8.encode q).length := by
  have hfree : ∀ name ∈ names p, '/' ∉ name := fun _ => slash_not_mem_of_mem_names
  refine ⟨isRooted_normalize p, fun hrooted => ?_, fun hrooted => ?_, normalize_normalize p,
    fun q hq hsame => ?_⟩
  · have hbelow : BelowRoot (names p) := belowRoot_names hrooted
    rw [normalize, hrooted, ofNames_eq_root_iff hbelow]
    by_cases hnames : names p = []
    · exact .inl hnames
    · exact .inr ⟨names p, pieces_ofNames_rooted hnames hfree, hbelow.ordinary⟩
  · rw [normalize, hrooted]
    by_cases hnames : names p = []
    · left
      rw [hnames]
      rfl
    · right
      obtain ⟨hway, hbelow, -⟩ := resolve_way (Text.pieces '/' p)
      refine ⟨ascent (Text.pieces '/' p), descent (Text.pieces '/' p), ?_, hbelow⟩
      rw [pieces_ofNames_relative hnames hfree, ← hway, names, hrooted]
  · have hsublist : (normalize p).Sublist q := hsame ▸ normalize_sublist hq
    exact ⟨hsublist, hsublist.length_le, (hsublist.flatMap _).length_le⟩

/-- A rooted path that tries to leave the root, and two relative paths that both go up first. -/
theorem normalize_canonical_detours :
    let rooted := "/../a//./b/..".toList
    let p := "x/../../b/./c/".toList
    let q := "..//b/c".toList
    isRooted rooted = true ∧ normalize rooted ≠ ['/'] ∧
      (∃ below, Text.pieces '/' (normalize rooted) = [] :: below ∧
        ∀ name ∈ below, Ordinary name) ∧
      isRooted p = false ∧ normalize p ≠ here ∧
      (∃ n below, Text.pieces '/' (normalize p) = List.replicate n up ++ below ∧
        ∀ name ∈ below, Ordinary name) ∧
      q ≠ [] ∧ normalize q = normalize p ∧ (normalize p).Sublist q ∧ (normalize p).length < q.length := by
  intro rooted p q
  have hrooted : normalize rooted ≠ ['/'] := by decide
  have hp : normalize p ≠ here := by decide
  have hsame : normalize q = normalize p := by decide
  obtain ⟨-, hbelow, -⟩ := normalize_canonical rooted
  obtain ⟨-, -, hway, -, hshortest⟩ := normalize_canonical p
  exact ⟨rfl, hrooted, (hbelow rfl).resolve_left hrooted, rfl, hp, (hway rfl).resolve_left hp,
    List.cons_ne_nil _ _, hsame, (hshortest q (List.cons_ne_nil _ _) hsame).1, by decide⟩

end PageTemplates.Path
