import PageTemplates.Proofs.Path.Joining

/-!
Containment of paths, rooted or not.  Normal paths are compared as texts, each with a
slash behind it, and so they are compared name by name: one path lies within another
exactly when what stands between its slashes begins with what stands between the
other's.  So containment is an order on normal paths, and for rooted paths it is the
prefix order on their names.
-/

namespace PageTemplates.Path

/-! ## Containment as an order of texts -/

/-- A path with a slash behind it, which the root has already. -/
def closed (path : Text) : Text :=
  if path = ['/'] then path else path ++ ['/']

theorem root_prefix_iff {path : Text} : ['/'] <+: path ↔ isRooted path = true := by
  cases path with
  | nil => simp [isRooted]
  | cons c rest =>
      rw [List.cons_prefix_cons, and_iff_left List.nil_prefix]
      exact eq_comm.trans beq_iff_eq.symm

theorem root_prefix_closed_iff {path : Text} (hpath : path ≠ []) :
    ['/'] <+: closed path ↔ isRooted path = true := by
  rw [root_prefix_iff, closed]
  split
  · rfl
  · rw [isRooted_append hpath]

/-- Below a path that is not the root stand the path itself and what goes on from it behind a
slash. -/
theorem append_slash_prefix_closed_iff {current path : Text} (hpath : path ≠ ['/']) :
    path ++ ['/'] <+: closed current ↔ current = path ∨ path ++ ['/'] <+: current := by
  by_cases hcurrent : current = ['/']
  · rw [closed, if_pos hcurrent, or_iff_right]
    rintro rfl
    exact hpath hcurrent
  · rw [closed, if_neg hcurrent, List.prefix_concat_iff, List.append_left_inj, eq_comm]

theorem isPrefixOf_and_isRooted_drop_iff {current path : Text} :
    (path.isPrefixOf current && isRooted (current.drop path.length)) = true ↔
      path ++ ['/'] <+: current := by
  rw [Bool.and_eq_true, List.isPrefixOf_iff_prefix]
  constructor
  · rintro ⟨⟨rest, rfl⟩, hrest⟩
    rw [List.drop_left, ← root_prefix_iff] at hrest
    exact (List.prefix_append_right_inj path).mpr hrest
  · intro hbegins
    obtain ⟨rest, rfl⟩ := (List.prefix_append path ['/']).trans hbegins
    rw [List.prefix_append_right_inj] at hbegins
    rw [List.drop_left, ← root_prefix_iff]
    exact ⟨List.prefix_append path rest, hbegins⟩

theorem isWithin_iff_closed {current path : Text} :
    isWithin current path = true ↔ closed (normalize path) <+: closed (normalize current) := by
  simp only [isWithin]
  by_cases hroot : normalize path = ['/']
  · rw [if_pos hroot, hroot]
    exact (root_prefix_closed_iff (normalize_ne_nil current)).symm
  · have hclosed : closed (normalize path) = normalize path ++ ['/'] := if_neg hroot
    rw [if_neg hroot, Bool.or_eq_true, decide_eq_true_iff, isPrefixOf_and_isRooted_drop_iff, hclosed,
      append_slash_prefix_closed_iff hroot]

/-! ## Containment name by name -/

/-- What stands between the slashes of the normal path.  The root has one slash and nothing before
it. -/
def trail (path : Text) : List Text :=
  if normalize path = ['/'] then [[]] else Text.pieces '/' (normalize path)

theorem slash_not_mem_of_mem_trail {path name : Text} (hname : name ∈ trail path) :
    '/' ∉ name := by
  rw [trail] at hname
  split at hname
  · rw [List.mem_singleton.mp hname]
    exact List.not_mem_nil
  · exact Text.not_mem_of_mem_pieces hname

theorem ended_trail (path : Text) : Text.ended '/' (trail path) = closed (normalize path) := by
  rw [trail, closed]
  split
  · next hroot => exact hroot.symm
  · rw [Text.ended_eq_joined_append '/' (Text.pieces_ne_nil _ _), Text.joined_pieces]

/-- One path lies within another exactly when its names begin with the other's. -/
theorem isWithin_iff_trail {current path : Text} :
    isWithin current path = true ↔ trail path <+: trail current := by
  rw [isWithin_iff_closed, ← ended_trail, ← ended_trail]
  exact Text.ended_prefix_iff (fun _ => slash_not_mem_of_mem_trail)
    fun _ => slash_not_mem_of_mem_trail

theorem eq_of_closed {path other : Text} (hpath : path ≠ []) (hother : other ≠ [])
    (hsame : closed path = closed other) : path = other := by
  rw [closed, closed] at hsame
  split at hsame <;> split at hsame
  · exact hsame
  · simp_all
  · simp_all
  · exact List.append_cancel_right hsame

theorem trail_eq_trail_iff {path other : Text} :
    trail path = trail other ↔ normalize path = normalize other := by
  constructor
  · intro hsame
    apply eq_of_closed (normalize_ne_nil path) (normalize_ne_nil other)
    rw [← ended_trail, ← ended_trail, hsame]
  · intro hsame
    rw [trail, trail, hsame]

theorem trail_rooted {path : Text} (hpath : isRooted path = true) :
    trail path = [] :: names path := by
  have hbelow : BelowRoot (names path) := belowRoot_names hpath
  rw [trail, normalize, hpath]
  by_cases hnames : names path = []
  · rw [hnames]
    rfl
  · rw [if_neg (mt (ofNames_eq_root_iff hbelow).mp hnames),
      pieces_ofNames_rooted hnames hbelow.free]

theorem trail_relative {path : Text} (hpath : isRooted path = false) :
    trail path = if names path = [] then [here] else names path := by
  have hroot : normalize path ≠ ['/'] := by
    intro hroot
    have hrooted := isRooted_normalize path
    rw [hroot, hpath] at hrooted
    exact absurd hrooted (by decide)
  rw [trail, if_neg hroot, normalize, hpath]
  by_cases hnames : names path = []
  · rw [hnames]
    rfl
  · rw [if_neg hnames, pieces_ofNames_relative hnames fun _ => slash_not_mem_of_mem_names]

/-! ## What containment is -/

/-- Rooted paths are compared by their names below the root. -/
theorem isWithin_rooted_iff {current path : Text} (hcurrent : isRooted current = true)
    (hpath : isRooted path = true) :
    isWithin current path = true ↔ names path <+: names current := by
  rw [isWithin_iff_trail, trail_rooted hcurrent, trail_rooted hpath, List.prefix_cons_inj]

theorem isWithin_ofNames_iff {inner outer : List Text} (hinner : BelowRoot inner)
    (houter : BelowRoot outer) :
    isWithin (ofNames true inner) (ofNames true outer) = true ↔ outer <+: inner := by
  rw [isWithin_rooted_iff rfl rfl, names_ofNames hinner, names_ofNames houter]

theorem isWithin_normalize_left (current path : Text) :
    isWithin (normalize current) path = isWithin current path := by
  simp only [isWithin, normalize_normalize]

theorem isWithin_normalize_right (current path : Text) :
    isWithin current (normalize path) = isWithin current path := by
  simp only [isWithin, normalize_normalize]

theorem steps_normalize_rooted {path : Text} (hpath : isRooted path = true) :
    steps (normalize path) = names path := by
  rw [normalize, hpath]
  exact steps_ofNames (belowRoot_names hpath)

/-- A rooted path lies within another exactly when its names begin with the other's, once both
are normal.  Among all paths, rooted or not, containment is reflexive and transitive, it does not
tell a path from its normal form, and two paths that lie within each other have the same one. -/
theorem isWithin_order :
    (∀ current path : Text, isRooted current = true → isRooted path = true →
      (isWithin current path = true ↔ steps (normalize path) <+: steps (normalize current))) ∧
    (∀ path : Text, isWithin path path = true) ∧
    (∀ inner middle outer : Text, isWithin inner middle = true → isWithin middle outer = true →
      isWithin inner outer = true) ∧
    (∀ current path : Text, isWithin (normalize current) path = isWithin current path ∧
      isWithin current (normalize path) = isWithin current path) ∧
    ∀ current path : Text, (isWithin current path = true ∧ isWithin path current = true) ↔
      normalize current = normalize path := by
  refine ⟨fun current path hcurrent hpath => ?_, fun path => ?_, fun inner middle outer => ?_,
    fun current path => ?_, fun current path => ?_⟩
  · rw [isWithin_rooted_iff hcurrent hpath, steps_normalize_rooted hcurrent,
      steps_normalize_rooted hpath]
  · exact isWithin_iff_trail.mpr List.prefix_rfl
  · simp only [isWithin_iff_trail]
    exact fun hinner houter => houter.trans hinner
  · exact ⟨isWithin_normalize_left current path, isWithin_normalize_right current path⟩
  · simp only [isWithin_iff_trail, ← trail_eq_trail_iff]
    constructor
    · rintro ⟨hbegins, hback⟩
      exact hback.eq_of_length_le hbegins.length_le
    · intro hsame
      rw [hsame]
      exact ⟨List.prefix_rfl, List.prefix_rfl⟩

/-- A page below a section, both written with detours, and three relative paths each of which lies
in the next. -/
theorem isWithin_order_detours :
    let page := "/old/../a//b/./c".toList
    let outer := "/a/x/../b/".toList
    isRooted page = true ∧ isRooted outer = true ∧
      steps (normalize outer) <+: steps (normalize page) ∧ isWithin page outer = true ∧
      isWithin "a/b/c".toList "a/./b".toList = true ∧ isWithin "a/./b".toList "a/x/..".toList = true ∧
      isWithin "a/b/c".toList "a/x/..".toList = true := by
  intro page outer
  obtain ⟨hnames, -, htrans, -, -⟩ := isWithin_order
  have hbegins : steps (normalize outer) <+: steps (normalize page) := by decide
  have hinner : isWithin "a/b/c".toList "a/./b".toList = true := by decide
  have houter : isWithin "a/./b".toList "a/x/..".toList = true := by decide
  exact ⟨rfl, rfl, hbegins, (hnames page outer rfl rfl).mpr hbegins, hinner, houter,
    htrans _ _ _ hinner houter⟩

end PageTemplates.Path
