import PageTemplates.Proofs.Path.Within

/-!
Containment of relative paths, and of what they become below a directory.  A relative
path is some steps up and then names, and it is compared as it is written.  Below a
directory the steps up take back names of the directory instead, so there the names
that one path leaves and the other takes back matter too.  The two comparisons agree
for paths that go up equally far, but for the path that leads nowhere: it is written as
a dot, and nothing else begins with that.
-/

namespace PageTemplates.Path

/-! ## Relative paths as they are written -/

theorem names_relative {path : Text} (hpath : isRooted path = false) :
    names path = List.replicate (ascent (steps path)) up ++ descent (steps path) := by
  rw [names_eq_resolve_steps, hpath]
  exact (resolve_way (steps path)).1

theorem normalize_eq_here_iff {path : Text} (hpath : isRooted path = false) :
    normalize path = here ↔ names path = [] := by
  constructor
  · intro hhere
    rw [← names_normalize, hhere]
    rfl
  · intro hnames
    rw [normalize, hpath, hnames]
    rfl

/-- The path that leads nowhere goes no step up and adds no name. -/
theorem names_relative_eq_nil_iff {path : Text} (hpath : isRooted path = false) :
    names path = [] ↔ ascent (steps path) = 0 ∧ descent (steps path) = [] := by
  rw [names_relative hpath, List.append_eq_nil_iff, List.replicate_eq_nil_iff]

theorem here_not_mem_names {path : Text} (hpath : isRooted path = false) : here ∉ names path := by
  rw [names_relative hpath, List.mem_append, not_or]
  refine ⟨fun hup => ?_, fun hdown => ?_⟩
  · exact absurd (List.eq_of_mem_replicate hup) (by decide)
  · exact ((resolve_way (steps path)).2.1 here hdown).2.1 rfl

/-- Steps up and then names begin with others only if the names do after as many steps, or if the
others are fewer steps and no names. -/
theorem replicate_up_append_prefix_iff {n m : Nat} {down other : List Text}
    (hdown : ∀ name ∈ down, Ordinary name) (hother : ∀ name ∈ other, Ordinary name) :
    List.replicate m up ++ other <+: List.replicate n up ++ down ↔
      (n = m ∧ other <+: down) ∨ (m < n ∧ other = []) := by
  rcases Nat.lt_trichotomy n m with hlt | rfl | hgt
  · obtain ⟨k, rfl⟩ := Nat.exists_eq_add_of_lt hlt
    rw [Nat.add_assoc, List.replicate_add, List.append_assoc, List.prefix_append_right_inj]
    constructor
    · intro hbegins
      exact absurd rfl (hdown up (hbegins.subset List.mem_cons_self)).2.2
    · rintro (⟨heq, -⟩ | ⟨hless, -⟩) <;> omega
  · rw [List.prefix_append_right_inj]
    simp
  · obtain ⟨k, rfl⟩ := Nat.exists_eq_add_of_lt hgt
    rw [Nat.add_assoc, List.replicate_add, List.append_assoc, List.prefix_append_right_inj]
    constructor
    · intro hbegins
      cases other with
      | nil => exact .inr ⟨hgt, rfl⟩
      | cons name rest =>
          have hname : name = up := (List.cons_prefix_cons.mp hbegins).1
          exact absurd hname (hother name List.mem_cons_self).2.2
    · rintro (⟨heq, -⟩ | ⟨-, rfl⟩)
      · omega
      · exact List.nil_prefix

/-- Relative paths are compared by their names, and within the path that leads nowhere lies only
that path itself. -/
theorem isWithin_iff_names {current path : Text} (hcurrent : isRooted current = false)
    (hpath : isRooted path = false) :
    isWithin current path = true ↔
      names path <+: names current ∧ (normalize path = here → normalize current = here) := by
  rw [isWithin_iff_trail, trail_relative hcurrent, trail_relative hpath,
    normalize_eq_here_iff hcurrent, normalize_eq_here_iff hpath]
  by_cases hp : names path = [] <;> by_cases hc : names current = []
  · simp [hp, hc]
  · -- The dot would have to be the first name.
    have hfirst : ¬ [here] <+: names current :=
      fun hbegins => here_not_mem_names hcurrent (hbegins.subset List.mem_cons_self)
    simp [hp, hc, hfirst]
  · have hfirst : ¬ names path <+: [here] := by
      intro hbegins
      rcases List.prefix_cons_iff.mp hbegins with hnone | ⟨rest, hrest, -⟩
      · exact hp hnone
      · exact here_not_mem_names hpath (hrest ▸ List.mem_cons_self)
    simp [hp, hc, hfirst]
  · simp [hp, hc]

/-- A relative path lies within another, as they are written, when it goes up equally far and its
names begin with the other's, but within the path that leads nowhere lies only that path itself.
And everything that goes further up than a path of steps up alone lies within that path. -/
theorem isWithin_relative_iff {current path : Text} (hcurrent : isRooted current = false)
    (hpath : isRooted path = false) :
    isWithin current path = true ↔
      (ascent (steps current) = ascent (steps path) ∧
        descent (steps path) <+: descent (steps current) ∧
          (normalize path = here → normalize current = here)) ∨
      (0 < ascent (steps path) ∧ ascent (steps path) < ascent (steps current) ∧
        descent (steps path) = []) := by
  have hcurrentDown := (resolve_way (steps current)).2.1
  have hpathDown := (resolve_way (steps path)).2.1
  rw [isWithin_iff_names hcurrent hpath, names_relative hcurrent, names_relative hpath,
    replicate_up_append_prefix_iff hcurrentDown hpathDown, or_and_right, and_assoc]
  apply or_congr_right
  rw [normalize_eq_here_iff hpath, normalize_eq_here_iff hcurrent, names_relative_eq_nil_iff hpath,
    names_relative_eq_nil_iff hcurrent]
  constructor
  · rintro ⟨⟨hfurther, hnone⟩, hnowhere⟩
    refine ⟨Nat.pos_of_ne_zero fun hzero => ?_, hfurther, hnone⟩
    have hcurrentZero := (hnowhere ⟨hzero, hnone⟩).1
    omega
  · rintro ⟨hpos, hfurther, hnone⟩
    exact ⟨⟨hfurther, hnone⟩, fun hnowhere => absurd hnowhere.1 hpos.ne'⟩

/-! ## Relative paths below a directory -/

/-- The names of a directory that `few` steps up leave and `many` steps up take back. -/
def spared (base : List Text) (few many : Nat) : List Text :=
  (base.rtake many).rdrop few

theorem rdrop_append_spared (base : List Text) {few many : Nat} (hle : few ≤ many) :
    base.rdrop many ++ spared base few many = base.rdrop few := by
  have hlength : base.length - few =
      (base.length - many) + ((base.length - (base.length - many)) - few) := by omega
  rw [spared, List.rdrop, List.rdrop, List.rtake, List.rdrop, List.length_drop, hlength,
    List.take_add]

theorem names_below {base : Text} (hbase : isRooted base = true) (path : Text) :
    names (base ++ '/' :: path) =
      (names base).rdrop (ascent (steps path)) ++ descent (steps path) := by
  have hne : base ≠ [] := List.ne_nil_of_mem (slash_mem_of_isRooted hbase)
  rw [names_append_slash hne, hbase, resolve_rooted_append, names_eq_resolve_steps, hbase]

theorem isWithin_below_iff {base : Text} (hbase : isRooted base = true) (current path : Text) :
    isWithin (base ++ '/' :: current) (base ++ '/' :: path) = true ↔
      (names base).rdrop (ascent (steps path)) ++ descent (steps path) <+:
        (names base).rdrop (ascent (steps current)) ++ descent (steps current) := by
  have hne : base ≠ [] := List.ne_nil_of_mem (slash_mem_of_isRooted hbase)
  have hrooted : ∀ rest, isRooted (base ++ rest) = true :=
    fun rest => (isRooted_append hne rest).trans hbase
  rw [isWithin_rooted_iff (hrooted _) (hrooted _), names_below hbase, names_below hbase]

/-- Whether a relative path lies within another is asked of the paths as they are, and of both below
a rooted directory.  The answers agree, for paths that go up equally far, unless the outer one
leads nowhere and the inner one does not.  When the outer path goes further up, it must not come
back through the names that the inner one leaves.  When the inner path goes further up, the outer
one must be steps up and nothing else exactly if the inner one comes back through its names. -/
theorem isWithin_below_eq_iff {base current path : Text} (hbase : isRooted base = true)
    (hcurrent : isRooted current = false) (hpath : isRooted path = false) :
    isWithin current path = isWithin (base ++ '/' :: current) (base ++ '/' :: path) ↔
      (ascent (steps current) = ascent (steps path) →
        normalize path = here → normalize current = here) ∧
      (ascent (steps current) < ascent (steps path) →
        ¬ descent (steps path) <+:
          spared (names base) (ascent (steps current)) (ascent (steps path)) ++
            descent (steps current)) ∧
      (ascent (steps path) < ascent (steps current) →
        (0 < ascent (steps path) ∧ descent (steps path) = [] ↔
          spared (names base) (ascent (steps path)) (ascent (steps current)) ++
            descent (steps path) <+: descent (steps current))) := by
  rw [Bool.eq_iff_iff, isWithin_below_iff hbase, isWithin_relative_iff hcurrent hpath]
  rcases Nat.lt_trichotomy (ascent (steps current)) (ascent (steps path)) with hlt | heq | hgt
  · rw [← rdrop_append_spared (names base) hlt.le, List.append_assoc, List.prefix_append_right_inj]
    simp [hlt, hlt.ne, hlt.not_gt]
  · -- A path that leads nowhere adds no names, so below the directory everything lies in it.
    have hnowhere : normalize path = here → descent (steps path) <+: descent (steps current) := by
      rw [normalize_eq_here_iff hpath, names_relative_eq_nil_iff hpath]
      rintro ⟨-, hnone⟩
      rw [hnone]
      exact List.nil_prefix
    rw [heq, List.prefix_append_right_inj]
    simp only [lt_irrefl, false_and, and_false, or_false, true_and, forall_const,
      IsEmpty.forall_iff, and_true, and_iff_left_iff_imp]
    exact ⟨fun h hhere => h (hnowhere hhere) hhere, fun h _ => h⟩
  · rw [← rdrop_append_spared (names base) hgt.le, List.append_assoc, List.prefix_append_right_inj]
    simp [hgt, hgt.ne', hgt.not_gt]

/-- The inner path goes up out of two directories and back into one, which is the outer path in the
one place and not in the other. -/
theorem isWithin_below_eq_back :
    let current := "../../www/x/a".toList
    let path := "..".toList
    isRooted "/srv/www/x".toList = true ∧ isRooted "/srv/old/x".toList = true ∧
      isRooted current = false ∧ isRooted path = false ∧
      isWithin current path = isWithin ("/srv/www/x".toList ++ '/' :: current)
        ("/srv/www/x".toList ++ '/' :: path) ∧
      isWithin current path ≠ isWithin ("/srv/old/x".toList ++ '/' :: current)
        ("/srv/old/x".toList ++ '/' :: path) := by
  intro current path
  have hcurrent : isRooted current = false := rfl
  have hpath : isRooted path = false := rfl
  refine ⟨rfl, rfl, hcurrent, hpath, ?_, ?_⟩
  · rw [isWithin_below_eq_iff rfl hcurrent hpath]
    decide
  · rw [ne_eq, isWithin_below_eq_iff rfl hcurrent hpath]
    decide

/-- The path two levels up is written so that it begins with the path one level up, which it does
not lie in; and a name does not begin with a dot, but lies where one is. -/
theorem isWithin_upward :
    isWithin "../..".toList "..".toList = true ∧
      isWithin ("/a/b".toList ++ '/' :: "../..".toList) ("/a/b".toList ++ '/' :: "..".toList) = false ∧
      isWithin "a".toList ".".toList = false ∧
      isWithin ("/a/b".toList ++ '/' :: "a".toList) ("/a/b".toList ++ '/' :: ".".toList) = true ∧
      isRooted "/a/b".toList = true ∧ (names "/a/b".toList).length = 2 ∧
      ∀ path ∈ ["../..".toList, "..".toList, "a".toList, ".".toList],
        isRooted path = false ∧ ascent (steps path) ≤ 2 := by
  decide

end PageTemplates.Path
