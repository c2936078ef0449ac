import PageTemplates.Proofs.Path.Shortest

/-!
Joining in steps is joining at once.  What follows a path is resolved from the names
that the path is resolved to, and a normal path is resolved to the same names as the
path that it is made from.  So it does not matter whether a path is made normal before
more is put behind it, as long as there is a path: before an empty one the rest would
begin at the root.
-/

namespace PageTemplates.Path

/-- What follows is resolved from where one is, however one came there. -/
theorem resolve_append_congr {rooted : Bool} {base other : List Text}
    (hsame : resolve rooted base = resolve rooted other) (way : List Text) :
    resolve rooted (base ++ way) = resolve rooted (other ++ way) := by
  have hreached : base.foldl (enter rooted) [] = other.foldl (enter rooted) [] :=
    List.reverse_injective hsame
  rw [resolve, resolve, List.foldl_append, List.foldl_append, hreached]

theorem isRooted_append {path : Text} (hpath : path ≠ []) (rest : Text) :
    isRooted (path ++ rest) = isRooted path := by
  rw [isRooted, isRooted, List.head?_append_of_ne_nil path hpath]

theorem names_append_slash {path : Text} (hpath : path ≠ []) (rest : Text) :
    names (path ++ '/' :: rest) = resolve (isRooted path) (steps path ++ steps rest) := by
  rw [names_eq_resolve_steps, isRooted_append hpath, steps_append_slash]

/-- A normal path has at least one character; the empty path is written as a dot. -/
theorem normalize_ne_nil (path : Text) : normalize path ≠ [] := by
  intro hnil
  have hagain := normalize_normalize path
  rw [hnil] at hagain
  exact absurd hagain (by decide)

/-- A path may be made normal before more is put behind it. -/
theorem normalize_normalize_append {path : Text} (hpath : path ≠ []) (rest : Text) :
    normalize (normalize path ++ '/' :: rest) = normalize (path ++ '/' :: rest) := by
  have hrooted : isRooted (normalize path) = isRooted path := isRooted_normalize path
  have hsame : resolve (isRooted path) (steps (normalize path)) =
      resolve (isRooted path) (steps path) := by
    have hnames := names_normalize path
    rwa [names_eq_resolve_steps, names_eq_resolve_steps, hrooted] at hnames
  rw [normalize, isRooted_append (normalize_ne_nil path), names_append_slash (normalize_ne_nil path),
    hrooted, resolve_append_congr hsame, ← names_append_slash hpath, ← isRooted_append hpath,
    ← normalize]

/-- Nothing in front of a slash is the root, and made normal first it is the dot. -/
theorem normalize_normalize_append_ne (rest : Text) :
    normalize (normalize [] ++ '/' :: rest) ≠ normalize ([] ++ '/' :: rest) := by
  intro hsame
  have hrooted := congrArg isRooted hsame
  rw [isRooted_normalize, isRooted_normalize] at hrooted
  exact absurd hrooted Bool.false_ne_true

theorem join_eq (base : Text) (more : List Text) :
    join base more =
      if (base :: more).filter (· ≠ []) = [] then []
      else normalize (Text.joined ['/'] ((base :: more).filter (· ≠ []))) := by
  rw [join]
  split
  · next hnone => rw [if_pos hnone]
  · next hsome => rw [if_neg hsome]

/-- The parts behind a path are put behind it one by one, or behind its normal form. -/
theorem normalize_joined_append {parts : List Text} (hparts : Text.joined ['/'] parts ≠ [])
    (more : List Text) :
    normalize (Text.joined ['/'] (normalize (Text.joined ['/'] parts) :: more)) =
      normalize (Text.joined ['/'] (parts ++ more)) := by
  cases more with
  | nil =>
      rw [List.append_nil]
      exact normalize_normalize _
  | cons next others =>
      have hne : parts ≠ [] := by
        rintro rfl
        exact hparts rfl
      rw [Text.joined_append ['/'] hne (List.cons_ne_nil next others), Text.joined, List.append_assoc,
        List.append_assoc]
      exact normalize_normalize_append hparts _

/-- Joining in steps gives the same path as joining at once, whatever the elements are.  The
reason is that a path can be made normal before it is continued, which fails for the empty
path alone. -/
theorem join_join :
    (∀ (base : Text) (more further : List Text),
      join (join base more) further = join base (more ++ further)) ∧
    ∀ path rest : Text,
      normalize (normalize path ++ '/' :: rest) = normalize (path ++ '/' :: rest) ↔ path ≠ [] := by
  refine ⟨fun base more further => ?_, fun path rest => ⟨?_, fun hpath => ?_⟩⟩
  · rw [join_eq base (more ++ further), ← List.cons_append, List.filter_append, join_eq base more]
    have hpart : ∀ part ∈ (base :: more).filter (· ≠ []), part ≠ [] :=
      fun part hpart => of_decide_eq_true (List.mem_filter.mp hpart).2
    generalize (base :: more).filter (· ≠ []) = parts at hpart
    by_cases hnone : parts = []
    · rw [if_pos hnone, hnone, List.nil_append, join_eq, List.filter_cons_of_neg (by simp)]
    · rw [if_neg hnone, if_neg (List.append_ne_nil_of_left_ne_nil hnone _), join_eq,
        List.filter_cons_of_pos (by simp [normalize_ne_nil]), if_neg (List.cons_ne_nil _ _)]
      exact normalize_joined_append (Text.joined_ne_nil ['/'] hnone hpart) _
  · rintro hsame rfl
    exact normalize_normalize_append_ne rest hsame
  · exact normalize_normalize_append hpath rest

example : normalize (normalize [] ++ "/a".toList) = "a".toList ∧
    normalize ([] ++ "/a".toList) = "/a".toList := by
  decide

end PageTemplates.Path
