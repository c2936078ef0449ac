import PageTemplates.Path.Ancestors
import PageTemplates.Proofs.Path.Relative
import PageTemplates.Proofs.Path.Within

/-!
The way outward from a path, one step after the other.  A step cuts a path before its
last slash, so every path on the way is shorter than the one before it and the way
ends.  For a normal rooted path a step takes away the last name: the paths on the way
are those that the path lies within, and the last is the root.
-/

namespace PageTemplates.Path

/-! ## One step -/

/-- The next path outward: what stands before the last slash, or the root when nothing
does.  There is none from the root, and none without a slash. -/
def outward? (path : Text) : Option Text :=
  if path = ['/'] ∨ '/' ∉ path then none
  else if directory path = ['/'] then some ['/']
  else some (directory path).dropLast

theorem outward?_of_not_mem {path : Text} (hpath : '/' ∉ path) : outward? path = none :=
  if_pos (.inr hpath)

theorem outward?_append_slash (above : Text) {last : Text} (hpath : above ++ '/' :: last ≠ ['/'])
    (hlast : '/' ∉ last) :
    outward? (above ++ '/' :: last) = some (if above = [] then ['/'] else above) := by
  have hmore : ¬ (above ++ '/' :: last = ['/'] ∨ '/' ∉ above ++ '/' :: last) := by
    simp [hpath]
  rw [outward?, if_neg hmore, directory_append_slash above hlast]
  by_cases habove : above = []
  · simp [habove]
  · simp [habove]

theorem above_append_of_not_mem {last : Text} (hlast : '/' ∉ last) (rest : Text) :
    above (last ++ rest) = above rest := by
  induction last with
  | nil => rfl
  | cons c others ih =>
      rw [List.mem_cons, not_or] at hlast
      rw [List.cons_append, above, if_neg (Ne.symm hlast.1), ih hlast.2]

/-- The way outward from a path is the path and then the way from the next one. -/
theorem ancestors_eq (path : Text) :
    ancestors path = path :: ((outward? path).map ancestors).getD [] := by
  by_cases hroot : path = ['/']
  · subst hroot
    rfl
  by_cases hslash : '/' ∈ path
  · obtain ⟨before, last, rfl, hlast⟩ := Text.exists_last_occurrence hslash
    have hreverse : (before ++ '/' :: last).reverse = last.reverse ++ '/' :: before.reverse := by
      simp
    rw [outward?_append_slash before hroot hlast, ancestors, if_neg hroot, hreverse,
      above_append_of_not_mem (mt List.mem_reverse.mp hlast), above, if_pos rfl, Option.map_some,
      Option.getD_some]
    by_cases hbefore : before = [] ∨ before = ['/']
    · rcases hbefore with rfl | rfl <;> rfl
    · rw [not_or] at hbefore
      simp [ancestors, hbefore]
  · have hnone : above path.reverse = [] := by
      have hdone := above_append_of_not_mem (mt List.mem_reverse.mp hslash) []
      rwa [List.append_nil] at hdone
    rw [ancestors, if_neg hroot, hnone, outward?_of_not_mem hslash]
    rfl

theorem head?_ancestors (path : Text) : (ancestors path).head? = some path := by
  rw [ancestors_eq]
  rfl

/-- A step outward leaves out at least the last character. -/
theorem exists_append_of_outward? {path next : Text} (hnext : outward? path = some next) :
    ∃ c rest, path = next ++ c :: rest := by
  have hmore : ¬ (path = ['/'] ∨ '/' ∉ path) := by
    intro hend
    rw [outward?, if_pos hend] at hnext
    cases hnext
  rw [not_or, not_not] at hmore
  obtain ⟨above, last, rfl, hlast⟩ := Text.exists_last_occurrence hmore.2
  rw [outward?_append_slash above hmore.1 hlast, Option.some.injEq] at hnext
  subst hnext
  by_cases habove : above = []
  · subst habove
    obtain ⟨c, rest, rfl⟩ : ∃ c rest, last = c :: rest :=
      List.exists_cons_of_ne_nil fun hnone => hmore.1 (by rw [hnone]; rfl)
    exact ⟨c, rest, rfl⟩
  · rw [if_neg habove]
    exact ⟨'/', last, rfl⟩

theorem shorter_of_outward? {path next : Text} (hnext : outward? path = some next) :
    next.length < path.length ∧ (Utf8.encode next).length < (Utf8.encode path).length := by
  obtain ⟨c, rest, rfl⟩ := exists_append_of_outward? hnext
  have hpoint : 0 < (Utf8.encodePoint c.toNat).length := by
    unfold Utf8.encodePoint
    split_ifs <;> simp
  constructor
  · simp
  · simp only [Utf8.encode, List.flatMap_append, List.flatMap_cons, List.length_append]
    omega

/-! ## The whole way -/

/-- The path that an iteration outward from `path` shows after `n` steps; none when it has
ended. -/
def shown? (path : Text) : Nat → Option Text
  | 0 => some path
  | n + 1 => (shown? path n).bind outward?

theorem getElem?_ancestors_succ (path : Text) (n : Nat) :
    (ancestors path)[n + 1]? = (ancestors path)[n]?.bind outward? := by
  induction n generalizing path with
  | zero =>
      rw [ancestors_eq, List.getElem?_cons_succ, List.getElem?_cons_zero, Option.bind_some]
      cases outward? path with
      | none => rfl
      | some next =>
          rw [Option.map_some, Option.getD_some, ← List.head?_eq_getElem?]
          exact head?_ancestors next
  | succ n ih =>
      rw [ancestors_eq, List.getElem?_cons_succ, List.getElem?_cons_succ]
      cases outward? path with
      | none => rfl
      | some next => exact ih next

/-- The iteration shows the listed paths one after the other, and then nothing more. -/
theorem shown?_eq (path : Text) (n : Nat) : shown? path n = (ancestors path)[n]? := by
  induction n with
  | zero => rw [← List.head?_eq_getElem?, head?_ancestors, shown?]
  | succ n ih => rw [shown?, ih, getElem?_ancestors_succ]

theorem isChain_ancestors (path : Text) :
    (ancestors path).IsChain fun inner outer => outward? inner = some outer := by
  rw [List.isChain_iff_getElem]
  intro n hn
  have hstep := getElem?_ancestors_succ path n
  rw [List.getElem?_eq_getElem hn, List.getElem?_eq_getElem (Nat.lt_of_succ_lt hn),
    Option.bind_some] at hstep
  exact hstep.symm

/-! ## The way outward from a normal path -/

theorem outward?_ofNames {below : List Text} {name : Text} (hbelow : BelowRoot (below ++ [name])) :
    outward? (ofNames true (below ++ [name])) = some (ofNames true below) := by
  have hname : name ∈ below ++ [name] := List.mem_append_right below List.mem_cons_self
  have hlast : '/' ∉ name := hbelow.free name hname
  have hroot : ofNames true (below ++ [name]) ≠ ['/'] :=
    mt (ofNames_eq_root_iff hbelow).mp (List.append_ne_nil_of_right_ne_nil below (List.cons_ne_nil _ _))
  by_cases hnone : below = []
  · subst hnone
    exact outward?_append_slash [] hroot hlast
  · have hpath : ofNames true (below ++ [name]) = ofNames true below ++ '/' :: name :=
      ofNames_append hnone (List.cons_ne_nil name [])
    rw [hpath] at hroot ⊢
    exact outward?_append_slash (ofNames true below) hroot hlast

/-- Outward from a normal path one name is taken away after the other. -/
theorem ancestors_ofNames {below : List Text} (hbelow : BelowRoot below) :
    ancestors (ofNames true below) = below.inits.reverse.map (ofNames true) := by
  induction below using List.reverseRecOn with
  | nil => rfl
  | append_singleton below name ih =>
      rw [ancestors_eq, outward?_ofNames hbelow, Option.map_some, Option.getD_some,
        ih hbelow.left]
      simp [List.inits_append]

/-- The paths on the way outward are those that the path lies within. -/
theorem mem_ancestors_iff {path other : Text} (hpath : isRooted path = true)
    (hother : isRooted other = true) :
    normalize other ∈ ancestors (normalize path) ↔ isWithin path other = true := by
  have hbelow : BelowRoot (names path) := belowRoot_names hpath
  rw [normalize, normalize, hpath, hother, ancestors_ofNames hbelow, isWithin_rooted_iff hpath hother]
  simp only [List.mem_map, List.mem_reverse, List.mem_inits]
  constructor
  · rintro ⟨outer, ⟨more, hsplit⟩, hsame⟩
    have houter : BelowRoot outer := (hsplit ▸ hbelow).left
    have hnames : outer = names other := by
      rw [← steps_ofNames houter, hsame, steps_ofNames (belowRoot_names hother)]
    rw [← hnames, ← hsplit]
    exact List.prefix_append outer more
  · intro hbegins
    exact ⟨names other, hbegins, rfl⟩

/-- Outward from the normal form of a rooted path lie exactly the paths that it lies within.  An
iteration shows them one after the other and then ends; the first is the path itself, each one is
shorter than the one before it, in characters and in bytes, and the last is the root.  Turned
round they begin with the root. -/
theorem ancestors_outward {path : Text} (hpath : isRooted path = true) :
    (∀ n, shown? (normalize path) n = (ancestors (normalize path))[n]?) ∧
      (ancestors (normalize path)).head? = some (normalize path) ∧
      (ancestors (normalize path)).getLast? = some ['/'] ∧
      ((ancestors (normalize path)).IsChain fun inner outer =>
        outer.length < inner.length ∧ (Utf8.encode outer).length < (Utf8.encode inner).length) ∧
      ancestorsRootFirst (normalize path) = (ancestors (normalize path)).reverse ∧
      ∀ other, isRooted other = true →
        (normalize other ∈ ancestors (normalize path) ↔
          isWithin (normalize path) other = true) := by
  refine ⟨shown?_eq _, head?_ancestors _, ?_, ?_, rfl, fun other hother => ?_⟩
  · have hbelow : BelowRoot (names path) := belowRoot_names hpath
    rw [normalize, hpath, ancestors_ofNames hbelow, List.getLast?_map, List.getLast?_reverse]
    cases names path <;> rfl
  · apply (isChain_ancestors (normalize path)).imp
    intro inner outer hstep
    exact shorter_of_outward? hstep
  · rw [isWithin_normalize_left]
    exact mem_ancestors_iff hpath hother

/-- A path written with detours has four paths on its way, and a section is one of them. -/
theorem ancestors_outward_detour :
    let path := "/x/../a//b/./c/".toList
    let outer := "/a//b/.".toList
    isRooted path = true ∧ isRooted outer = true ∧
      ancestors (normalize path) =
        ["/a/b/c".toList, "/a/b".toList, "/a".toList, "/".toList] ∧
      shown? (normalize path) 3 = some "/".toList ∧ shown? (normalize path) 4 = none ∧
      isWithin (normalize path) outer = true := by
  intro path outer
  have hlist : ancestors (normalize path) =
      ["/a/b/c".toList, "/a/b".toList, "/a".toList, "/".toList] := by decide
  have hmem : normalize outer ∈ ancestors (normalize path) := by decide
  have hpath : isRooted path = true := rfl
  obtain ⟨hshown, -, -, -, -, hwithin⟩ := ancestors_outward hpath
  refine ⟨rfl, rfl, hlist, ?_, ?_, (hwithin outer rfl).mp hmem⟩
  · rw [hshown, hlist]
    rfl
  · rw [hshown, hlist]
    rfl

end PageTemplates.Path
