import PageTemplates.Path.Relative
import PageTemplates.Proofs.Path.Names

/-!
Relative links to rooted paths.  Such a link is one step up for every directory that
the slashes of the page tell of, and then the names of its target.  Gone from the
directory of the page it leads to the target, since a page cannot lie deeper than its
slashes tell.  Without steps up the first name of the target comes first in the link,
and then it can be read as a scheme.
-/

namespace PageTemplates.Path

/-- The directory that a page lies in: the page up to its last slash. -/
def directory (page : Text) : Text :=
  Text.dropEndWhile (· != '/') page

/-- How many directories a rooted page lies in, as its slashes tell.  Double slashes and
dot names count like all others. -/
def depth (page : Text) : Nat :=
  page.count '/' - 1

/-! ## What a link is made of -/

theorem join_eq_nil_or_normalize (base : Text) (more : List Text) :
    join base more = [] ∨ ∃ path, join base more = normalize path := by
  unfold join
  split
  · exact Or.inl rfl
  · exact Or.inr ⟨_, rfl⟩

/-- A rooted join is the normal path of its names. -/
theorem join_eq_ofNames {base : Text} {more : List Text}
    (hjoined : isRooted (join base more) = true) :
    BelowRoot (names (join base more)) ∧
      join base more = ofNames true (names (join base more)) := by
  refine ⟨belowRoot_names hjoined, ?_⟩
  rcases join_eq_nil_or_normalize base more with hnone | ⟨path, hpath⟩
  · rw [hnone] at hjoined
    exact absurd hjoined Bool.false_ne_true
  · rw [hpath, isRooted_normalize] at hjoined
    rw [hpath, normalize, hjoined, names_ofNames (belowRoot_names hjoined)]

theorem slash_not_mem_up {n : Nat} : ∀ name ∈ List.replicate n up, '/' ∉ name := by
  intro name hname
  rw [List.eq_of_mem_replicate hname]
  decide

theorem steps_toRoot {current : Text} (hcurrent : isRooted current = true) :
    steps (toRoot current) = List.replicate (depth current) up := by
  rw [toRoot, if_pos hcurrent, steps_joined slash_not_mem_up, Text.length_pieces,
    List.filter_replicate]
  rfl

/-- The names of a link: the way up to the root, and from there the names of the target. -/
def linkNames (current target : Text) (more : List Text) : List Text :=
  List.replicate (depth current) up ++ names (join target more)

theorem slash_not_mem_linkNames (current target : Text) (more : List Text) :
    ∀ name ∈ linkNames current target more, '/' ∉ name :=
  List.forall_mem_append.mpr ⟨slash_not_mem_up, fun _ hname => slash_not_mem_of_mem_names hname⟩

theorem resolve_linkNames (current : Text) {target : Text} {more : List Text}
    (hjoined : isRooted (join target more) = true) :
    resolve false (linkNames current target more) = linkNames current target more :=
  resolve_replicate_up_append _ (belowRoot_names hjoined).ordinary

theorem ne_nil_of_mem_linkNames (current : Text) {target : Text} {more : List Text}
    (hjoined : isRooted (join target more) = true) :
    ∀ name ∈ linkNames current target more, name ≠ [] := by
  intro name hname
  rw [← resolve_linkNames current hjoined] at hname
  exact ne_nil_of_mem_resolve hname

theorem relative_eq_ofNames {current target : Text} {more : List Text}
    (hcurrent : isRooted current = true) (htarget : isExternal target = false)
    (hjoined : isRooted (join target more) = true) :
    relative current target more = ofNames false (linkNames current target more) := by
  obtain ⟨hbelow, hjoin⟩ := join_eq_ofNames hjoined
  have hpath : here ++ ['/'] ++ toRoot current ++ join target more =
      here ++ '/' :: (toRoot current ++
        '/' :: Text.joined ['/'] (names (join target more))) := by
    rw [hjoin, names_ofNames hbelow]
    simp [ofNames]
  have hsteps : steps (here ++ ['/'] ++ toRoot current ++ join target more) =
      here :: linkNames current target more := by
    rw [hpath, steps_append_slash, steps_append_slash, steps_toRoot hcurrent,
      steps_joined_of_ne_nil (fun name hname => (hbelow.ordinary name hname).1) hbelow.free]
    rfl
  simp only [relative, htarget, hjoined, Bool.false_eq_true, if_false, if_true]
  rw [normalize, names_eq_resolve_steps, hsteps]
  -- The dot in front keeps the link from being rooted; as a name it is skipped.
  change ofNames false (resolve false (linkNames current target more)) = _
  rw [resolve_linkNames current hjoined]

/-! ## Where a link leads -/

theorem directory_append_slash (above : Text) {last : Text} (hlast : '/' ∉ last) :
    directory (above ++ '/' :: last) = above ++ ['/'] := by
  have hreverse : '/' ∉ last.reverse := mt List.mem_reverse.mp hlast
  rw [directory, Text.dropEndWhile, List.reverse_append, List.reverse_cons, List.append_assoc,
    List.dropWhile_append_of_pos (Text.bne_of_not_mem hreverse)]
  simp

theorem exists_directory_eq {page : Text} (hpage : isRooted page = true) :
    ∃ above last, directory page = above ++ ['/'] ∧ page = above ++ '/' :: last ∧
      '/' ∉ last := by
  obtain ⟨above, last, rfl, hlast⟩ :=
    Text.exists_last_occurrence (slash_mem_of_isRooted hpage)
  exact ⟨above, last, directory_append_slash above hlast, rfl, hlast⟩

/-- What stands before a slash of a rooted path has at most as many names as slashes. -/
theorem length_steps_le {above rest : Text} (hpath : isRooted (above ++ '/' :: rest) = true) :
    (steps above).length ≤ above.count '/' := by
  cases above with
  | nil => exact Nat.le_refl 0
  | cons c others =>
      obtain rfl : c = '/' := by simpa [isRooted] using hpath
      change (steps ([] ++ '/' :: others)).length ≤ _
      rw [steps_append_slash, List.count_cons_self, ← Text.length_pieces]
      exact List.length_filter_le _ _

/-- A page does not lie deeper than its slashes tell. -/
theorem length_resolve_directory_le {above last : Text}
    (hpage : isRooted (above ++ '/' :: last) = true) (hlast : '/' ∉ last) :
    (resolve true (steps above)).length ≤ depth (above ++ '/' :: last) := by
  have hdepth : depth (above ++ '/' :: last) = above.count '/' := by
    rw [depth, List.count_append, List.count_cons_self, List.count_eq_zero_of_not_mem hlast]
    omega
  rw [hdepth]
  exact (length_resolve_rooted_le _).trans (length_steps_le hpage)

/-- The text of a relative way leads where the way leads; the empty way is written as a dot. -/
theorem resolve_append_steps_ofNames (base : List Text) {way : List Text}
    (hne : ∀ name ∈ way, name ≠ []) (hfree : ∀ name ∈ way, '/' ∉ name) :
    resolve true (base ++ steps (ofNames false way)) = resolve true (base ++ way) := by
  by_cases hway : way = []
  · subst hway
    change resolve true (base ++ [here]) = resolve true (base ++ [])
    rw [List.append_nil, resolve, resolve, List.foldl_append]
    rfl
  · have hsteps : steps (ofNames false way) = way := by
      rw [ofNames, if_neg Bool.false_ne_true, if_neg hway, steps_joined_of_ne_nil hne hfree]
    rw [hsteps]

/-- From the directory of its page a link leads to its target, also when the address of
the page has double slashes or dot names in it: these can only make the way up longer
than it need be, and above the root one is still at the root. -/
theorem normalize_directory_relative {current target : Text} {more : List Text}
    (hcurrent : isRooted current = true) (htarget : isExternal target = false)
    (hjoined : isRooted (join target more) = true) :
    normalize (directory current ++ relative current target more) = join target more := by
  obtain ⟨hbelow, hjoin⟩ := join_eq_ofNames hjoined
  obtain ⟨above, last, hdirectory, rfl, hlast⟩ := exists_directory_eq hcurrent
  have hrooted : isRooted (above ++ '/' :: relative (above ++ '/' :: last) target more) = true :=
    (isRooted_append_slash above _ last).trans hcurrent
  obtain ⟨hascent, hdescent⟩ := ascent_descent_of_resolve hbelow.ordinary
    (resolve_linkNames (above ++ '/' :: last) hjoined)
  -- The link goes up at least as far as the directory is deep, so it starts at the root.
  have htop : (resolve true (steps above)).rdrop (depth (above ++ '/' :: last)) = [] := by
    have hlength := length_resolve_directory_le hcurrent hlast
    rw [List.rdrop_eq_reverse_drop_reverse,
      List.drop_eq_nil_of_le (by rwa [List.length_reverse]), List.reverse_nil]
  have hnames : names (above ++ '/' :: relative (above ++ '/' :: last) target more) =
      names (join target more) := by
    rw [names_eq_resolve_steps, hrooted, steps_append_slash,
      relative_eq_ofNames hcurrent htarget hjoined,
      resolve_append_steps_ofNames _ (ne_nil_of_mem_linkNames _ hjoined)
        (slash_not_mem_linkNames _ target more),
      resolve_rooted_append, hascent, hdescent, htop, List.nil_append]
  rw [hdirectory, List.append_assoc, List.singleton_append, normalize, hrooted, hnames]
  exact hjoin.symm

/-- The page lies in one directory and its slashes tell of four. -/
theorem normalize_directory_relative_detour :
    directory "/a/../b//c".toList = "/a/../b//".toList ∧
      relative "/a/../b//c".toList "/x:y/z".toList ["..".toList, "w".toList] =
        "../../../../x:y/w".toList ∧
      normalize ("/a/../b//".toList ++ "../../../../x:y/w".toList) = "/x:y/w".toList := by
  have hdirectory : directory "/a/../b//c".toList = "/a/../b//".toList := by decide
  have hlink : relative "/a/../b//c".toList "/x:y/z".toList ["..".toList, "w".toList] =
      "../../../../x:y/w".toList := by decide
  have hleads : normalize (directory "/a/../b//c".toList ++
      relative "/a/../b//c".toList "/x:y/z".toList ["..".toList, "w".toList]) =
        join "/x:y/z".toList ["..".toList, "w".toList] :=
    normalize_directory_relative (by decide) (by decide) (by decide)
  rw [hdirectory, hlink] at hleads
  exact ⟨hdirectory, hlink, hleads⟩

/-! ## What a link can be taken for -/

/-- Whether a text can be the scheme of an address. -/
def isScheme : Text → Bool
  | first :: others =>
      first.isAlpha && others.all fun c => c.isAlphanum || c == '+' || c == '-' || c == '.'
  | [] => false

theorem isExternal_eq (target : Text) :
    isExternal target = (['/', '/'].isPrefixOf target ||
      (decide (':' ∈ target) && isScheme (target.takeWhile (· != ':')))) := by
  rw [isExternal, Text.cut_singleton]
  congr 1
  by_cases hcolon : ':' ∈ target
  · rw [if_pos hcolon, decide_eq_true hcolon, Bool.true_and]
    cases target.takeWhile (· != ':') <;> rfl
  · rw [if_neg hcolon, decide_eq_false hcolon, Bool.false_and]

theorem slash_not_mem_of_isScheme {scheme : Text} (hscheme : isScheme scheme = true) :
    '/' ∉ scheme := by
  cases scheme with
  | nil => exact List.not_mem_nil
  | cons first others =>
      simp only [isScheme, Bool.and_eq_true, List.all_eq_true] at hscheme
      obtain ⟨hfirst, hothers⟩ := hscheme
      rw [List.mem_cons, not_or]
      refine ⟨?_, fun hslash => ?_⟩
      · rintro rfl
        exact absurd hfirst (by decide)
      · exact absurd (hothers '/' hslash) (by decide)

/-- Behind the first slash nothing counts: a scheme has none in it. -/
theorem isExternal_append_slash {name : Text} (rest : Text) (hne : name ≠ [])
    (hfree : '/' ∉ name) : isExternal (name ++ '/' :: rest) = isExternal name := by
  obtain ⟨c, cs, rfl⟩ := List.exists_cons_of_ne_nil hne
  have hc : '/' ≠ c := List.ne_of_not_mem_cons hfree
  have hhost : ∀ t, ['/', '/'].isPrefixOf (c :: t) = false := by
    intro t
    simp [List.isPrefixOf, hc]
  rw [isExternal_eq, isExternal_eq, List.cons_append, hhost, hhost, Bool.false_or,
    Bool.false_or, ← List.cons_append]
  generalize c :: cs = name at hfree
  -- What stands before the first colon is part of the name, or it has the slash in it.
  by_cases hcolon : ':' ∈ name
  · have hsame : (name ++ '/' :: rest).takeWhile (· != ':') = name.takeWhile (· != ':') := by
      obtain ⟨before, after, rfl, hbefore⟩ := List.eq_append_cons_of_mem hcolon
      rw [List.append_assoc, List.takeWhile_append_of_pos (Text.bne_of_not_mem hbefore),
        List.takeWhile_append_of_pos (Text.bne_of_not_mem hbefore)]
      simp
    rw [hsame]
    simp [hcolon]
  · have hlong : (name ++ '/' :: rest).takeWhile (· != ':') =
        name ++ '/' :: rest.takeWhile (· != ':') := by
      rw [List.takeWhile_append_of_pos (Text.bne_of_not_mem hcolon)]
      rfl
    rw [hlong, decide_eq_false hcolon, Bool.false_and, Bool.and_eq_false_iff]
    right
    by_contra hscheme
    rw [Bool.not_eq_false] at hscheme
    exact slash_not_mem_of_isScheme hscheme (by simp)

/-- A relative path is taken for an address elsewhere just when its first name is. -/
theorem isExternal_ofNames {names : List Text} (hne : ∀ name ∈ names, name ≠ [])
    (hfree : ∀ name ∈ names, '/' ∉ name) :
    isExternal (ofNames false names) = names.head?.any isExternal := by
  rw [ofNames, if_neg Bool.false_ne_true]
  cases names with
  | nil => decide
  | cons name rest =>
      rw [if_neg (List.cons_ne_nil name rest)]
      cases rest with
      | nil => rfl
      | cons next others =>
          rw [Text.joined, List.append_assoc, List.singleton_append,
            isExternal_append_slash _ (hne name List.mem_cons_self)
              (hfree name List.mem_cons_self)]
          rfl

/-- A link to a rooted path is never rooted, and it is taken for an address elsewhere if
and only if the page has one slash only and the first name of the target is one. -/
theorem isExternal_relative_iff {current target : Text} {more : List Text}
    (hcurrent : isRooted current = true) (htarget : isExternal target = false)
    (hjoined : isRooted (join target more) = true) :
    isRooted (relative current target more) = false ∧
      (isExternal (relative current target more) = true ↔
        current.count '/' = 1 ∧
          ∃ name ∈ (names (join target more)).head?, isExternal name = true) := by
  have hne := ne_nil_of_mem_linkNames current hjoined
  have hfree := slash_not_mem_linkNames current target more
  have hslash : 0 < current.count '/' := List.count_pos_iff.mpr (slash_mem_of_isRooted hcurrent)
  rw [relative_eq_ofNames hcurrent htarget hjoined]
  refine ⟨isRooted_ofNames hne hfree, ?_⟩
  rw [isExternal_ofNames hne hfree, linkNames, Option.any_eq_true]
  cases hdepth : depth current with
  | zero =>
      have hone : current.count '/' = 1 := by
        rw [depth] at hdepth
        omega
      simp [hone]
  | succ n =>
      have hmore : current.count '/' ≠ 1 := by
        rw [depth] at hdepth
        omega
      have hup : isExternal up = false := by decide
      simp [hmore, hup, List.replicate_succ]

/-- From a page at the root the link to a tag is an address with the scheme of that name;
from a page below the root the same link is no such thing. -/
theorem isExternal_relative_tag :
    isExternal (relative "/home".toList "/x".toList ["..".toList, "tag:new".toList]) = true ∧
      isExternal (relative "/home/".toList "/x".toList ["..".toList, "tag:new".toList]) =
        false := by
  have htarget : isExternal "/x".toList = false := by decide
  have hjoined : isRooted (join "/x".toList ["..".toList, "tag:new".toList]) = true := by decide
  have hroot : isRooted "/home".toList = true := by decide
  have hbelow : isRooted "/home/".toList = true := by decide
  have hfirst : ∃ name ∈ (names (join "/x".toList ["..".toList, "tag:new".toList])).head?,
      isExternal name = true := ⟨"tag:new".toList, by decide, by decide⟩
  refine ⟨(isExternal_relative_iff hroot htarget hjoined).2.mpr ⟨by decide, hfirst⟩, ?_⟩
  rw [Bool.eq_false_iff, ne_eq, (isExternal_relative_iff hbelow htarget hjoined).2]
  exact fun h => absurd h.1 (by decide)

/-- The path of a tag is no address elsewhere, and the link to it from the root is one. -/
theorem relative_scheme_like :
    isRooted "/".toList = true ∧ isExternal "/tag:new".toList = false ∧
      isRooted (join "/tag:new".toList []) = true ∧
      relative "/".toList "/tag:new".toList [] = "tag:new".toList ∧
      isExternal "tag:new".toList = true := by
  decide

end PageTemplates.Path
