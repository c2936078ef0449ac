import PageTemplates.Proofs.Path.Joining
import PageTemplates.Proofs.Path.Relative

/-!
Links to targets that name their own scheme or host.  They are the same on every page.
But the slashes at the end of such a target are lost, and behind it every empty name
leaves a slash, where in a path of the site it leaves nothing.
-/

namespace PageTemplates.Path

/-- The names below an external target as a link shows them, each behind a slash. -/
def behind (more : List Text) : Text :=
  more.flatMap fun name => '/' :: Text.dropBothWhile (· == '/') name

variable {target : Text}

theorem relative_external (htarget : isExternal target = true) (current : Text)
    (more : List Text) :
    relative current target more = Text.dropEndWhile (· == '/') target ++ behind more := by
  rw [relative, if_pos htarget, Text.joined_cons, List.flatMap_map]
  rfl

/-! ## The target -/

/-- What a link leaves out of an external target are slashes at its end. -/
theorem exists_relative_nil_append (htarget : isExternal target = true) (current : Text) :
    ∃ n, relative current target [] ++ List.replicate n '/' = target := by
  have hslashes : target.rtakeWhile (· == '/') =
      List.replicate (target.rtakeWhile (· == '/')).length '/' :=
    List.eq_replicate_of_mem fun c hc =>
      beq_iff_eq.mp (List.mem_rtakeWhile_imp (p := (· == '/')) hc)
  refine ⟨(target.rtakeWhile (· == '/')).length, ?_⟩
  rw [relative_external htarget, behind, List.flatMap_nil, List.append_nil, ← hslashes]
  exact List.rdropWhile_append_rtakeWhile

theorem relative_nil_eq_iff (htarget : isExternal target = true) (current : Text) :
    relative current target [] = target ↔ target.getLast? ≠ some '/' := by
  rw [relative_external htarget, behind, List.flatMap_nil, List.append_nil]
  change target.rdropWhile (· == '/') = target ↔ _
  rw [List.rdropWhile_eq_self_iff]
  have hne : target ≠ [] := by
    rintro rfl
    cases htarget
  simp [List.getLast?_eq_some_getLast hne, hne]

/-! ## The names behind it -/

/-- An empty name leaves one slash. -/
theorem length_behind (more : List Text) :
    (behind more).length = (behind (more.filter (· ≠ []))).length + more.count [] := by
  induction more with
  | nil => rfl
  | cons name rest ih =>
      have hcons : ∀ rest, (behind (name :: rest)).length =
          (Text.dropBothWhile (· == '/') name).length + 1 + (behind rest).length := by
        intro rest
        rw [behind, List.flatMap_cons, List.length_append, List.length_cons, behind]
      by_cases hname : name = []
      · subst hname
        rw [List.filter_cons_of_neg (by simp), List.count_cons_self, hcons, ih]
        change 0 + 1 + _ = _
        omega
      · rw [List.filter_cons_of_pos (by simp [hname]), List.count_cons_of_ne hname, hcons, hcons,
          ih]
        omega

theorem relative_filter_eq_iff (htarget : isExternal target = true) (current : Text)
    (more : List Text) :
    relative current target (more.filter (· ≠ [])) = relative current target more ↔ [] ∉ more := by
  constructor
  · intro hsame hempty
    rw [relative_external htarget, relative_external htarget, List.append_cancel_left_eq] at hsame
    have hlength := congrArg List.length hsame
    have hcount : 0 < more.count [] := List.count_pos_iff.mpr hempty
    rw [length_behind more] at hlength
    omega
  · intro hnone
    have hall : more.filter (· ≠ []) = more :=
      List.filter_eq_self.mpr fun name hname =>
        decide_eq_true (ne_of_mem_of_not_mem hname hnone)
    rw [hall]

/-- Behind a path empty names leave nothing. -/
theorem relative_filter_of_path (htarget : isExternal target = false) (current : Text)
    (more : List Text) :
    relative current target (more.filter (· ≠ [])) = relative current target more := by
  have hparts : (target :: more.filter (· ≠ [])).filter (· ≠ []) =
      (target :: more).filter (· ≠ []) := by
    simp [List.filter_cons, List.filter_filter]
  have hjoin : join target (more.filter (· ≠ [])) = join target more := by
    rw [join_eq, join_eq, hparts]
  simp only [relative, htarget, Bool.false_eq_true, if_false, hjoin]

/-! ## Links to other sites -/

/-- A link to another site does not depend on the page.  It is the target but for slashes at its end, so
it is the target itself unless this ends with one.  Leaving out the empty names behind the target
changes the link whenever there are any; behind a path of the site it never does. -/
theorem relative_external_iff (htarget : isExternal target = true) (current : Text)
    (more : List Text) :
    (∀ other, relative current target more = relative other target more) ∧
      (∃ n, relative current target [] ++ List.replicate n '/' = target) ∧
      (relative current target [] = target ↔ target.getLast? ≠ some '/') ∧
      (relative current target (more.filter (· ≠ [])) = relative current target more ↔
        [] ∉ more) ∧
      ∀ path, isExternal path = false →
        relative current path (more.filter (· ≠ [])) = relative current path more := by
  refine ⟨fun other => ?_, exists_relative_nil_append htarget current,
    relative_nil_eq_iff htarget current, relative_filter_eq_iff htarget current more,
    fun path hpath => relative_filter_of_path hpath current more⟩
  rw [relative_external htarget, relative_external htarget]

/-- With names behind it a target may end with a slash; an empty name among them is shown. -/
theorem relative_external_docs :
    let target := "https://example.com/".toList
    isExternal target = true ∧
      relative "/a/".toList target ["docs".toList] = "https://example.com/docs".toList ∧
      relative "/".toList target ["docs".toList] = "https://example.com/docs".toList ∧
      relative "/".toList target [] ≠ target ∧
      relative "/".toList target [[], "docs".toList] ≠ relative "/".toList target ["docs".toList] := by
  intro target
  have htarget : isExternal target = true := by decide
  have hlink : relative "/a/".toList target ["docs".toList] = "https://example.com/docs".toList := by
    decide
  obtain ⟨hpage, -, -, -, -⟩ := relative_external_iff htarget "/a/".toList ["docs".toList]
  obtain ⟨-, -, hnil, hempty, -⟩ :=
    relative_external_iff htarget "/".toList [[], "docs".toList]
  refine ⟨htarget, hlink, (hpage _).symm.trans hlink, fun hsame => ?_, fun hsame => ?_⟩
  · exact hnil.mp hsame (by decide)
  · exact hempty.mp hsame.symm List.mem_cons_self

/-- The slash at the end of an address is lost, and an empty name behind an address leaves one. -/
theorem relative_external_changed :
    let closed := "https://example.com/".toList
    let plain := "https://example.com".toList
    isExternal closed = true ∧ relative "/".toList closed [] = plain ∧ closed ≠ plain ∧
      isExternal plain = true ∧ relative "/".toList plain [[]] = closed ∧
      relative "/".toList plain ([[]].filter (· ≠ [])) = plain := by
  decide

end PageTemplates.Path
