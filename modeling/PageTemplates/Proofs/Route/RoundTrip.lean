import PageTemplates.Proofs.Route.Filling

/-!
Which arguments come back out of the path that they were put into.
-/

namespace PageTemplates.Route.Pattern

open PageTemplates.Path (Ordinary)

/-- The arguments that a path of the pattern is made from. -/
def consumed (p : Pattern) (args : List Text) : List Text :=
  taken p.segments args

/-- The fixed names and the arguments that a path of the pattern is made from. -/
def emitted (p : Pattern) (args : List Text) : List Text :=
  fixedNames p.segments ++ p.consumed args

/-- A path is built unless arguments are missing, and then the arguments are found
again in it if and only if no name in it is empty or a dot name. -/
theorem extract_build (p : Pattern) (args : List Text) :
    (p.build args = .error (.insufficientArguments p.raw args.length) ↔
      args.length < p.placeholders) ∧
    (p.placeholders ≤ args.length → ∃ path, p.build args = .ok path ∧
      (p.extract path = some (p.consumed args) ↔
        ∀ part ∈ p.emitted args, Ordinary part)) := by
  refine ⟨build_eq_error_iff p args, fun hargs => ?_⟩
  obtain ⟨parts, hparts⟩ := exists_fill_of_le hargs
  have hbelow := Path.belowRoot_resolve
    (slash_not_mem_of_fill (List.Subset.refl _) hparts)
  refine ⟨_, build_of_fill hparts, ?_⟩
  rw [extract_ofNames hbelow, emitted, consumed, ← ordinary_fill_iff hparts]
  constructor
  · intro hextract part hpart
    by_contra hordinary
    -- A lost name cannot be made up for: taking out accounts for every name.
    have hfewer := Path.length_resolve_rooted_lt hpart hordinary
    have hfound := length_of_unfill hextract
    have hput := (fill_perm hparts).length_eq
    rw [List.length_append, List.length_map] at hput
    omega
  · intro hordinary
    rw [Path.resolve_of_ordinary true hordinary]
    exact unfill_fill hparts

/-- A slash and a blank in an argument come back, also before and in a wildcard. -/
theorem extract_build_encoded :
    ∃ path, build ⟨"/a//:x/b/*rest".toList⟩
        ["é/".toList, "u v".toList, "...".toList] = .ok path ∧
      extract ⟨"/a//:x/b/*rest".toList⟩ path =
        some ["é/".toList, "u v".toList, "...".toList] := by
  obtain ⟨path, hbuild, hback⟩ := (extract_build ⟨"/a//:x/b/*rest".toList⟩
    ["é/".toList, "u v".toList, "...".toList]).2 (by decide)
  exact ⟨path, hbuild, hback.mpr (by decide)⟩

end PageTemplates.Route.Pattern
