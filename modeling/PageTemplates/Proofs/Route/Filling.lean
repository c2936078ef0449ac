import Mathlib.Data.List.Perm.Basic
import PageTemplates.Proofs.Path.Names
import PageTemplates.Route.Pattern

/-!
Putting arguments into a pattern and taking them out again.  The names that are
put together are the fixed ones and the encoded arguments, up to the first
segment that takes everything; the arguments come back exactly when none of these
names has a meaning of its own in a path.
-/

namespace PageTemplates

namespace Percent

theorem encode_injective : Function.Injective encode := by
  intro s t heq
  have hdecode : decode (encode s) = decode (encode t) := by rw [heq]
  simpa only [decode_encode, Option.some.injEq] using hdecode

theorem toUpper_digitChar_ne_slash :
    ∀ n < 16, (Nat.digitChar n).toUpper ≠ '/' := by
  decide

theorem slash_not_mem_encodeByte (b : UInt8) : '/' ∉ encodeByte b := by
  have hb : b.toNat < 256 := b.toNat_lt
  unfold encodeByte
  split
  · next hunreserved =>
    intro hslash
    rw [List.mem_singleton] at hslash
    rw [← hslash] at hunreserved
    exact absurd hunreserved (by decide)
  · have hhigh := toUpper_digitChar_ne_slash (b.toNat / 16) (by omega)
    have hlow := toUpper_digitChar_ne_slash (b.toNat % 16) (by omega)
    simp only [List.mem_cons, List.not_mem_nil, or_false, not_or]
    exact ⟨by decide, hhigh.symm, hlow.symm⟩

/-- An argument stays within one segment. -/
theorem slash_not_mem_encode (t : Text) : '/' ∉ encode t := by
  simp only [encode, List.mem_flatMap, not_exists, not_and]
  exact fun b _ => slash_not_mem_encodeByte b

/-- Encoding leaves dots alone, so it neither makes nor hides a name that moves. -/
theorem ordinary_encode_iff {t : Text} : Path.Ordinary (encode t) ↔ Path.Ordinary t := by
  have hempty : encode [] = [] := rfl
  have hhere : encode Path.here = Path.here := by decide
  have hup : encode Path.up = Path.up := by decide
  have heq : ∀ {name : Text}, encode name = name → (encode t = name ↔ t = name) := by
    intro name hname
    nth_rewrite 1 [← hname]
    exact encode_injective.eq_iff
  simp only [Path.Ordinary, ne_eq, heq hempty, heq hhere, heq hup]

theorem mapM_decode_encode (args : List Text) :
    (args.map encode).mapM decode = some args := by
  induction args with
  | nil => rfl
  | cons arg rest ih =>
      rw [List.map_cons, List.mapM_cons, decode_encode, ih]
      rfl

theorem length_of_mapM_decode {parts args : List Text}
    (hargs : parts.mapM decode = some args) : args.length = parts.length := by
  induction parts generalizing args with
  | nil => simp_all
  | cons part rest ih =>
      simp only [List.mapM_cons, Option.bind_eq_bind, Option.bind_eq_some_iff,
        Option.pure_def, Option.some.injEq] at hargs
      obtain ⟨arg, -, others, hothers, rfl⟩ := hargs
      simp [ih hothers]

end Percent

namespace Route

open PageTemplates.Path (Ordinary)

/-- The name of a segment that stands as it is. -/
def Segment.fixedName? : Segment → Option Text
  | .fixed name => some name
  | _ => none

namespace Pattern

/-- The fixed names before any wildcard. -/
def fixedNames (segments : List Segment) : List Text :=
  (segments.takeWhile (!·.isWildcard)).filterMap Segment.fixedName?

/-- How many segments before any wildcard take one argument. -/
def holes (segments : List Segment) : Nat :=
  (segments.takeWhile (!·.isWildcard)).countP (·.isPlaceholder)

/-- The arguments that segments take: all of them when one is a wildcard. -/
def taken (segments : List Segment) (args : List Text) : List Text :=
  if segments.any (·.isWildcard) then args else args.take (holes segments)

/-! ## One segment more -/

@[simp] theorem fixedNames_fixed (name : Text) (rest : List Segment) :
    fixedNames (.fixed name :: rest) = name :: fixedNames rest := rfl

@[simp] theorem fixedNames_placeholder (name : Text) (rest : List Segment) :
    fixedNames (.placeholder name :: rest) = fixedNames rest := rfl

@[simp] theorem fixedNames_wildcard (name : Text) (rest : List Segment) :
    fixedNames (.wildcard name :: rest) = [] := rfl

@[simp] theorem holes_fixed (name : Text) (rest : List Segment) :
    holes (.fixed name :: rest) = holes rest := by
  simp [holes, Segment.isWildcard, Segment.isPlaceholder]

@[simp] theorem holes_placeholder (name : Text) (rest : List Segment) :
    holes (.placeholder name :: rest) = holes rest + 1 := by
  simp [holes, Segment.isWildcard, Segment.isPlaceholder]

@[simp] theorem holes_wildcard (name : Text) (rest : List Segment) :
    holes (.wildcard name :: rest) = 0 := rfl

@[simp] theorem taken_nil (args : List Text) : taken [] args = [] := rfl

@[simp] theorem taken_fixed (name : Text) (rest : List Segment) (args : List Text) :
    taken (.fixed name :: rest) args = taken rest args := by
  simp [taken, Segment.isWildcard]

@[simp] theorem taken_placeholder (name arg : Text) (rest : List Segment)
    (args : List Text) :
    taken (.placeholder name :: rest) (arg :: args) = arg :: taken rest args := by
  have hany : (Segment.placeholder name :: rest).any (·.isWildcard) =
      rest.any (·.isWildcard) := rfl
  unfold taken
  rw [hany, holes_placeholder, List.take_succ_cons]
  split <;> rfl

@[simp] theorem taken_wildcard (name : Text) (rest : List Segment) (args : List Text) :
    taken (.wildcard name :: rest) args = args := rfl

/-! ## Filling and its inverse -/

/-- Only missing arguments stop the filling. -/
theorem fill_eq_none_iff (segments : List Segment) (args : List Text) :
    fill segments args = none ↔ args.length < holes segments := by
  fun_induction fill segments args with
  | case1 => simp [holes]
  | case2 name rest args ih => simp [ih]
  | case3 name rest arg args ih => simp [ih]
  | case4 name rest => simp
  | case5 name rest args => simp

/-- Up to their order, the names put together are the fixed ones and the encoded
arguments. -/
theorem fill_perm {segments : List Segment} {args parts : List Text}
    (hparts : fill segments args = some parts) :
    parts.Perm (fixedNames segments ++ (taken segments args).map Percent.encode) := by
  fun_induction fill segments args generalizing parts with
  | case1 => simp_all [fixedNames]
  | case2 name rest args ih =>
      obtain ⟨others, hothers, rfl⟩ := Option.map_eq_some_iff.mp hparts
      simpa using ih hothers
  | case3 name rest arg args ih =>
      obtain ⟨others, hothers, rfl⟩ := Option.map_eq_some_iff.mp hparts
      simp only [fixedNames_placeholder, taken_placeholder, List.map_cons]
      exact ((ih hothers).cons _).trans List.perm_middle.symm
  | case4 => simp at hparts
  | case5 name rest args => simp_all

/-- What was put in comes out again, as long as no name is lost in between. -/
theorem unfill_fill {segments : List Segment} {args parts : List Text}
    (hparts : fill segments args = some parts) :
    unfill segments parts = some (taken segments args) := by
  fun_induction fill segments args generalizing parts with
  | case1 => simp_all [unfill]
  | case2 name rest args ih =>
      obtain ⟨others, hothers, rfl⟩ := Option.map_eq_some_iff.mp hparts
      simpa [unfill] using ih hothers
  | case3 name rest arg args ih =>
      obtain ⟨others, hothers, rfl⟩ := Option.map_eq_some_iff.mp hparts
      simp [unfill, Percent.decode_encode, ih hothers]
  | case4 => simp at hparts
  | case5 name rest args =>
      obtain rfl := Option.some.inj hparts
      exact Percent.mapM_decode_encode args

/-- Taking out accounts for every name of the path. -/
theorem length_of_unfill {segments : List Segment} {parts args : List Text}
    (hargs : unfill segments parts = some args) :
    parts.length = (fixedNames segments).length + args.length := by
  fun_induction unfill segments parts generalizing args with
  | case1 => simp_all [fixedNames]
  | case2 name rest parts ih =>
      have hrest := ih hargs
      simp only [fixedNames_fixed, List.length_cons]
      omega
  | case3 => simp at hargs
  | case4 name rest part parts ih =>
      obtain ⟨arg, -, htail⟩ := Option.bind_eq_some_iff.mp hargs
      obtain ⟨others, hothers, rfl⟩ := Option.map_eq_some_iff.mp htail
      have hrest := ih hothers
      simp only [fixedNames_placeholder, List.length_cons]
      omega
  | case5 name rest parts =>
      simp [Percent.length_of_mapM_decode hargs]
  | case6 => simp at hargs

/-! ## The names of a pattern -/

theorem mem_segments_of_mem_fixedNames {segments : List Segment} {name : Text}
    (hname : name ∈ fixedNames segments) : .fixed name ∈ segments := by
  obtain ⟨segment, hsegment, hfixed⟩ := List.mem_filterMap.mp hname
  have hmem := List.takeWhile_subset _ hsegment
  cases segment with
  | fixed _ =>
      obtain rfl := Option.some.inj hfixed
      exact hmem
  | placeholder _ => simp [Segment.fixedName?] at hfixed
  | wildcard _ => simp [Segment.fixedName?] at hfixed

/-- A fixed name stands in a pattern as one of its pieces. -/
theorem ofName_of_mem_segments {p : Pattern} {name : Text}
    (hname : .fixed name ∈ p.segments) :
    name ≠ [] ∧ '/' ∉ name ∧ Segment.ofName name = .fixed name := by
  simp only [segments, List.mem_map, List.mem_filter, decide_eq_true_eq] at hname
  obtain ⟨piece, ⟨hpiece, hne⟩, hfixed⟩ := hname
  obtain rfl : piece = name := by
    unfold Segment.ofName at hfixed
    split at hfixed
    · simp at hfixed
    · simp at hfixed
    · simpa using hfixed
  exact ⟨hne, Text.not_mem_of_mem_pieces hpiece, hfixed⟩

/-- No slash gets into the names that are put together. -/
theorem slash_not_mem_of_fill {p : Pattern} {segments : List Segment}
    {args parts : List Text} (hsegments : segments ⊆ p.segments)
    (hparts : fill segments args = some parts) : ∀ part ∈ parts, '/' ∉ part := by
  intro part hpart
  rcases List.mem_append.mp ((fill_perm hparts).mem_iff.mp hpart) with hfixed | htaken
  · exact (ofName_of_mem_segments (hsegments (mem_segments_of_mem_fixedNames hfixed))).2.1
  · obtain ⟨arg, -, rfl⟩ := List.mem_map.mp htaken
    exact Percent.slash_not_mem_encode arg

theorem ordinary_fill_iff {segments : List Segment} {args parts : List Text}
    (hparts : fill segments args = some parts) :
    (∀ part ∈ parts, Ordinary part) ↔
      ∀ part ∈ fixedNames segments ++ taken segments args, Ordinary part := by
  simp only [(fill_perm hparts).mem_iff, List.forall_mem_append, List.forall_mem_map,
    Percent.ordinary_encode_iff]

theorem build_of_fill {p : Pattern} {args parts : List Text}
    (hparts : fill p.segments args = some parts) :
    p.build args = .ok (Path.ofNames true (Path.resolve true parts)) := by
  have hfree := slash_not_mem_of_fill (List.Subset.refl _) hparts
  rw [build, hparts, ← Path.normalize_rooted hfree]

theorem build_eq_error_iff (p : Pattern) (args : List Text) :
    p.build args = .error (.insufficientArguments p.raw args.length) ↔
      args.length < p.placeholders := by
  have hnone : fill p.segments args = none ↔ args.length < p.placeholders :=
    fill_eq_none_iff p.segments args
  unfold build
  split
  · next hparts => simpa [hparts] using hnone
  · next hparts => simpa [hparts] using hnone

theorem exists_fill_of_le {p : Pattern} {args : List Text}
    (hargs : p.placeholders ≤ args.length) : ∃ parts, fill p.segments args = some parts := by
  apply Option.ne_none_iff_exists'.mp
  intro hnone
  have hlt := (fill_eq_none_iff p.segments args).mp hnone
  exact absurd hargs (Nat.not_le_of_lt hlt)

theorem extract_ofNames {p : Pattern} {below : List Text} (hbelow : Path.BelowRoot below) :
    p.extract (Path.ofNames true below) = unfill p.segments below := by
  change unfill p.segments (Path.steps (Path.ofNames true below)) = _
  rw [Path.steps_ofNames hbelow]

end Pattern
end Route
end PageTemplates
