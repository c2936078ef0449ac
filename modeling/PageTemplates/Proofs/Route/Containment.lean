import PageTemplates.Proofs.Path.Within
import PageTemplates.Proofs.Route.Filling

/-!
Where a built path lies.  A pattern begins with fixed segments, and the path that
they make alone is the home of its paths.  The rest of the pattern, with the
arguments put in, is a relative way that starts at home: it is encoded name by
name, but resolved as a whole, so a double dot in an argument can lead out.
-/

namespace PageTemplates.Route

open PageTemplates.Path (ascent descent isWithin ofNames resolve up)

/-- Whether a segment stands as it is. -/
def Segment.isFixed : Segment → Bool
  | .fixed _ => true
  | _ => false

namespace Pattern

/-- The segments before the first that takes an argument. -/
def leading (p : Pattern) : List Segment :=
  p.segments.takeWhile (·.isFixed)

/-- The segments from the first that takes an argument on. -/
def following (p : Pattern) : List Segment :=
  p.segments.dropWhile (·.isFixed)

/-- The pattern of the leading segments alone. -/
def lead (p : Pattern) : Pattern :=
  ⟨'/' :: Text.joined ['/'] (p.leading.map Segment.name)⟩

theorem leading_append_following (p : Pattern) :
    p.leading ++ p.following = p.segments :=
  List.takeWhile_append_dropWhile

theorem isFixed_of_mem_leading {p : Pattern} {segment : Segment}
    (hsegment : segment ∈ p.leading) : segment.isFixed = true :=
  List.mem_takeWhile_imp (p := fun segment : Segment => segment.isFixed) hsegment

theorem ofName_of_mem_leading {p : Pattern} {segment : Segment}
    (hsegment : segment ∈ p.leading) :
    segment.name ≠ [] ∧ '/' ∉ segment.name ∧ Segment.ofName segment.name = segment := by
  have hfixed := isFixed_of_mem_leading hsegment
  have hmem : segment ∈ p.segments := List.takeWhile_subset _ hsegment
  cases segment with
  | fixed name => exact ofName_of_mem_segments hmem
  | placeholder name => exact absurd hfixed Bool.false_ne_true
  | wildcard name => exact absurd hfixed Bool.false_ne_true

/-- The pattern of the leading segments has just these. -/
theorem segments_lead (p : Pattern) : p.lead.segments = p.leading := by
  have hfree : ∀ name ∈ p.leading.map Segment.name, '/' ∉ name :=
    List.forall_mem_map.mpr fun segment hsegment => (ofName_of_mem_leading hsegment).2.1
  have hkept : (p.leading.map Segment.name).filter (· ≠ []) =
      p.leading.map Segment.name := by
    rw [List.filter_eq_self]
    exact List.forall_mem_map.mpr fun segment hsegment =>
      decide_eq_true (ofName_of_mem_leading hsegment).1
  have hback : p.leading.map (Segment.ofName ∘ Segment.name) = p.leading.map id :=
    List.map_congr_left fun segment hsegment => (ofName_of_mem_leading hsegment).2.2
  change (Path.steps ('/' :: Text.joined ['/'] (p.leading.map Segment.name))).map
    Segment.ofName = p.leading
  rw [Path.steps_rooted hfree, hkept, List.map_map, hback, List.map_id]

theorem fill_fixed_append (lead rest : List Segment) (args : List Text)
    (hlead : ∀ segment ∈ lead, segment.isFixed = true) :
    fill (lead ++ rest) args = (fill rest args).map (lead.map Segment.name ++ ·) := by
  induction lead with
  | nil => simp
  | cons segment others ih =>
      obtain ⟨hsegment, hothers⟩ := List.forall_mem_cons.mp hlead
      cases segment with
      | fixed name =>
          rw [List.cons_append, fill, ih hothers, Option.map_eq_map, Option.map_map]
          rfl
      | placeholder name => exact absurd hsegment Bool.false_ne_true
      | wildcard name => exact absurd hsegment Bool.false_ne_true

/-- The home of a pattern's paths needs no arguments. -/
theorem build_lead (p : Pattern) :
    p.lead.build [] = .ok (ofNames true (resolve true (p.leading.map Segment.name))) := by
  apply build_of_fill
  have hfill := fill_fixed_append p.leading [] [] fun _ => isFixed_of_mem_leading
  rw [segments_lead]
  simpa [fill] using hfill

/-- A path is the home of its pattern and then the way of the other segments. -/
theorem exists_way_of_build {p : Pattern} {args : List Text} {path : Text}
    (hpath : p.build args = .ok path) :
    ∃ way, fill p.following args = some way ∧
      path = ofNames true (resolve true (p.leading.map Segment.name ++ way)) := by
  have hsegments := fill_fixed_append p.leading p.following args
    fun _ => isFixed_of_mem_leading
  rw [leading_append_following] at hsegments
  cases hway : fill p.following args with
  | none => simp [build, hsegments, hway] at hpath
  | some way =>
      rw [hway] at hsegments
      have hbuild := build_of_fill hsegments
      rw [hpath] at hbuild
      exact ⟨way, rfl, Except.ok.inj hbuild⟩

theorem belowRoot_of_fill_following {p : Pattern} {args way : List Text}
    (hway : fill p.following args = some way) :
    Path.BelowRoot (resolve true (p.leading.map Segment.name)) ∧
      Path.BelowRoot (resolve true (p.leading.map Segment.name ++ way)) := by
  have hlead : ∀ name ∈ p.leading.map Segment.name, '/' ∉ name :=
    List.forall_mem_map.mpr fun segment hsegment => (ofName_of_mem_leading hsegment).2.1
  have hfollowing : p.following ⊆ p.segments := List.dropWhile_subset _
  have hfree := slash_not_mem_of_fill hfollowing hway
  exact ⟨Path.belowRoot_resolve hlead,
    Path.belowRoot_resolve (List.forall_mem_append.mpr ⟨hlead, hfree⟩)⟩

/-- A double dot on the way is a fixed name or an argument. -/
theorem up_not_mem_of_fill {segments : List Segment} {args way : List Text}
    (hway : fill segments args = some way) (hfixed : .fixed up ∉ segments)
    (hargs : up ∉ taken segments args) : up ∉ way := by
  intro hup
  rcases List.mem_append.mp ((fill_perm hway).mem_iff.mp hup) with hname | harg
  · exact hfixed (mem_segments_of_mem_fixedNames hname)
  · obtain ⟨arg, harg, heq⟩ := List.mem_map.mp harg
    have hencode : Percent.encode up = up := by decide
    rw [← hencode] at heq
    exact hargs (Percent.encode_injective heq ▸ harg)

/-- A built path lies at home if and only if the names that its way takes back are
the first ones that the way then adds; a way without double dots takes none back. -/
theorem build_isWithin_lead_iff {p : Pattern} {args : List Text} {path : Text}
    (hpath : p.build args = .ok path) :
    ∃ home way, p.lead.build [] = .ok home ∧ fill p.following args = some way ∧
      (isWithin path home = true ↔
        (Path.names home).rtake (ascent way) <+: descent way) ∧
      (.fixed up ∉ p.following → up ∉ taken p.following args →
        isWithin path home = true) := by
  obtain ⟨way, hway, rfl⟩ := exists_way_of_build hpath
  obtain ⟨hhome, hbelow⟩ := belowRoot_of_fill_following hway
  set base := resolve true (p.leading.map Segment.name) with hbase
  have hwithin : isWithin (ofNames true (resolve true (p.leading.map Segment.name ++ way)))
      (ofNames true base) = true ↔ base.rtake (ascent way) <+: descent way := by
    have hsplit : base.rdrop (ascent way) ++ base.rtake (ascent way) = base :=
      List.take_append_drop _ _
    rw [Path.isWithin_ofNames_iff hbelow hhome, Path.resolve_rooted_append, ← hbase]
    nth_rewrite 1 [← hsplit]
    exact List.prefix_append_right_inj _
  refine ⟨ofNames true base, way, build_lead p, hway, ?_, ?_⟩
  · rw [Path.names_ofNames hhome]
    exact hwithin
  · intro hfixed hargs
    rw [hwithin, Path.ascent_eq_zero (up_not_mem_of_fill hway hfixed hargs),
      List.rtake_zero]
    exact List.nil_prefix

/-- A way may go up, as long as it comes back through the names of its home. -/
theorem build_isWithin_lead_there_and_back :
    build ⟨"/files/old/*path".toList⟩ ["..".toList, "old".toList, "x".toList] =
        .ok "/files/old/x".toList ∧
      ∃ home, (lead ⟨"/files/old/*path".toList⟩).build [] = .ok home ∧
        isWithin "/files/old/x".toList home = true := by
  have hpath : build ⟨"/files/old/*path".toList⟩
      ["..".toList, "old".toList, "x".toList] = .ok "/files/old/x".toList := by decide
  have hlead : (lead ⟨"/files/old/*path".toList⟩).build [] =
      .ok "/files/old".toList := by decide
  have hfill : fill (following ⟨"/files/old/*path".toList⟩)
      ["..".toList, "old".toList, "x".toList] =
        some ["..".toList, "old".toList, "x".toList] := by decide
  obtain ⟨home, way, hhome, hway, hiff, -⟩ := build_isWithin_lead_iff hpath
  refine ⟨hpath, home, hhome, hiff.mpr ?_⟩
  obtain rfl := Except.ok.inj (hlead.symm.trans hhome)
  obtain rfl := Option.some.inj (hfill.symm.trans hway)
  decide

/-- The argument leads from a page of the administration to the root. -/
theorem build_leaves_lead :
    build ⟨"/admin/:page".toList⟩ ["..".toList] = .ok "/".toList ∧
      (lead ⟨"/admin/:page".toList⟩).build [] = .ok "/admin".toList ∧
      isWithin "/".toList "/admin".toList = false := by
  decide

end Pattern
end PageTemplates.Route
