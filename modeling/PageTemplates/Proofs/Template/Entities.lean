import Mathlib.Data.List.Infix
import Mathlib.Data.Set.Operations
import PageTemplates.Template.Escape

/-!
Escaping can be undone.  It puts in five entities, and no entity begins with another, so that one
pass from the left finds those that were put in and no others.  Main statement: the escaped texts
are just those without markup and without a bare ampersand, and each resolves to the one text that
it was escaped from.
-/

namespace PageTemplates.Template

/-- A character that may not stand in a page as itself, and the text that stands for it. -/
structure Entity where
  char : Char
  text : Text
deriving DecidableEq, Repr

/-- The entities that escaping puts in. -/
def entities : List Entity :=
  [⟨'&', "&amp;".toList⟩, ⟨'<', "&lt;".toList⟩, ⟨'>', "&gt;".toList⟩, ⟨'"', "&#34;".toList⟩,
    ⟨'\'', "&#39;".toList⟩]

/-- The entity that a text begins with. -/
def firstEntity? (t : Text) : Option Entity :=
  entities.find? fun entity => entity.text.isPrefixOf t

/-- The text with its entities replaced by their characters, in one pass from the left.  The pass
goes on behind an entity, so the character that it gave is not read again. -/
def resolveEntities : Text → Text
  | [] => []
  | c :: rest =>
    match firstEntity? (c :: rest) with
    | some entity => entity.char :: resolveEntities (rest.drop (entity.text.length - 1))
    | none => c :: resolveEntities rest
termination_by t => t.length
decreasing_by all_goals simp only [List.length_cons, List.length_drop]; omega

/-- The characters that end a text between tags or a quoted value of an attribute. -/
def markup : List Char :=
  ['<', '>', '"', '\'']

/-- A text that is read as text wherever it stands in a page: it holds no markup, and every
ampersand in it begins an entity. -/
structure Inert (t : Text) : Prop where
  plain : ∀ c ∈ markup, c ∉ t
  ampersand : ∀ after, '&' :: after <:+ t → ∃ entity ∈ entities, entity.text <+: '&' :: after

variable {entity : Entity} {c : Char} {s t after : Text}

/-! ## Entities -/

/-- An entity has no ampersand but the one it begins with. -/
theorem entity_shape : ∀ entity ∈ entities,
    entity.text = '&' :: entity.text.tail ∧ '&' ∉ entity.text.tail := by
  decide

theorem entity_plain : ∀ entity ∈ entities, ∀ c ∈ markup, c ∉ entity.text := by
  simp [entities, markup]

theorem escapeChar_entity : ∀ entity ∈ entities, escapeChar entity.char = entity.text := by
  decide

/-- Entities are a prefix code: two that begin at one place are the same. -/
theorem entities_unambiguous {other : Entity} (hentity : entity ∈ entities)
    (hother : other ∈ entities) (hhere : entity.text <+: t) (hthere : other.text <+: t) :
    entity = other := by
  have hcode : ∀ first ∈ entities, ∀ second ∈ entities,
      first.text <+: second.text → first = second := by decide
  rcases List.prefix_or_prefix_of_prefix hhere hthere with hprefix | hprefix
  · exact hcode entity hentity other hother hprefix
  · exact (hcode other hother entity hentity hprefix).symm

theorem of_firstEntity? (hfirst : firstEntity? t = some entity) :
    entity ∈ entities ∧ entity.text <+: t := by
  rw [firstEntity?] at hfirst
  have hbegins := List.find?_some hfirst
  exact ⟨List.mem_of_find?_eq_some hfirst, List.isPrefixOf_iff_prefix.mp hbegins⟩

theorem firstEntity?_eq_some_iff :
    firstEntity? t = some entity ↔ entity ∈ entities ∧ entity.text <+: t := by
  refine ⟨of_firstEntity?, ?_⟩
  rintro ⟨hentity, hprefix⟩
  cases hfirst : firstEntity? t with
  | none =>
      have hnone := List.find?_eq_none.mp hfirst entity hentity
      exact absurd (List.isPrefixOf_iff_prefix.mpr hprefix) hnone
  | some other =>
      obtain ⟨hother, hthere⟩ := of_firstEntity? hfirst
      rw [entities_unambiguous hentity hother hprefix hthere]

theorem firstEntity?_of_ne (hc : c ≠ '&') : firstEntity? (c :: t) = none := by
  rw [Option.eq_none_iff_forall_ne_some]
  intro entity hfirst
  obtain ⟨hentity, hprefix⟩ := of_firstEntity? hfirst
  rw [(entity_shape entity hentity).1] at hprefix
  exact hc (List.cons_prefix_cons.mp hprefix).1.symm

theorem exists_entity_iff : (∃ entity ∈ entities, entity.char = c) ↔ c = '&' ∨ c ∈ markup := by
  have hchars : entities.map Entity.char = '&' :: markup := rfl
  rw [← List.mem_map, hchars, List.mem_cons]

theorem escapeChar_of_no_entity (hc : ¬ ∃ entity ∈ entities, entity.char = c) :
    escapeChar c = [c] := by
  unfold escapeChar
  split
  case h_6 => rfl
  all_goals exact absurd (by decide) hc

theorem escapeChar_of_plain (hamp : c ≠ '&') (hc : c ∉ markup) : escapeChar c = [c] := by
  apply escapeChar_of_no_entity
  rw [exists_entity_iff, not_or]
  exact ⟨hamp, hc⟩

theorem exists_entity_or_plain (c : Char) :
    (∃ entity ∈ entities, entity.char = c) ∨ c ≠ '&' ∧ c ∉ markup := by
  rw [exists_entity_iff, ← not_or]
  exact Classical.em _

/-! ## Reading back -/

theorem drop_of_entity {rest : Text} (hentity : entity ∈ entities)
    (hrest : entity.text ++ after = c :: rest) :
    rest.drop (entity.text.length - 1) = after := by
  rw [(entity_shape entity hentity).1, List.cons_append] at hrest
  rw [← (List.cons.inj hrest).2, ← List.length_tail, List.drop_left]

theorem resolveEntities_of_some {rest : Text} (hfirst : firstEntity? (c :: rest) = some entity) :
    resolveEntities (c :: rest) =
      entity.char :: resolveEntities (rest.drop (entity.text.length - 1)) := by
  rw [resolveEntities, hfirst]

theorem resolveEntities_of_none {rest : Text} (hfirst : firstEntity? (c :: rest) = none) :
    resolveEntities (c :: rest) = c :: resolveEntities rest := by
  rw [resolveEntities, hfirst]

theorem resolveEntities_entity (hentity : entity ∈ entities) (after : Text) :
    resolveEntities (entity.text ++ after) = entity.char :: resolveEntities after := by
  obtain ⟨c, rest, hrest⟩ : ∃ c rest, entity.text ++ after = c :: rest := by
    rw [(entity_shape entity hentity).1]
    exact ⟨_, _, rfl⟩
  have hfirst : firstEntity? (c :: rest) = some entity :=
    firstEntity?_eq_some_iff.mpr ⟨hentity, after, hrest⟩
  rw [hrest, resolveEntities_of_some hfirst, drop_of_entity hentity hrest]

/-- Reading undoes escaping, character by character: what stands for the first one is taken off the
front, whatever follows it. -/
theorem resolveEntities_escape (s : Text) : resolveEntities (escape s) = s := by
  induction s with
  | nil => rw [escape_nil, resolveEntities]
  | cons c rest ih =>
      rw [escape_cons]
      rcases exists_entity_or_plain c with ⟨entity, hentity, rfl⟩ | ⟨hamp, hc⟩
      · rw [escapeChar_entity entity hentity, resolveEntities_entity hentity, ih]
      · rw [escapeChar_of_plain hamp hc, List.singleton_append,
          resolveEntities_of_none (firstEntity?_of_ne hamp), ih]

/-! ## Inert texts -/

theorem inert_nil : Inert [] where
  plain _ _ := List.not_mem_nil
  ampersand _ hafter := absurd (List.suffix_nil.mp hafter) (List.cons_ne_nil _ _)

theorem Inert.of_append (h : Inert (s ++ t)) : Inert t where
  plain c hc hmem := h.plain c hc (List.mem_append_right s hmem)
  ampersand after hafter := h.ampersand after (hafter.trans (List.suffix_append s t))

/-- An end of two texts in a row lies in the second one if it begins with a character that the first
does not have. -/
theorem suffix_of_suffix_append (hc : c ∉ s) (hafter : c :: after <:+ s ++ t) :
    c :: after <:+ t := by
  induction s with
  | nil => exact hafter
  | cons d rest ih =>
      obtain ⟨hd, hrest⟩ := not_or.mp (mt List.mem_cons.mpr hc)
      rw [List.cons_append, List.suffix_cons_iff] at hafter
      rcases hafter with hall | hafter
      · exact absurd (List.cons.inj hall).1 hd
      · exact ih hrest hafter

theorem Inert.entity_append (hentity : entity ∈ entities) (ht : Inert t) :
    Inert (entity.text ++ t) := by
  obtain ⟨hbegins, hname⟩ := entity_shape entity hentity
  constructor
  · intro c hc
    rw [List.mem_append, not_or]
    exact ⟨entity_plain entity hentity c hc, ht.plain c hc⟩
  · intro after hafter
    rw [hbegins, List.cons_append, List.suffix_cons_iff] at hafter
    -- The ampersand is the one at the front, or it lies behind the entity.
    rcases hafter with hall | hafter
    · refine ⟨entity, hentity, ?_⟩
      rw [hall, ← List.cons_append, ← hbegins]
      exact List.prefix_append entity.text t
    · exact ht.ampersand after (suffix_of_suffix_append hname hafter)

theorem Inert.cons (hamp : c ≠ '&') (hc : c ∉ markup) (ht : Inert t) : Inert (c :: t) where
  plain d hd hmem := by
    rcases List.mem_cons.mp hmem with rfl | hmem
    · exact hc hd
    · exact ht.plain d hd hmem
  ampersand after hafter := by
    rcases List.suffix_cons_iff.mp hafter with hall | hafter
    · exact absurd (List.cons.inj hall).1.symm hamp
    · exact ht.ampersand after hafter

theorem inert_escape (s : Text) : Inert (escape s) := by
  induction s with
  | nil => exact inert_nil
  | cons c rest ih =>
      rw [escape_cons]
      rcases exists_entity_or_plain c with ⟨entity, hentity, rfl⟩ | ⟨hamp, hc⟩
      · rw [escapeChar_entity entity hentity]
        exact ih.entity_append hentity
      · rw [escapeChar_of_plain hamp hc]
        exact ih.cons hamp hc

/-- Where no entity begins, an inert text holds a character that escaping keeps. -/
theorem Inert.escapeChar_of_none (ht : Inert (c :: t)) (hfirst : firstEntity? (c :: t) = none) :
    escapeChar c = [c] := by
  apply escapeChar_of_plain
  · rintro rfl
    obtain ⟨entity, hbegins⟩ := ht.ampersand t (List.suffix_refl _)
    rw [firstEntity?_eq_some_iff.mpr hbegins] at hfirst
    cases hfirst
  · intro hc
    exact ht.plain c hc List.mem_cons_self

/-- An inert text is what its own reading is escaped to. -/
theorem escape_resolveEntities (ht : Inert t) : escape (resolveEntities t) = t := by
  -- The induction follows the pass: an entity taken off the front, or a character that stays.
  induction t using resolveEntities.induct with
  | case1 => rw [resolveEntities, escape_nil]
  | case2 c rest entity hfirst ih =>
      obtain ⟨hentity, after, hafter⟩ := of_firstEntity? hfirst
      rw [drop_of_entity hentity hafter] at ih
      rw [← hafter] at ht ⊢
      rw [resolveEntities_entity hentity, escape_cons, escapeChar_entity entity hentity,
        ih ht.of_append]
  | case3 c rest hfirst ih =>
      have hrest : Inert rest := ht.of_append (s := [c])
      rw [resolveEntities_of_none hfirst, escape_cons, ht.escapeChar_of_none hfirst, ih hrest,
        List.singleton_append]

/-- Escaping makes every text inert, and one pass from the left gives the text back; every inert
text is the escaped form of some text, and of one only.  Texts may be escaped in parts. -/
theorem escape_reversible :
    (∀ s, Inert (escape s) ∧ resolveEntities (escape s) = s) ∧
      Set.range escape = {t | Inert t} ∧
      Function.Injective escape ∧
      ∀ s t, escape (s ++ t) = escape s ++ escape t := by
  refine ⟨fun s => ⟨inert_escape s, resolveEntities_escape s⟩, ?_, ?_, escape_append⟩
  · ext t
    constructor
    · rintro ⟨s, rfl⟩
      exact inert_escape s
    · intro ht
      exact ⟨resolveEntities t, escape_resolveEntities ht⟩
  · exact Function.LeftInverse.injective resolveEntities_escape

example : escape "&lt; &".toList = "&amp;lt; &amp;".toList ∧
    resolveEntities "&amp;lt; &amp;".toList = "&lt; &".toList := by decide +kernel

end PageTemplates.Template
