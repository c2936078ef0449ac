import Mathlib.Data.List.Infix
import PageTemplates.Text.Basic

/-!
Cutting a text at one character and writing pieces with it in between undo each
other.  Both are the list library's own cut and join, which is where their laws
come from.  A text that is cut at a mark is cut where the mark occurs first.
-/

namespace PageTemplates.Text

theorem pieces_eq_splitOn (sep : Char) (t : Text) : pieces sep t = t.splitOn sep := by
  induction t with
  | nil => rfl
  | cons c rest ih =>
      rw [List.splitOn_cons_eq_if_modifyHead, ← ih]
      by_cases hc : c = sep
      · simp [pieces, hc]
      · cases hrest : pieces sep rest with
        | nil => exact absurd hrest (pieces_ne_nil sep rest)
        | cons piece others => simp [pieces, hc, hrest]

theorem joined_eq_intercalate (sep : Text) (parts : List Text) :
    joined sep parts = sep.intercalate parts := by
  induction parts with
  | nil => rfl
  | cons part rest ih =>
      cases rest with
      | nil => simp [joined]
      | cons next others => rw [joined, ih, List.intercalate_cons_cons]

/-- Pieces without the separator are found again between its occurrences. -/
theorem pieces_joined {sep : Char} {parts : List Text} (hne : parts ≠ [])
    (hfree : ∀ part ∈ parts, sep ∉ part) : pieces sep (joined [sep] parts) = parts := by
  rw [pieces_eq_splitOn, joined_eq_intercalate]
  exact List.splitOn_intercalate sep hfree hne

theorem pieces_append_cons (sep : Char) (s t : Text) :
    pieces sep (s ++ sep :: t) = pieces sep s ++ pieces sep t := by
  simp only [pieces_eq_splitOn]
  exact List.splitOn_append_cons_self s t

theorem pieces_of_not_mem {sep : Char} {t : Text} (ht : sep ∉ t) : pieces sep t = [t] :=
  pieces_joined (List.cons_ne_nil t []) fun _ hpart => List.mem_singleton.mp hpart ▸ ht

/-- What stands before and after the last occurrence of a character. -/
theorem exists_last_occurrence {c : Char} {t : Text} (hc : c ∈ t) :
    ∃ before last, t = before ++ c :: last ∧ c ∉ last := by
  obtain ⟨last, before, hsplit, hlast⟩ :=
    List.eq_append_cons_of_mem (List.mem_reverse.mpr hc)
  refine ⟨before.reverse, last.reverse, ?_, mt List.mem_reverse.mp hlast⟩
  rw [← List.reverse_reverse t, hsplit]
  simp

theorem not_mem_of_mem_pieces {sep : Char} {t piece : Text}
    (hpiece : piece ∈ pieces sep t) : sep ∉ piece := by
  induction t generalizing piece with
  | nil => simp_all [pieces]
  | cons c rest ih =>
      by_cases hc : c = sep
      · simp only [pieces, hc, if_true, List.mem_cons] at hpiece
        rcases hpiece with rfl | hpiece
        · exact List.not_mem_nil
        · exact ih hpiece
      · cases hrest : pieces sep rest with
        | nil => exact absurd hrest (pieces_ne_nil sep rest)
        | cons first others =>
            simp only [pieces, hc, if_false, hrest, List.mem_cons] at hpiece ih
            rcases hpiece with rfl | hpiece
            · have hfirst := ih (Or.inl rfl)
              simp only [List.mem_cons, not_or]
              exact ⟨Ne.symm hc, hfirst⟩
            · exact ih (Or.inr hpiece)

theorem length_pieces (sep : Char) (t : Text) :
    (pieces sep t).length = t.count sep + 1 := by
  induction t with
  | nil => rfl
  | cons c rest ih =>
      by_cases hc : c = sep
      · simp [pieces, hc, ih]
      · cases hrest : pieces sep rest with
        | nil => exact absurd hrest (pieces_ne_nil sep rest)
        | cons piece others =>
            rw [hrest] at ih
            simpa [pieces, hc, hrest] using ih

theorem joined_append (sep : Text) {parts more : List Text} (hparts : parts ≠ [])
    (hmore : more ≠ []) :
    joined sep (parts ++ more) = joined sep parts ++ sep ++ joined sep more := by
  obtain ⟨next, others, rfl⟩ := List.exists_cons_of_ne_nil hmore
  induction parts with
  | nil => exact absurd rfl hparts
  | cons part rest ih =>
      cases rest with
      | nil => rfl
      | cons second rest =>
          have htail := ih (List.cons_ne_nil second rest)
          simp only [List.cons_append] at htail ⊢
          rw [joined, htail, joined]
          simp

theorem joined_ne_nil (sep : Text) {parts : List Text} (hparts : parts ≠ [])
    (hne : ∀ part ∈ parts, part ≠ []) : joined sep parts ≠ [] := by
  obtain ⟨part, others, rfl⟩ := List.exists_cons_of_ne_nil hparts
  have hfirst : part ≠ [] := hne part List.mem_cons_self
  cases others with
  | nil => exact hfirst
  | cons next rest =>
      rw [joined, List.append_assoc]
      exact List.append_ne_nil_of_left_ne_nil hfirst _

/-- The first part, and each other one behind a separator. -/
theorem joined_cons (sep part : Text) (rest : List Text) :
    joined sep (part :: rest) = part ++ rest.flatMap (sep ++ ·) := by
  induction rest generalizing part with
  | nil => exact (List.append_nil part).symm
  | cons next others ih => rw [joined, ih, List.append_assoc, List.flatMap_cons, List.append_assoc]

/-- A character of a joined text comes from a piece or from the separator. -/
theorem mem_joined {sep : Text} {parts : List Text} {c : Char} (hc : c ∈ joined sep parts) :
    c ∈ sep ∨ ∃ part ∈ parts, c ∈ part := by
  induction parts with
  | nil => cases hc
  | cons part rest ih =>
      cases rest with
      | nil => exact .inr ⟨part, List.mem_cons_self, hc⟩
      | cons next others =>
          rw [joined, List.mem_append, List.mem_append] at hc
          rcases hc with (hc | hc) | hc
          · exact .inr ⟨part, List.mem_cons_self, hc⟩
          · exact .inl hc
          · apply (ih hc).imp_right
            rintro ⟨part, hpart, hc⟩
            exact ⟨part, List.mem_cons_of_mem _ hpart, hc⟩

/-- Leaving out pieces leaves out characters, and puts none in. -/
theorem joined_sublist (sep : Text) {parts more : List Text} (hparts : parts.Sublist more) :
    (joined sep parts).Sublist (joined sep more) := by
  induction hparts with
  | slnil => exact List.Sublist.refl []
  | @cons parts more part _ ih =>
      apply ih.trans
      cases more with
      | nil => exact List.nil_sublist part
      | cons next others => exact List.sublist_append_right (part ++ sep) _
  | @cons_cons parts more part hrest ih =>
      cases parts with
      | nil =>
          cases more with
          | nil => exact List.Sublist.refl part
          | cons next others =>
              rw [joined, joined, List.append_assoc]
              exact List.sublist_append_left part _
      | cons first others =>
          cases more with
          | nil => cases hrest
          | cons next rest => exact ih.append_left (part ++ sep)

/-- The parts, each with `mark` behind it. -/
def ended (mark : Char) (parts : List Text) : Text :=
  parts.flatMap (· ++ [mark])

theorem ended_append (mark : Char) (parts more : List Text) :
    ended mark (parts ++ more) = ended mark parts ++ ended mark more :=
  List.flatMap_append

theorem ended_eq_joined_append (mark : Char) {parts : List Text} (hparts : parts ≠ []) :
    ended mark parts = joined [mark] parts ++ [mark] := by
  induction parts with
  | nil => exact absurd rfl hparts
  | cons part rest ih =>
      cases rest with
      | nil => exact List.append_nil _
      | cons next others =>
          rw [joined, List.append_assoc, ← ih (List.cons_ne_nil next others)]
          rfl

theorem pieces_ended_append {mark : Char} {parts : List Text} (hfree : ∀ part ∈ parts, mark ∉ part)
    (rest : Text) : pieces mark (ended mark parts ++ rest) = parts ++ pieces mark rest := by
  induction parts with
  | nil => rfl
  | cons part others ih =>
      obtain ⟨hpart, hothers⟩ := List.forall_mem_cons.mp hfree
      have hshape : ended mark (part :: others) ++ rest =
          part ++ mark :: (ended mark others ++ rest) := by
        simp [ended]
      rw [hshape, pieces_append_cons, pieces_of_not_mem hpart, ih hothers]
      rfl

/-- With a mark behind each part, one text begins with another just when its parts begin with the
other's. -/
theorem ended_prefix_iff {mark : Char} {parts others : List Text}
    (hparts : ∀ part ∈ parts, mark ∉ part) (hothers : ∀ part ∈ others, mark ∉ part) :
    ended mark parts <+: ended mark others ↔ parts <+: others := by
  constructor
  · rintro ⟨rest, hrest⟩
    have hpieces : parts ++ pieces mark rest = others ++ [[]] := by
      rw [← pieces_ended_append hparts, hrest, ← List.append_nil (ended mark others),
        pieces_ended_append hothers]
      rfl
    have hlength : parts.length ≤ others.length := by
      have hsame := congrArg List.length hpieces
      have hsome : 0 < (pieces mark rest).length := List.length_pos_iff.mpr (pieces_ne_nil mark rest)
      simp only [List.length_append, List.length_singleton] at hsame
      omega
    exact List.prefix_of_prefix_length_le ⟨_, hpieces⟩ (List.prefix_append others [[]]) hlength
  · rintro ⟨more, rfl⟩
    rw [ended_append]
    exact List.prefix_append _ _

/-- A piece of a text holds only characters of the text. -/
theorem sublist_of_mem_pieces {sep : Char} {t piece : Text} (hpiece : piece ∈ pieces sep t) :
    piece.Sublist t := by
  have hjoined := joined_sublist [sep] (List.singleton_sublist.mpr hpiece)
  rwa [joined_pieces] at hjoined

/-! ## The first occurrence of a character -/

theorem bne_of_not_mem {mark : Char} {t : Text} (ht : mark ∉ t) :
    ∀ c ∈ t, (c != mark) = true := by
  intro c hc
  rw [bne_iff_ne]
  rintro rfl
  exact ht hc

theorem cut_singleton (mark : Char) (t : Text) :
    cut [mark] t =
      if mark ∈ t then some (t.takeWhile (· != mark), (t.dropWhile (· != mark)).tail)
      else none := by
  induction t with
  | nil => rfl
  | cons c rest ih =>
      by_cases hc : c = mark
      · subst hc
        simp [cut]
      · have hne : (c != mark) = true := bne_iff_ne.mpr hc
        have hmem : mark ∈ c :: rest ↔ mark ∈ rest := by simp [Ne.symm hc]
        have hpre : ¬[mark].isPrefixOf (c :: rest) = true := by
          simp [List.isPrefixOf, Ne.symm hc]
        rw [cut, if_neg hpre, ih]
        by_cases hrest : mark ∈ rest
        · rw [if_pos hrest, if_pos (hmem.mpr hrest)]
          simp [hne]
        · rw [if_neg hrest, if_neg (mt hmem.mp hrest)]
          rfl

/-! ## The first occurrence of a mark -/

/-- There is nothing to cut at only where the mark does not occur. -/
theorem not_infix_of_cut_none {mark t : Text} (h : cut mark t = none) : ¬ mark <:+: t := by
  induction t with
  | nil =>
      cases mark with
      | nil => cases h
      | cons m ms => simp
  | cons c rest ih =>
      rw [cut] at h
      split at h
      · cases h
      · next hhere =>
        rw [List.infix_cons_iff, not_or]
        exact ⟨mt List.isPrefixOf_iff_prefix.mpr hhere, ih (Option.map_eq_none_iff.mp h)⟩

/-- A text is cut where the mark occurs for the first time. -/
theorem not_infix_of_cut_some {mark t before after : Text} (hmark : mark ≠ [])
    (h : cut mark t = some (before, after)) : ¬ mark <:+: before := by
  induction t generalizing before with
  | nil =>
      cases mark with
      | nil => exact absurd rfl hmark
      | cons m ms => cases h
  | cons c rest ih =>
      have hsplit := eq_of_cut h
      rw [cut] at h
      split at h
      · obtain ⟨rfl, rfl⟩ := Prod.mk.inj (Option.some.inj h)
        rwa [List.infix_nil]
      · next hhere =>
        obtain ⟨⟨before, after⟩, hrest, hparts⟩ := Option.map_eq_some_iff.mp h
        obtain ⟨rfl, rfl⟩ := Prod.mk.inj hparts
        rw [List.infix_cons_iff, not_or]
        refine ⟨fun hstart => hhere (List.isPrefixOf_iff_prefix.mpr ?_), ih hrest⟩
        rw [hsplit, List.append_assoc]
        exact hstart.trans (List.prefix_append _ _)

/-- A mark that only begins to occur in what stands before it is where the text is cut. -/
theorem cut_append {mark before : Text} (hmark : mark ≠ [])
    (hfirst : ¬ mark <:+: before ++ mark.dropLast) (after : Text) :
    cut mark (before ++ mark ++ after) = some (before, after) := by
  induction before with
  | nil =>
      obtain ⟨m, ms, rfl⟩ := List.exists_cons_of_ne_nil hmark
      have hhere : (m :: ms).isPrefixOf (m :: (ms ++ after)) = true :=
        List.isPrefixOf_iff_prefix.mpr (List.prefix_append (m :: ms) after)
      rw [List.nil_append, List.cons_append, cut, if_pos hhere]
      simp
  | cons c rest ih =>
      have hlater : ¬ mark <:+: rest ++ mark.dropLast :=
        fun hoccurs => hfirst (hoccurs.trans (List.suffix_cons c _).isInfix)
      have hhere : ¬ mark.isPrefixOf (c :: (rest ++ mark ++ after)) = true := by
        intro hprefix
        have hlong : c :: (rest ++ mark.dropLast) <+: c :: (rest ++ mark ++ after) := by
          rw [List.append_assoc, List.prefix_cons_inj, List.prefix_append_right_inj]
          exact (List.dropLast_prefix mark).trans (List.prefix_append mark after)
        apply hfirst
        apply List.IsPrefix.isInfix
        apply List.prefix_of_prefix_length_le (List.isPrefixOf_iff_prefix.mp hprefix) hlong
        simp only [List.length_cons, List.length_append, List.length_dropLast]
        omega
      rw [List.cons_append, List.cons_append, cut, if_neg hhere, ih hlater]
      rfl

/-- Two characters stand side by side in a text only where one of its halves has them, or where
the halves meet. -/
theorem not_infix_pair_append {x y : Char} {s t : Text} (hs : ¬ [x, y] <:+: s)
    (ht : ¬ [x, y] <:+: t) (hmeet : s.getLast? = some x → t.head? ≠ some y) :
    ¬ [x, y] <:+: s ++ t := by
  induction s with
  | nil => exact ht
  | cons c rest ih =>
      rw [List.infix_cons_iff, not_or] at hs
      rw [List.cons_append, List.infix_cons_iff, not_or]
      constructor
      · intro hprefix
        obtain ⟨rfl, hnext⟩ := List.cons_prefix_cons.mp hprefix
        cases rest with
        | nil =>
            obtain ⟨others, rfl⟩ := hnext
            exact hmeet rfl rfl
        | cons next others =>
            obtain ⟨rfl, -⟩ := List.cons_prefix_cons.mp hnext
            exact hs.1 (List.prefix_append [x, y] others)
      · apply ih hs.2
        intro hlast
        apply hmeet
        rw [List.getLast?_cons, hlast]
        rfl

end PageTemplates.Text
