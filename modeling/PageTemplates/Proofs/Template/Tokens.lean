import PageTemplates.Proofs.Except
import PageTemplates.Proofs.Text.Pieces
import PageTemplates.Template.Statement

/-!
What a source is cut into, and which token comes from where.  The pieces of a source with the
marks between them are the source again, and no text among them has an opening mark in it.
Whether a run of text is trimmed is for the actions beside it to say, and the line of an action
is that of its opening mark, whatever stands before it; so a fault is always reported with the
line of some opening mark.
-/

namespace PageTemplates

theorem Text.lineEnds_append (s t : Text) : (s ++ t).lineEnds = s.lineEnds + t.lineEnds :=
  List.countP_append

namespace Template

/-! ## Cutting -/

/-- What a piece is cut out of. -/
def Piece.source (piece : Piece) : Text :=
  piece.text ++ openMark ++ piece.body ++ closeMark

theorem Piece.lineEnds_source (piece : Piece) :
    piece.source.lineEnds = piece.text.lineEnds + piece.body.lineEnds := by
  have hopen : openMark.lineEnds = 0 := rfl
  have hclose : closeMark.lineEnds = 0 := rfl
  simp only [source, Text.lineEnds_append, hopen, hclose, Nat.add_zero]

theorem cutSource_of_cut_none {line : Nat} {source : Text} (h : Text.cut openMark source = none) :
    cutSource line source = .ok ([], source) := by
  rw [cutSource]
  split
  · rfl
  · next hsome =>
    rw [h] at hsome
    cases hsome

theorem cutSource_of_cut_some {line : Nat} {source text inner body after : Text}
    (hopen : Text.cut openMark source = some (text, inner))
    (hclose : closeAction inner = some (body, after)) :
    cutSource line source = (cutSource (line + text.lineEnds + body.lineEnds) after).map
      fun (pieces, tail) => (⟨text, body⟩ :: pieces, tail) := by
  rw [cutSource]
  split
  · next hnone =>
    rw [hopen] at hnone
    cases hnone
  · next hsome =>
    rw [hopen] at hsome
    obtain ⟨rfl, rfl⟩ := Prod.mk.inj (Option.some.inj hsome)
    split
    · next hnone =>
      rw [hclose] at hnone
      cases hnone
    · next hsome =>
      rw [hclose] at hsome
      obtain ⟨rfl, rfl⟩ := Prod.mk.inj (Option.some.inj hsome)
      rfl

/-- Pieces that a source can be cut into, and the text after the last action. -/
structure Cut (source : Text) (pieces : List Piece) (tail : Text) : Prop where
  whole : source = pieces.flatMap Piece.source ++ tail
  text_free : ∀ piece ∈ pieces, ¬ openMark <:+: piece.text
  tail_free : ¬ openMark <:+: tail

theorem cut_of_cutSource {line : Nat} {source tail : Text} {pieces : List Piece}
    (h : cutSource line source = .ok (pieces, tail)) : Cut source pieces tail := by
  fun_induction cutSource line source generalizing pieces tail with
  | case1 line source hnone =>
      obtain ⟨rfl, rfl⟩ := Prod.mk.inj (Except.ok.inj h)
      exact ⟨rfl, List.forall_mem_nil _, Text.not_infix_of_cut_none hnone⟩
  | case2 => cases h
  | case3 line source text inner hopen body after hclose ih =>
      obtain ⟨⟨rest, last⟩, hrest, hparts⟩ := Except.map_eq_ok_iff.mp h
      obtain ⟨rfl, rfl⟩ := Prod.mk.inj hparts
      obtain ⟨hwhole, htexts, htail⟩ := ih hrest
      refine ⟨?_, List.forall_mem_cons.mpr ⟨?_, htexts⟩, htail⟩
      · rw [Text.eq_of_cut hopen, eq_of_closeAction hclose, hwhole, List.flatMap_cons, Piece.source]
        simp only [List.append_assoc]
      · exact Text.not_infix_of_cut_some (by decide) hopen

/-- Whether a line is that of an opening mark in the source. -/
def AtOpenMark (source : Text) (line : Nat) : Prop :=
  ∃ before after, source = before ++ openMark ++ after ∧ line = 1 + before.lineEnds

/-- An action that is never closed is reported where it begins. -/
theorem exists_openMark_of_cutSource {line : Nat} {source : Text} {e : ParseError}
    (h : cutSource line source = .error e) :
    ∃ before after, source = before ++ openMark ++ after ∧ e.line = line + before.lineEnds := by
  fun_induction cutSource line source with
  | case1 => cases h
  | case2 line source text inner hopen hclose =>
      obtain rfl := Except.error.inj h
      exact ⟨text, inner, Text.eq_of_cut hopen, rfl⟩
  | case3 line source text inner hopen body after hclose ih =>
      obtain ⟨before, rest, hafter, hline⟩ := ih (Except.map_eq_error_iff.mp h)
      refine ⟨Piece.source ⟨text, body⟩ ++ before, rest, ?_, ?_⟩
      · rw [Text.eq_of_cut hopen, eq_of_closeAction hclose, hafter, Piece.source]
        simp only [List.append_assoc]
      · rw [hline, Text.lineEnds_append, Piece.lineEnds_source, ← Nat.add_assoc,
          ← Nat.add_assoc]

/-! ## Marks that trim -/

/-- Whether the inside of an action begins with the mark that trims the text before it. -/
def trimsBefore : Text → Bool
  | '-' :: c :: _ => Text.isBlank c
  | _ => false

/-- Whether the inside of an action ends with the mark that trims the text after it. -/
def trimsAfter (body : Text) : Bool :=
  trimsBefore body.reverse

/-- The inside of an action without these marks and the blanks around it. -/
def inside (body : Text) : Text :=
  let body' := if trimsBefore body then body.tail else body
  Text.trim (if trimsAfter body then body'.dropLast else body')

theorem trimsBefore_iff {body : Text} :
    trimsBefore body = true ↔ ∃ c rest, body = '-' :: c :: rest ∧ Text.isBlank c = true := by
  constructor
  · intro h
    unfold trimsBefore at h
    split at h
    · next c rest => exact ⟨c, rest, rfl, h⟩
    · cases h
  · rintro ⟨c, rest, rfl, hc⟩
    exact hc

theorem trimsAfter_iff {body : Text} :
    trimsAfter body = true ↔ ∃ rest c, body = rest ++ [c, '-'] ∧ Text.isBlank c = true := by
  rw [trimsAfter, trimsBefore_iff]
  constructor
  · rintro ⟨c, rest, hbody, hc⟩
    exact ⟨rest.reverse, c, by rw [← List.reverse_reverse body, hbody]; simp, hc⟩
  · rintro ⟨rest, c, rfl, hc⟩
    exact ⟨c, rest.reverse, by simp, hc⟩

theorem dropLeftMark?_eq (body : Text) :
    dropLeftMark? body = if trimsBefore body then some body.tail else none := by
  unfold dropLeftMark?
  split
  · rfl
  · next hnot =>
    rw [if_neg]
    intro h
    obtain ⟨c, rest, hbody, -⟩ := trimsBefore_iff.mp h
    exact hnot c rest hbody

theorem dropRightMark?_eq (body : Text) :
    dropRightMark? body = if trimsAfter body then some body.dropLast else none := by
  rw [dropRightMark?, dropLeftMark?_eq, ← trimsAfter]
  split
  · rw [Option.map_some, List.tail_reverse, List.reverse_reverse]
  · rfl

/-- The two marks can share their blank, but neither is ever part of the other. -/
theorem trimsAfter_tail {body : Text} (h : trimsBefore body = true) :
    trimsAfter body.tail = trimsAfter body := by
  obtain ⟨c, rest, rfl, -⟩ := trimsBefore_iff.mp h
  rw [List.tail_cons, Bool.eq_iff_iff, trimsAfter_iff, trimsAfter_iff]
  constructor
  · rintro ⟨before, last, hsplit, hlast⟩
    exact ⟨'-' :: before, last, by rw [hsplit, List.cons_append], hlast⟩
  · rintro ⟨before, last, hsplit, hlast⟩
    cases before with
    | nil =>
        -- A dash is no blank.
        rw [← (List.cons.inj hsplit).1] at hlast
        exact absurd hlast (by decide)
    | cons first before => exact ⟨before, last, (List.cons.inj hsplit).2, hlast⟩

/-- Taking off one mark and then the other finds both of them as they stand. -/
theorem dropMarks_eq (body : Text) :
    let left := dropLeftMark? body
    let right := dropRightMark? (left.getD body)
    left.isSome = trimsBefore body ∧ right.isSome = trimsAfter body ∧
      Text.trim (right.getD (left.getD body)) = inside body := by
  simp only [dropLeftMark?_eq, dropRightMark?_eq, inside]
  cases hbefore : trimsBefore body with
  | false =>
      simp only [Bool.false_eq_true, if_false, Option.getD_none]
      cases trimsAfter body <;> exact ⟨rfl, rfl, rfl⟩
  | true =>
      simp only [if_true, Option.getD_some, trimsAfter_tail hbefore]
      cases trimsAfter body <;> exact ⟨rfl, rfl, rfl⟩

/-! ## Places -/

/-- A run of text in a source: the source before it, the inside of the action before it, the text
itself, and the inside of the action after it. -/
structure Place where
  before : Text
  previous : Option Text
  text : Text
  next : Option Text

/-- The runs of text of a source that has been cut, from one of them on. -/
def placesFrom (before : Text) (previous : Option Text) : List Piece → Text → List Place
  | [], tail => [⟨before, previous, tail, none⟩]
  | piece :: rest, tail =>
    ⟨before, previous, piece.text, some piece.body⟩ ::
      placesFrom (before ++ piece.source) (some piece.body) rest tail

namespace Place

/-- The text without the blanks that the actions beside it trim. -/
def shown (place : Place) : Text :=
  let text := if place.previous.any trimsAfter then place.text.trimStart else place.text
  if place.next.any trimsBefore then text.trimEnd else text

/-- The line of the opening mark after the text. -/
def line (place : Place) : Nat :=
  1 + (place.before ++ place.text).lineEnds

/-- The text, unless nothing of it is left, and the action after it, unless that is a comment. -/
def tokens (place : Place) : List Token :=
  textToken place.shown ++
    match place.next with
    | none => []
    | some body => if isComment (inside body) then [] else [.action (inside body) place.line]

end Place

theorem tokensOf_eq {line : Nat} {trimNext : Bool} {before : Text} {previous : Option Text}
    (hline : line = 1 + before.lineEnds) (htrim : trimNext = previous.any trimsAfter)
    (pieces : List Piece) (tail : Text) :
    tokensOf line trimNext pieces tail =
      (placesFrom before previous pieces tail).flatMap Place.tokens := by
  induction pieces generalizing line trimNext before previous with
  | nil =>
      simp only [tokensOf, placesFrom, List.flatMap_singleton, Place.tokens, List.append_nil, htrim]
      rfl
  | cons piece rest ih =>
      obtain ⟨hleft, hright, hinside⟩ := dropMarks_eq piece.body
      have hstart : line + piece.text.lineEnds = 1 + (before ++ piece.text).lineEnds := by
        rw [hline, Text.lineEnds_append, Nat.add_assoc]
      have hnext : 1 + (before ++ piece.text).lineEnds + piece.body.lineEnds =
          1 + (before ++ piece.source).lineEnds := by
        simp only [Text.lineEnds_append, Piece.lineEnds_source, Nat.add_assoc]
      have hrest : tokensOf (1 + (before ++ piece.text).lineEnds + piece.body.lineEnds)
          (trimsAfter piece.body) rest tail =
            (placesFrom (before ++ piece.source) (some piece.body) rest tail).flatMap Place.tokens :=
        ih hnext rfl
      rw [tokensOf, placesFrom, List.flatMap_cons]
      simp only [hleft, hright, hinside, htrim, hstart, hrest]
      rfl

theorem tokenize_eq_ok_iff {source : Text} {tokens : List Token} :
    tokenize source = .ok tokens ↔ ∃ pieces tail, cutSource 1 source = .ok (pieces, tail) ∧
      (placesFrom [] none pieces tail).flatMap Place.tokens = tokens := by
  have hplaces : ∀ pieces tail, tokensOf 1 false pieces tail =
      (placesFrom [] none pieces tail).flatMap Place.tokens := tokensOf_eq rfl rfl
  simp only [tokenize, Except.map_eq_ok_iff, Prod.exists, hplaces]

/-! ## Lines -/

theorem mem_placesFrom {before : Text} {previous : Option Text} {pieces : List Piece}
    {tail : Text} {place : Place} (hplace : place ∈ placesFrom before previous pieces tail)
    (hnext : place.next.isSome) :
    ∃ after, before ++ (pieces.flatMap Piece.source ++ tail) =
      place.before ++ place.text ++ openMark ++ after := by
  induction pieces generalizing before previous with
  | nil =>
      obtain rfl := List.mem_singleton.mp hplace
      cases hnext
  | cons piece rest ih =>
      rcases List.mem_cons.mp hplace with rfl | hrest
      · exact ⟨piece.body ++ closeMark ++ (rest.flatMap Piece.source ++ tail), by
          simp [Piece.source]⟩
      · obtain ⟨after, hafter⟩ := ih hrest
        exact ⟨after, by rw [← hafter]; simp⟩

/-- The only action among the tokens of a place is the one after its text. -/
theorem Place.eq_of_action_mem_tokens {place : Place} {body : Text} {line : Nat}
    (htoken : .action body line ∈ place.tokens) : place.next.isSome ∧ line = place.line := by
  rcases List.mem_append.mp htoken with htext | haction
  · unfold textToken at htext
    split at htext
    · cases htext
    · cases List.mem_singleton.mp htext
  · cases hnext : place.next with
    | none =>
        rw [hnext] at haction
        cases haction
    | some next =>
        simp only [hnext] at haction
        split at haction
        · cases haction
        · obtain ⟨-, rfl⟩ := Token.action.inj (List.mem_singleton.mp haction)
          exact ⟨rfl, rfl⟩

/-- The line of an action is that of its opening mark. -/
theorem atOpenMark_of_mem_tokens {source : Text} {tokens : List Token}
    (htokens : tokenize source = .ok tokens) {body : Text} {line : Nat}
    (htoken : .action body line ∈ tokens) : AtOpenMark source line := by
  obtain ⟨pieces, tail, hcut, rfl⟩ := tokenize_eq_ok_iff.mp htokens
  obtain ⟨place, hplace, htoken⟩ := List.mem_flatMap.mp htoken
  obtain ⟨hnext, rfl⟩ := Place.eq_of_action_mem_tokens htoken
  obtain ⟨after, hafter⟩ := mem_placesFrom hplace hnext
  exact ⟨place.before ++ place.text, after, (cut_of_cutSource hcut).whole.trans hafter, rfl⟩

theorem line_of_readAction {known : Text → Bool} {line : Nat} {outermost : Bool} {body : Text}
    {e : ParseError} (he : readAction known line outermost body = .error e) : e.line = line := by
  obtain ⟨fault, -, rfl⟩ := Except.mapError_eq_error_iff.mp he
  rfl

/-- The line of an action. -/
def Token.line? : Token → Option Nat
  | .text _ => none
  | .action _ line => some line

/-- A fault is reported with the line of an action, or with that of a statement still open, which is
the line of the action that opened it. -/
theorem line_of_statementsFrom {known : Text → Bool} {frames : List Frame}
    {done : List Statement} {tokens : List Token} {e : ParseError}
    (he : statementsFrom known frames done tokens = .error e) :
    e.line ∈ frames.map Frame.line ++ tokens.filterMap Token.line? := by
  have hlater : ∀ {first rest : List Nat} (line : Nat), e.line ∈ first ++ rest →
      e.line ∈ first ++ line :: rest := by
    intro first rest line hline
    rw [List.perm_middle.mem_iff]
    exact List.mem_cons_of_mem line hline
  fun_induction statementsFrom known frames done tokens with
  | case1 => cases he
  | case2 frame outer done =>
      obtain rfl := Except.error.inj he
      exact List.mem_cons_self
  | case3 frames done content rest ih => exact ih he
  | case4 frames done body line rest fault hread =>
      obtain rfl := Except.error.inj he
      obtain rfl := line_of_readAction hread
      exact List.mem_append_right _ List.mem_cons_self
  | case5 frames done body line rest statement hread ih => exact hlater line (ih he)
  | case6 frames done body line rest head hread ih =>
      -- The statement that is opened has the line of this action.
      exact List.perm_middle.mem_iff.mpr (ih he)
  | case7 | case8 | case9 | case11 =>
      obtain rfl := Except.error.inj he
      exact List.mem_append_right _ List.mem_cons_self
  | case10 done body line rest frame outer hbranches hfirst hread ih => exact hlater line (ih he)
  | case12 done body line rest frame outer hread ih =>
      exact List.mem_cons_of_mem frame.line (hlater line (ih he))

theorem atOpenMark_of_tokenize {source : Text} {e : ParseError}
    (he : tokenize source = .error e) : AtOpenMark source e.line :=
  exists_openMark_of_cutSource (Except.map_eq_error_iff.mp he)

theorem atOpenMark_of_parse {known : Text → Bool} {source : Text} {e : ParseError}
    (he : parse known source = .error e) : AtOpenMark source e.line := by
  rw [parse, Except.map_eq_error_iff] at he
  rcases Except.bind_eq_error_iff.mp he with htokens | ⟨tokens, htokens, he⟩
  · exact atOpenMark_of_tokenize htokens
  · obtain ⟨token, htoken, hline⟩ := List.mem_filterMap.mp (line_of_statementsFrom he)
    cases token with
    | text content => cases hline
    | action body line =>
        obtain rfl := Option.some.inj hline
        exact atOpenMark_of_mem_tokens htokens htoken

/-- The tokens of a source are what stands in it, in order: its texts without the blanks that the
actions beside them trim, if anything is left of them, and its actions but for the comments, without
marks and blanks around them and with the lines where they begin.  A source that cannot be cut or
read is faulted with such a line. -/
theorem tokenize_accounts (source : Text) :
    (∀ tokens, tokenize source = .ok tokens → ∃ pieces tail, Cut source pieces tail ∧
        tokens = (placesFrom [] none pieces tail).flatMap Place.tokens) ∧
      (∀ e, tokenize source = .error e → AtOpenMark source e.line) ∧
      ∀ known e, parse known source = .error e → AtOpenMark source e.line := by
  refine ⟨fun tokens htokens => ?_, fun e => atOpenMark_of_tokenize,
    fun known e => atOpenMark_of_parse⟩
  obtain ⟨pieces, tail, hcut, hplaces⟩ := tokenize_eq_ok_iff.mp htokens
  exact ⟨pieces, tail, cut_of_cutSource hcut, hplaces.symm⟩

/-- An action over two lines, a comment, and an action in which both marks share their blank: nothing
is left in it, which is what is wrong with the source, unless a further action is never closed. -/
theorem tokenize_accounts_shared_blank :
    let source := "a\n\x7b\x7b .b\n -\x7d\x7d c \x7b\x7b /* d */ \x7d\x7d \x7b\x7b- -\x7d\x7d\ne".toList
    let tokens := [Token.text "a\n".toList, .action ".b".toList 2, .text "c ".toList,
      .action [] 3, .text "e".toList]
    let unclosed := source ++ "\n\x7b\x7b".toList
    tokenize source = .ok tokens ∧
      (∃ pieces tail, Cut source pieces tail ∧
        tokens = (placesFrom [] none pieces tail).flatMap Place.tokens) ∧
      tokenize unclosed = .error ⟨5, .unclosedAction⟩ ∧ AtOpenMark unclosed 5 ∧
      parse (fun _ => false) source = .error ⟨3, .missingValue⟩ ∧ AtOpenMark source 3 := by
  intro source tokens unclosed
  have htokens : tokenize source = .ok tokens :=
    Except.toOption_eq_some_iff.mp (by decide +kernel)
  have hunclosed : tokenize unclosed = .error ⟨5, .unclosedAction⟩ := by
    rw [← Except.map_eq_error_iff (f := fun _ => ())]
    decide +kernel
  have hempty : parse (fun _ => false) source = .error ⟨3, .missingValue⟩ := by
    rw [← Except.map_eq_error_iff (f := fun _ => ())]
    decide +kernel
  exact ⟨htokens, (tokenize_accounts source).1 tokens htokens, hunclosed,
    (tokenize_accounts unclosed).2.1 _ hunclosed, hempty,
    (tokenize_accounts source).2.2 _ _ hempty⟩

end Template
end PageTemplates
