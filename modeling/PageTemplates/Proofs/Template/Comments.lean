import PageTemplates.Proofs.Template.Tokens

/-!
Comments leave no trace but their lines.  Where an action is a comment, the tokens of the source
are those of the text before it and those of the source after it, which are what they would be
by themselves but for the lines that come before.
-/

namespace PageTemplates.Template

/-- A comment, as it stands inside an action. -/
def comment (c : Text) : Text :=
  commentOpen ++ c ++ commentClose

/-- A token of a source with more lines before it. -/
def Token.later (lines : Nat) : Token → Token
  | .text content => .text content
  | .action body line => .action body (line + lines)

/-- A fault of a source with more lines before it. -/
def ParseError.later (lines : Nat) (e : ParseError) : ParseError :=
  ⟨e.line + lines, e.fault⟩

/-! ## Lines before a source -/

theorem cutSource_of_unclosed {line : Nat} {source text inner : Text}
    (hopen : Text.cut openMark source = some (text, inner)) (hclose : closeAction inner = none) :
    cutSource line source = .error ⟨line + text.lineEnds, .unclosedAction⟩ := by
  rw [cutSource]
  split
  · next hnone =>
    rw [hopen] at hnone
    cases hnone
  · next hsome =>
    rw [hopen] at hsome
    obtain ⟨rfl, rfl⟩ := Prod.mk.inj (Option.some.inj hsome)
    split
    · rfl
    · next hsome =>
      rw [hclose] at hsome
      cases hsome

/-- Where a source is cut does not depend on the line that it begins in. -/
theorem cutSource_later (lines line : Nat) (source : Text) :
    cutSource (line + lines) source = (cutSource line source).mapError (ParseError.later lines) := by
  fun_induction cutSource line source with
  | case1 line source hopen => exact cutSource_of_cut_none hopen
  | case2 line source text inner hopen hclose =>
      rw [cutSource_of_unclosed hopen hclose, Nat.add_right_comm]
      rfl
  | case3 line source text inner hopen body after hclose ih =>
      have hlines : line + lines + text.lineEnds + body.lineEnds =
          line + text.lineEnds + body.lineEnds + lines := by omega
      rw [cutSource_of_cut_some hopen hclose, hlines, ih]
      cases cutSource (line + text.lineEnds + body.lineEnds) after <;> rfl

theorem map_later_textToken (lines : Nat) (t : Text) :
    (textToken t).map (Token.later lines) = textToken t := by
  unfold textToken
  split <;> rfl

theorem tokensOf_later (lines line : Nat) (trimNext : Bool) (pieces : List Piece) (tail : Text) :
    tokensOf (line + lines) trimNext pieces tail =
      (tokensOf line trimNext pieces tail).map (Token.later lines) := by
  induction pieces generalizing line trimNext with
  | nil => exact (map_later_textToken lines _).symm
  | cons piece rest ih =>
      have hstart : line + lines + piece.text.lineEnds = line + piece.text.lineEnds + lines := by
        omega
      have hnext : line + piece.text.lineEnds + lines + piece.body.lineEnds =
          line + piece.text.lineEnds + piece.body.lineEnds + lines := by omega
      simp only [tokensOf, List.map_append, map_later_textToken, hstart, hnext, ih,
        apply_ite (List.map (Token.later lines)), List.map_cons, List.map_nil, Token.later]

/-- The tokens after a piece are those of the rest of the source, but for their lines. -/
theorem tokenize_of_cut {source text inner body after : Text}
    (hopen : Text.cut openMark source = some (text, inner))
    (hclose : closeAction inner = some (body, after)) :
    tokenize source = ((cutSource 1 after).mapError
      (ParseError.later (text.lineEnds + body.lineEnds))).map
        fun (pieces, tail) => tokensOf 1 false (⟨text, body⟩ :: pieces) tail := by
  rw [tokenize, cutSource_of_cut_some hopen hclose, Nat.add_assoc, cutSource_later, Except.map_map]
  rfl

/-! ## One comment -/

theorem lineEnds_comment (c : Text) : (comment c).lineEnds = c.lineEnds := by
  have hopen : commentOpen.lineEnds = 0 := rfl
  have hclose : commentClose.lineEnds = 0 := rfl
  simp only [comment, Text.lineEnds_append, hopen, hclose, Nat.zero_add, Nat.add_zero]

/-- The action of a comment ends with it, whatever else the comment has in it. -/
theorem closeAction_comment {c : Text} (hc : ¬ commentClose <:+: c)
    (hslash : c.head? = some '/' → ¬ closeMark <:+: c) (after : Text) :
    closeAction (comment c ++ closeMark ++ after) = some (comment c, after) := by
  have hlead : (comment c ++ closeMark ++ after).takeWhile (fun c => c == '-' || Text.isBlank c) =
      [] := rfl
  have hcontent :
      (comment c ++ closeMark ++ after).dropWhile (fun c => c == '-' || Text.isBlank c) =
        comment c ++ closeMark ++ after := rfl
  have hstart : commentOpen.isPrefixOf (comment c ++ closeMark ++ after) = true := rfl
  unfold closeAction
  simp only [hlead, hcontent, hstart, if_true, List.nil_append]
  by_cases hfirst : c.head? = some '/'
  · -- The comment ends in its own opening mark, and its action where it should.
    obtain ⟨rest, rfl⟩ := List.head?_eq_some_iff.mp hfirst
    have hrest : ¬ closeMark <:+: rest ++ commentClose ++ closeMark.dropLast := by
      have hnone : ¬ closeMark <:+: commentClose ++ closeMark.dropLast := by decide
      rw [List.append_assoc]
      apply Text.not_infix_pair_append _ hnone (fun _ => by decide)
      exact fun hoccurs => hslash hfirst (hoccurs.trans (List.suffix_cons '/' rest).isInfix)
    have hcomment : Text.cut commentClose (comment ('/' :: rest) ++ closeMark ++ after) =
        some (['/'], rest ++ commentClose ++ closeMark ++ after) := by
      have hshape : comment ('/' :: rest) ++ closeMark ++ after =
          ['/'] ++ commentClose ++ (rest ++ commentClose ++ closeMark ++ after) := by
        simp [comment, commentOpen, commentClose]
      rw [hshape]
      exact Text.cut_append (by decide) (by decide) _
    rw [hcomment, Option.bind_some, Text.cut_append (by decide) hrest]
    simp [comment, commentOpen, commentClose]
  · have hbefore : ¬ commentClose <:+: commentOpen ++ c ++ commentClose.dropLast := by
      have hnone : ¬ commentClose <:+: commentOpen := by decide
      have hlast : ¬ commentClose <:+: commentClose.dropLast := by decide
      apply Text.not_infix_pair_append _ hlast (fun _ => by decide)
      exact Text.not_infix_pair_append hnone hc fun _ => hfirst
    have hcomment : Text.cut commentClose (comment c ++ closeMark ++ after) =
        some (commentOpen ++ c, closeMark ++ after) := by
      rw [← Text.cut_append (by decide) hbefore]
      simp [comment]
    have hmark : Text.cut closeMark (closeMark ++ after) = some ([], after) := rfl
    rw [hcomment, Option.bind_some, hmark]
    simp [comment]

/-- A comment has no mark that trims, and is one as it stands. -/
theorem comment_marks (c : Text) :
    trimsBefore (comment c) = false ∧ trimsAfter (comment c) = false ∧
      isComment (inside (comment c)) = true := by
  have hbefore : trimsBefore (comment c) = false := rfl
  have hreverse : (comment c).reverse = '/' :: '*' :: (c.reverse ++ ['*', '/']) := by
    simp [comment, commentOpen, commentClose]
  have hafter : trimsAfter (comment c) = false := by
    rw [trimsAfter, hreverse]
    rfl
  have hstart : Text.trimStart (comment c) = comment c := rfl
  have hend : Text.trimEnd (comment c) = comment c := by
    rw [Text.trimEnd, Text.dropEndWhile, hreverse, List.dropWhile_cons_of_neg (by decide),
      ← hreverse, List.reverse_reverse]
  have hinside : inside (comment c) = comment c := by
    simp only [inside, hbefore, hafter, Bool.false_eq_true, if_false]
    exact (congrArg Text.trimEnd hstart).trans hend
  refine ⟨hbefore, hafter, ?_⟩
  rw [hinside, isComment, hreverse]
  rfl

theorem tokensOf_comment (a c : Text) (pieces : List Piece) (tail : Text) :
    tokensOf 1 false (⟨a, comment c⟩ :: pieces) tail =
      textToken a ++ (tokensOf 1 false pieces tail).map (Token.later (a.lineEnds + c.lineEnds)) := by
  obtain ⟨hbefore, hafter, hcomment⟩ := comment_marks c
  obtain ⟨hleft, hright, hinside⟩ := dropMarks_eq (comment c)
  simp only [tokensOf, hleft, hright, hinside, hbefore, hafter, hcomment, lineEnds_comment,
    Nat.add_assoc, tokensOf_later, Bool.false_eq_true, if_false, if_true, List.append_nil]

/-! ## A brace before a comment -/

/-- A brace right before the opening mark is taken for a part of it, and the brace that is left over
begins what is inside the action. -/
theorem closeAction_brace {inner body after : Text}
    (hclose : closeAction ('\x7b' :: inner) = some (body, after)) : ∃ rest, body = '\x7b' :: rest := by
  have hstart : commentOpen.isPrefixOf
      (('\x7b' :: inner).dropWhile fun c => c == '-' || Text.isBlank c) = false := rfl
  unfold closeAction at hclose
  simp only [hstart, Bool.false_eq_true, if_false] at hclose
  rw [closeOutsideQuotes, if_neg (by simp [closeMark, List.isPrefixOf])] at hclose
  obtain ⟨⟨rest, _⟩, -, hparts⟩ := Option.map_eq_some_iff.mp hclose
  exact ⟨rest, (Prod.mk.inj hparts).1.symm⟩

theorem dropEndWhile_cons_of_neg {p : Char → Bool} {c : Char} (hc : p c = false) (t : Text) :
    Text.dropEndWhile p (c :: t) = c :: Text.dropEndWhile p t := by
  rw [Text.dropEndWhile, Text.dropEndWhile, List.reverse_cons, List.dropWhile_append]
  split
  · next hnone =>
    rw [List.isEmpty_iff.mp hnone, List.dropWhile_cons_of_neg (by simp [hc])]
    rfl
  · rw [List.reverse_append]
    rfl

/-- Trimming leaves the brace where it is. -/
theorem inside_brace (t : Text) : ∃ rest, inside ('\x7b' :: t) = '\x7b' :: rest := by
  have hbrace : Text.isBlank '\x7b' = false := by decide
  have hbefore : trimsBefore ('\x7b' :: t) = false := rfl
  have htrim : ∀ t, Text.trim ('\x7b' :: t) = '\x7b' :: Text.trimEnd t := by
    intro t
    rw [Text.trim, Text.trimStart, List.dropWhile_cons_of_neg (by simp [hbrace])]
    exact dropEndWhile_cons_of_neg hbrace t
  simp only [inside, hbefore, Bool.false_eq_true, if_false]
  split
  · next hafter =>
    cases t with
    | nil => cases hafter
    | cons c rest =>
        rw [List.dropLast_cons_of_ne_nil (List.cons_ne_nil c rest)]
        exact ⟨_, htrim _⟩
  · exact ⟨_, htrim t⟩

theorem tokensOf_brace (a t : Text) (pieces : List Piece) (tail : Text) :
    ∃ body rest, tokensOf 1 false (⟨a, '\x7b' :: t⟩ :: pieces) tail =
      textToken a ++ .action ('\x7b' :: body) (1 + a.lineEnds) :: rest := by
  obtain ⟨hleft, hright, hinside⟩ := dropMarks_eq ('\x7b' :: t)
  obtain ⟨body, hbody⟩ := inside_brace t
  have hcomment : isComment ('\x7b' :: body) = false := rfl
  have hbefore : trimsBefore ('\x7b' :: t) = false := rfl
  simp only [tokensOf, hleft, hright, hinside, hbefore, hbody, hcomment, Bool.false_eq_true, if_false,
    List.append_assoc, List.singleton_append]
  exact ⟨body, _, rfl⟩

/-! ## Sources with a comment -/

theorem cut_openMark {a : Text} (ha : ¬ openMark <:+: a) (hlast : a.getLast? ≠ some '\x7b')
    (inner : Text) : Text.cut openMark (a ++ openMark ++ inner) = some (a, inner) := by
  have hnone : ¬ openMark <:+: openMark.dropLast := by decide
  apply Text.cut_append (by decide)
  exact Text.not_infix_pair_append ha hnone fun hbrace => absurd hbrace hlast

theorem tokenize_of_unopened {a : Text} (ha : ¬ openMark <:+: a) :
    tokenize a = .ok (textToken a) := by
  have hcut : Text.cut openMark a = none := by
    cases hcut : Text.cut openMark a with
    | none => rfl
    | some parts =>
        rw [Text.eq_of_cut hcut] at ha
        exact absurd ⟨parts.1, parts.2, rfl⟩ ha
  rw [tokenize, cutSource_of_cut_none hcut]
  rfl

/-- A comment between a text and a source, whatever is written in it but its end.  If the text does
not end with a brace, what is read are the text and the source by themselves, with the lines of
the text and the comment before the source; if it does, an action begins at this brace, which
is no comment.  A comment that begins with a slash must not have the end of an action in it. -/
theorem tokenize_comment {a c : Text} (ha : ¬ openMark <:+: a) (hc : ¬ commentClose <:+: c)
    (b : Text) :
    (a.getLast? ≠ some '\x7b' → (c.head? = some '/' → ¬ closeMark <:+: c) →
        tokenize a = .ok (textToken a) ∧
          tokenize (a ++ openMark ++ comment c ++ closeMark ++ b) =
            ((tokenize b).mapError (ParseError.later (a.lineEnds + c.lineEnds))).map
              fun tokens => textToken a ++ tokens.map (Token.later (a.lineEnds + c.lineEnds))) ∧
      ∀ text, a = text ++ ['\x7b'] → ∀ tokens,
        tokenize (a ++ openMark ++ comment c ++ closeMark ++ b) = .ok tokens →
        ∃ body rest, tokens = textToken text ++ .action ('\x7b' :: body) (1 + text.lineEnds) :: rest := by
  constructor
  · intro hlast hslash
    have hopen : Text.cut openMark (a ++ openMark ++ comment c ++ closeMark ++ b) =
        some (a, comment c ++ closeMark ++ b) := by
      rw [← cut_openMark ha hlast]
      simp
    refine ⟨tokenize_of_unopened ha, ?_⟩
    rw [tokenize_of_cut hopen (closeAction_comment hc hslash b), lineEnds_comment, tokenize]
    simp only [tokensOf_comment]
    cases cutSource 1 b <;> rfl
  · rintro text rfl tokens htokens
    have hfree : ¬ openMark <:+: text :=
      fun hoccurs => ha (hoccurs.trans (List.prefix_append text _).isInfix)
    have hlast : text.getLast? ≠ some '\x7b' := by
      rintro hlast
      obtain ⟨before, rfl⟩ := List.getLast?_eq_some_iff.mp hlast
      exact ha ⟨before, [], by simp [openMark]⟩
    have hopen : Text.cut openMark (text ++ ['\x7b'] ++ openMark ++ comment c ++ closeMark ++ b) =
        some (text, '\x7b' :: (comment c ++ closeMark ++ b)) := by
      rw [← cut_openMark hfree hlast]
      simp [openMark]
    cases hclose : closeAction ('\x7b' :: (comment c ++ closeMark ++ b)) with
    | none =>
        rw [tokenize, cutSource_of_unclosed hopen hclose] at htokens
        cases htokens
    | some parts =>
        obtain ⟨body, after⟩ := parts
        obtain ⟨rest, rfl⟩ := closeAction_brace hclose
        rw [tokenize_of_cut hopen hclose] at htokens
        obtain ⟨⟨pieces, tail⟩, -, rfl⟩ := Except.map_eq_ok_iff.mp htokens
        exact tokensOf_brace text rest pieces tail

/-- A comment with marks, a quote and a line end in it, one that begins with a slash, and one after
a brace. -/
theorem tokenize_comment_marks :
    let a := "x\n".toList
    let c := "\x7d\x7d \x7b\x7b \"\n/".toList
    let slash := "/ d".toList
    let b := "\n\x7b\x7b .y \x7d\x7d".toList
    ¬ openMark <:+: a ∧ ¬ commentClose <:+: c ∧ a.getLast? ≠ some '\x7b' ∧
      tokenize (a ++ openMark ++ comment c ++ closeMark ++ b) =
        .ok [.text a, .text "\n".toList, .action ".y".toList 4] ∧
      ¬ commentClose <:+: slash ∧ ¬ closeMark <:+: slash ∧
      tokenize (a ++ openMark ++ comment slash ++ closeMark ++ b) =
        .ok [.text a, .text "\n".toList, .action ".y".toList 3] ∧
      ∃ body rest, tokenize ("x\x7b".toList ++ openMark ++ comment slash ++ closeMark ++ b) =
        .ok (.text "x".toList :: .action ('\x7b' :: body) 1 :: rest) := by
  intro a c slash b
  have ha : ¬ openMark <:+: a := by decide
  have hc : ¬ commentClose <:+: c := by decide
  have hslash : ¬ commentClose <:+: slash := by decide
  have hfree : ¬ closeMark <:+: slash := by decide
  have hlast : a.getLast? ≠ some '\x7b' := by decide
  have hb : tokenize b = .ok [.text "\n".toList, .action ".y".toList 2] :=
    Except.toOption_eq_some_iff.mp (by decide +kernel)
  have hbrace : ¬ openMark <:+: "x\x7b".toList := by decide
  refine ⟨ha, hc, hlast, ?_, hslash, hfree, ?_, ?_⟩
  · have htokens := ((tokenize_comment ha hc b).1 hlast nofun).2
    rw [hb] at htokens
    exact htokens
  · have htokens := ((tokenize_comment ha hslash b).1 hlast fun _ => hfree).2
    rw [hb] at htokens
    exact htokens
  · have htokens : ∃ tokens, tokenize
        ("x\x7b".toList ++ openMark ++ comment slash ++ closeMark ++ b) = .ok tokens :=
      Except.isOk_iff.mp (by decide +kernel)
    obtain ⟨tokens, htokens⟩ := htokens
    obtain ⟨body, rest, rfl⟩ := (tokenize_comment hbrace hslash b).2 "x".toList rfl tokens htokens
    exact ⟨body, rest, htokens⟩

/-- Not every comment after a text without an opening mark leaves no trace: after a brace it is an
action, and a slash that it begins with can end it. -/
theorem tokenize_comment_remains :
    let b := "b".toList
    let read := fun a c : String =>
      (tokenize (a.toList ++ openMark ++ comment c.toList ++ closeMark ++ b)).toOption
    tokenize b = .ok [.text b] ∧
      (¬ openMark <:+: "\x7b".toList ∧ ¬ commentClose <:+: " c ".toList ∧
        tokenize "\x7b".toList = .ok [.text "\x7b".toList] ∧
        read "\x7b" " c " = some [.action "\x7b/* c */".toList 1, .text b] ∧
        read "\x7b" " c " ≠ some [.text "\x7b".toList, .text b]) ∧
      (¬ openMark <:+: "".toList ∧ ¬ commentClose <:+: "/\x7d\x7d".toList ∧
        tokenize "".toList = .ok [] ∧
        read "" "/\x7d\x7d" = some [.text "*/\x7d\x7db".toList] ∧
        read "" "/\x7d\x7d" ≠ some [.text b]) := by
  intro b read
  have hb : tokenize b = .ok [.text b] := Except.toOption_eq_some_iff.mp (by decide +kernel)
  have hbrace : tokenize "\x7b".toList = .ok [.text "\x7b".toList] :=
    Except.toOption_eq_some_iff.mp (by decide +kernel)
  have hnone : tokenize "".toList = .ok [] := Except.toOption_eq_some_iff.mp (by decide +kernel)
  exact ⟨hb, ⟨by decide, by decide, hbrace, by decide +kernel, by decide +kernel⟩,
    by decide, by decide, hnone, by decide +kernel, by decide +kernel⟩

end PageTemplates.Template
