import PageTemplates.Proofs.Except
import PageTemplates.Proofs.Template.Grammar
import PageTemplates.Proofs.Template.Tokens
import PageTemplates.Proofs.Text.Blank

/-!
Texts that stand for words.  The end of an action, the ends of its words and the blanks around
it are each found by a search of its own; a text is written for some words when all of these
searches agree on it, whatever comes after it.  Such texts can be set side by side and in
parentheses, and between double quotes every text is one of them.
-/

namespace PageTemplates.Template

/-! ## The search for the closing mark -/

/-- Whether the search for the closing mark passes over a text. -/
def Passed (t : Text) : Prop :=
  ∀ rest, closeOutsideQuotes none (t ++ rest) =
    (closeOutsideQuotes none rest).map fun (body, after) => (t ++ body, after)

theorem Passed.append {s t : Text} (hs : Passed s) (ht : Passed t) : Passed (s ++ t) := by
  intro rest
  rw [List.append_assoc, hs, ht, Option.map_map]
  simp [Function.comp_def]

theorem passed_of_forall {t : Text} (ht : ∀ c ∈ t, c ≠ '\x7d' ∧ c ≠ '"' ∧ c ≠ '\x60') :
    Passed t := by
  induction t with
  | nil =>
      intro rest
      simp
  | cons c t ih =>
      obtain ⟨⟨hclose, hquote, hraw⟩, hrest⟩ := List.forall_mem_cons.mp ht
      intro rest
      have hmark : closeMark.isPrefixOf (c :: (t ++ rest)) = false := by
        simp [closeMark, List.isPrefixOf, Ne.symm hclose]
      rw [List.cons_append, closeOutsideQuotes, if_neg (Bool.eq_false_iff.mp hmark),
        if_neg (not_or.mpr ⟨hquote, hraw⟩), ih hrest, Option.map_map]
      rfl

theorem passed_singleton {c : Char} (hc : c ≠ '\x7d' ∧ c ≠ '"' ∧ c ≠ '\x60') : Passed [c] :=
  passed_of_forall (List.forall_mem_singleton.mpr hc)

/-! ## The search for the ends of words -/

/-- Whether a word is at its end before a text. -/
def Delimited (rest : Text) : Prop :=
  ∀ c ∈ rest.head?, Text.isBlank c = true ∨ c = '(' ∨ c = ')'

/-- Whether a text is scanned as some words before the words of what comes after it. -/
def Scanned (t : Text) (row : List Word) : Prop :=
  ∀ rest, Delimited rest → scan .between (t ++ rest) = (scan .between rest).map (row ++ ·)

theorem delimited_blank {c : Char} (hc : Text.isBlank c = true) (rest : Text) :
    Delimited (c :: rest) := by
  rintro _ ⟨⟩
  exact .inl hc

theorem scan_blank {c : Char} (hc : Text.isBlank c = true) (rest : Text) :
    scan .between (c :: rest) = scan .between rest := by
  rw [scan, if_pos hc]

theorem Scanned.append {s t : Text} {first second : List Word} (hs : Scanned s first)
    (ht : Scanned t second) : Scanned (s ++ ' ' :: t) (first ++ second) := by
  intro rest hrest
  have hblank : Text.isBlank ' ' = true := by decide
  rw [List.append_assoc, List.cons_append, hs _ (delimited_blank hblank _),
    scan_blank hblank, ht rest hrest, Except.map_map]
  simp [Function.comp_def]

theorem Scanned.parens {t : Text} {row : List Word} (ht : Scanned t row) :
    Scanned ('(' :: (t ++ [')'])) (.leftParen :: (row ++ [.rightParen])) := by
  intro rest hrest
  have hclosed : Delimited (')' :: rest) := by
    rintro _ ⟨⟩
    exact .inr (.inr rfl)
  have hopen : scan .between ('(' :: (t ++ ')' :: rest)) =
      (scan .between (t ++ ')' :: rest)).map (Word.leftParen :: ·) := by
    rw [scan, if_neg (by decide), if_pos rfl]
    rfl
  have hclose : scan .between (')' :: rest) = (scan .between rest).map (Word.rightParen :: ·) := by
    rw [scan, if_neg (by decide), if_neg (by decide), if_pos rfl]
    rfl
  rw [List.cons_append, List.append_assoc, List.singleton_append, hopen, ht _ hclosed, hclose,
    Except.map_map, Except.map_map]
  simp [Function.comp_def]

/-- Whether a character stands for itself in a word. -/
def Plain (c : Char) : Prop :=
  Text.isBlank c = false ∧ c ≠ '(' ∧ c ≠ ')' ∧ c ≠ '"' ∧ c ≠ '\x60' ∧ c ≠ '\x7d'

instance : DecidablePred Plain :=
  fun _ => inferInstanceAs (Decidable (_ ∧ _))

theorem forall_plain {t : Text} (ht : (t.all fun c => decide (Plain c)) = true) :
    ∀ c ∈ t, Plain c :=
  fun c hc => of_decide_eq_true (List.all_eq_true.mp ht c hc)

theorem scan_run_plain {t : Text} (ht : ∀ c ∈ t, Plain c) (read rest : Text) :
    scan (.run read) (t ++ rest) = scan (.run (t.reverse ++ read)) rest := by
  induction t generalizing read with
  | nil => rfl
  | cons c t ih =>
      obtain ⟨⟨hblank, hopen, hclose, -⟩, hrest⟩ := List.forall_mem_cons.mp ht
      rw [List.cons_append, scan, if_neg (Bool.eq_false_iff.mp hblank), if_neg hopen,
        if_neg hclose, ih hrest, List.reverse_cons, List.append_assoc, List.singleton_append]

theorem scan_run_delimited {word : Text} {w : Word} (hw : classify word = .ok w) {rest : Text}
    (hrest : Delimited rest) :
    scan (.run word.reverse) rest = (scan .between rest).map (w :: ·) := by
  cases rest with
  | nil =>
      simp only [scan, List.reverse_reverse, hw]
      rfl
  | cons c rest =>
      rcases hrest c rfl with hblank | rfl | rfl
      · simp only [scan, hblank, if_true, List.reverse_reverse, hw]
        rfl
      · simp only [scan, List.reverse_reverse, hw]
        cases scan .between rest <;> rfl
      · simp only [scan, List.reverse_reverse, hw]
        cases scan .between rest <;> rfl

/-- A word of characters that stand for themselves. -/
theorem scanned_word {word : Text} {w : Word} (hne : word ≠ []) (hplain : ∀ c ∈ word, Plain c)
    (hw : classify word = .ok w) : Scanned word [w] := by
  intro rest hrest
  obtain ⟨c, t, rfl⟩ := List.exists_cons_of_ne_nil hne
  obtain ⟨⟨hblank, hopen, hclose, hquote, hraw, -⟩, ht⟩ := List.forall_mem_cons.mp hplain
  rw [List.cons_append, scan, if_neg (Bool.eq_false_iff.mp hblank), if_neg hopen, if_neg hclose,
    if_neg hquote, if_neg hraw, scan_run_plain ht, ← List.reverse_cons,
    scan_run_delimited hw hrest]
  rfl

/-! ## Text between double quotes -/

/-- A text as it stands between double quotes, where a backslash hides the character after it. -/
def hidden (t : Text) : Text :=
  t.flatMap fun c => if c = '\\' ∨ c = '"' then ['\\', c] else [c]

/-- A text in double quotes. -/
def inQuotes (t : Text) : Text :=
  '"' :: (hidden t ++ ['"'])

theorem hidden_cons_special {c : Char} (hc : c = '\\' ∨ c = '"') (t : Text) :
    hidden (c :: t) = '\\' :: c :: hidden t := by
  rw [hidden, List.flatMap_cons, if_pos hc]
  rfl

theorem hidden_cons_other {c : Char} (hc : ¬ (c = '\\' ∨ c = '"')) (t : Text) :
    hidden (c :: t) = c :: hidden t := by
  rw [hidden, List.flatMap_cons, if_neg hc]
  rfl

theorem closeOutsideQuotes_hidden (t rest : Text) :
    closeOutsideQuotes (some '"') (hidden t ++ '"' :: rest) =
      (closeOutsideQuotes none rest).map fun (body, after) =>
        (hidden t ++ '"' :: body, after) := by
  induction t with
  | nil =>
      change closeOutsideQuotes (some '"') ('"' :: rest) = _
      rw [closeOutsideQuotes.eq_def]
      simp [hidden]
  | cons c t ih =>
      by_cases hc : c = '\\' ∨ c = '"'
      · rw [hidden_cons_special hc, List.cons_append, List.cons_append, closeOutsideQuotes,
          if_pos ⟨rfl, rfl⟩, ih, Option.map_map]
        rfl
      · rw [hidden_cons_other hc, List.cons_append, closeOutsideQuotes.eq_def]
        simp only [not_or] at hc
        simp only [hc.1, hc.2, and_false, if_false, ih, Option.map_map]
        rfl

theorem passed_inQuotes (t : Text) : Passed (inQuotes t) := by
  intro rest
  have hmark : ∀ rest : Text, closeMark.isPrefixOf ('"' :: rest) = false := fun _ => rfl
  rw [inQuotes, List.cons_append, List.append_assoc, closeOutsideQuotes,
    if_neg (Bool.eq_false_iff.mp (hmark _)), if_pos (Or.inl rfl), List.singleton_append,
    closeOutsideQuotes_hidden, Option.map_map]
  simp [Function.comp_def]

theorem unescape_special {c : Char} (hc : c = '\\' ∨ c = '"') : unescape c = c := by
  rcases hc with rfl | rfl <;> rfl

theorem scan_hidden (read t rest : Text) :
    scan (.quoted read) (hidden t ++ '"' :: rest) =
      (scan .between rest).map (Word.literal (.text (read.reverse ++ t)) :: ·) := by
  induction t generalizing read with
  | nil =>
      rw [List.append_nil]
      change scan (.quoted read) ('"' :: rest) = _
      rw [scan, if_pos rfl]
      rfl
  | cons c t ih =>
      have hread : (c :: read).reverse ++ t = read.reverse ++ c :: t := by simp
      by_cases hc : c = '\\' ∨ c = '"'
      · rw [hidden_cons_special hc, List.cons_append, List.cons_append, scan, if_neg (by decide),
          if_pos rfl, scan, unescape_special hc, ih, hread]
      · rw [hidden_cons_other hc]
        rw [not_or] at hc
        rw [List.cons_append, scan, if_neg hc.2, if_neg hc.1, ih, hread]

theorem scanned_inQuotes (t : Text) : Scanned (inQuotes t) [.literal (.text t)] := by
  intro rest _
  rw [inQuotes, List.cons_append, List.append_assoc, scan, if_neg (by decide), if_neg (by decide),
    if_neg (by decide), if_pos rfl, List.singleton_append, scan_hidden]
  rfl

/-! ## Texts for words -/

/-- Whether a text stands for some words wherever a word ends after it.  All searches agree on it: the
end of the action is not in it, its words are told from what comes after, and what it begins and ends
with is neither a blank nor, after dashes, the mark of a comment. -/
structure Written (t : Text) (row : List Word) : Prop where
  passed : Passed t
  scanned : Scanned t row
  first : ∃ c rest, t.dropWhile (· == '-') = c :: rest ∧ Text.isBlank c = false ∧ c ≠ '/'
  last : ∃ before c, t = before ++ [c] ∧ Text.isBlank c = false

theorem written_inQuotes (t : Text) : Written (inQuotes t) [.literal (.text t)] where
  passed := passed_inQuotes t
  scanned := scanned_inQuotes t
  first := ⟨'"', _, rfl, by decide, by decide⟩
  last := ⟨'"' :: hidden t, '"', rfl, by decide⟩

theorem written_word {word : Text} {w : Word} (hplain : ∀ c ∈ word, Plain c)
    (hfirst : ∃ c rest, word.dropWhile (· == '-') = c :: rest ∧ c ≠ '/')
    (hw : classify word = .ok w) : Written word [w] := by
  obtain ⟨c, rest, hdrop, hslash⟩ := hfirst
  have hc : c ∈ word := (List.dropWhile_sublist _).subset (hdrop ▸ List.mem_cons_self)
  have hne : word ≠ [] := List.ne_nil_of_mem hc
  refine ⟨passed_of_forall fun c hc => ?_, scanned_word hne hplain hw,
    ⟨c, rest, hdrop, (hplain c hc).1, hslash⟩,
    ⟨_, _, (List.dropLast_append_getLast hne).symm, (hplain _ (List.getLast_mem hne)).1⟩⟩
  obtain ⟨-, -, -, hquote, hraw, hclose⟩ := hplain c hc
  exact ⟨hclose, hquote, hraw⟩

namespace Written

variable {s t : Text} {first second row : List Word}

theorem append (hs : Written s first) (ht : Written t second) :
    Written (s ++ ' ' :: t) (first ++ second) where
  passed := by
    have hblank : Passed [' '] := passed_singleton (by decide)
    exact hs.passed.append (hblank.append ht.passed)
  scanned := hs.scanned.append ht.scanned
  first := by
    obtain ⟨c, rest, hdrop, hc⟩ := hs.first
    refine ⟨c, rest ++ ' ' :: t, ?_, hc⟩
    rw [List.dropWhile_append, hdrop]
    rfl
  last := by
    obtain ⟨before, c, hsplit, hc⟩ := ht.last
    exact ⟨s ++ ' ' :: before, c, by rw [hsplit]; simp, hc⟩

theorem parens (ht : Written t row) :
    Written ('(' :: (t ++ [')'])) (.leftParen :: (row ++ [.rightParen])) where
  passed := by
    have hopen : Passed ['('] := passed_singleton (by decide)
    have hclose : Passed [')'] := passed_singleton (by decide)
    exact hopen.append (ht.passed.append hclose)
  scanned := ht.scanned.parens
  first := ⟨'(', _, rfl, by decide, by decide⟩
  last := ⟨'(' :: t, ')', rfl, by decide⟩

theorem exists_cons (ht : Written t row) :
    ∃ c rest, t = c :: rest ∧ Text.isBlank c = false ∧ c ≠ '/' := by
  obtain ⟨c, rest, hdrop, hblank, hslash⟩ := ht.first
  cases t with
  | nil => cases hdrop
  | cons first others =>
      refine ⟨first, others, rfl, ?_⟩
      by_cases hdash : first = '-'
      · rw [hdash]
        decide
      · rw [List.dropWhile_cons_of_neg (by simpa using hdash)] at hdrop
        rw [(List.cons.inj hdrop).1]
        exact ⟨hblank, hslash⟩

theorem words_eq (ht : Written t row) : words t = .ok row := by
  have hscanned := ht.scanned [] nofun
  rw [List.append_nil] at hscanned
  rw [words, hscanned]
  simp [scan, Except.map]

theorem isComment_eq_false (ht : Written t row) : isComment t = false := by
  obtain ⟨c, rest, rfl, -, hslash⟩ := ht.exists_cons
  simp [isComment, commentOpen, List.isPrefixOf, Ne.symm hslash]

/-- The blanks around a text for words are taken off, and nothing else. -/
theorem inside_eq (ht : Written t row) : inside (' ' :: (t ++ [' '])) = t := by
  obtain ⟨c, rest, hfirst, hblank, -⟩ := ht.exists_cons
  obtain ⟨before, last, hlast, hlastBlank⟩ := ht.last
  have hafter : trimsAfter (' ' :: (t ++ [' '])) = false := by
    simp [trimsAfter, trimsBefore]
  have hstart : Text.trimStart (' ' :: (t ++ [' '])) = t ++ [' '] := by
    rw [Text.trimStart, List.dropWhile_cons_of_pos (by decide), hfirst, List.cons_append,
      List.dropWhile_cons_of_neg (by simp [hblank])]
  have hend : Text.trimEnd (t ++ [' ']) = t := by
    rw [Text.trimEnd, Text.dropEndWhile, List.reverse_append, List.reverse_singleton,
      List.singleton_append, List.dropWhile_cons_of_pos (by decide), hlast, List.reverse_append,
      List.reverse_singleton, List.singleton_append, List.dropWhile_cons_of_neg (by simp [hlastBlank])]
    simp
  simp only [inside, hafter, Bool.false_eq_true, if_false]
  exact (congrArg Text.trimEnd hstart).trans hend

/-- What stands after dashes and blanks is no comment. -/
theorem not_comment (ht : Written t row) (rest : Text) :
    commentOpen.isPrefixOf ((' ' :: (t ++ rest)).dropWhile fun c => c == '-' || Text.isBlank c) =
      false := by
  obtain ⟨c, others, hdrop, hblank, hslash⟩ := ht.first
  have hdash : (c == '-') = false := by
    have hnot := List.head?_dropWhile_not (· == '-') t
    rw [hdrop] at hnot
    simpa using hnot
  have hdashes : ∀ a ∈ t.takeWhile (· == '-'), (a == '-' || Text.isBlank a) = true := by
    intro a ha
    rw [List.all_eq_true.mp List.all_takeWhile a ha, Bool.true_or]
  have hsplit : t.takeWhile (· == '-') ++ c :: others = t := by
    rw [← hdrop, List.takeWhile_append_dropWhile]
  rw [List.dropWhile_cons_of_pos (by decide), ← hsplit, List.append_assoc, List.dropWhile_append_of_pos hdashes, List.cons_append,
    List.dropWhile_cons_of_neg (by simp [hdash, hblank])]
  simp [commentOpen, List.isPrefixOf, Ne.symm hslash]

theorem closeAction_eq (ht : Written t row) :
    closeAction (' ' :: (t ++ ' ' :: closeMark)) = some (' ' :: (t ++ [' ']), []) := by
  have hblank : Passed [' '] := passed_singleton (by decide)
  have hpassed := (hblank.append (ht.passed.append hblank)) closeMark
  have hinner : [' '] ++ (t ++ [' ']) ++ closeMark = ' ' :: (t ++ ' ' :: closeMark) := by simp
  have hclose : closeOutsideQuotes none closeMark = some ([], []) := rfl
  rw [hinner, hclose] at hpassed
  unfold closeAction
  rw [if_neg (Bool.eq_false_iff.mp (ht.not_comment _)), hpassed]
  simp

/-- An action with a text for words inside. -/
theorem tokenize_eq (ht : Written t row) :
    tokenize (openMark ++ ' ' :: (t ++ ' ' :: closeMark)) = .ok [.action t 1] := by
  have hopen : Text.cut openMark (openMark ++ ' ' :: (t ++ ' ' :: closeMark)) =
      some ([], ' ' :: (t ++ ' ' :: closeMark)) := rfl
  have htail : ∀ line, cutSource line [] = .ok ([], []) := fun _ => cutSource_of_cut_none rfl
  have haction : Place.tokens ⟨[], none, [], some (' ' :: (t ++ [' ']))⟩ = [.action t 1] := by
    simp only [Place.tokens, ht.inside_eq, ht.isComment_eq_false, Bool.false_eq_true, if_false]
    rfl
  have hend : ∀ before, Place.tokens ⟨before, some (' ' :: (t ++ [' '])), [], none⟩ = [] := by
    intro before
    simp [Place.tokens, Place.shown, Text.trimStart, textToken]
  rw [tokenize_eq_ok_iff]
  refine ⟨_, _, by rw [cutSource_of_cut_some hopen ht.closeAction_eq, htail]; rfl, ?_⟩
  rw [placesFrom, placesFrom, List.flatMap_cons, List.flatMap_singleton, haction, hend,
    List.append_nil]

/-- An action with the words of a command inside is one step, which writes its value. -/
theorem parse_eq (ht : Written t row) {known : Text → Bool} {e : Expr}
    (haction : ActionOf known 1 row (.whole (.output e))) :
    parse known (openMark ++ ' ' :: (t ++ ' ' :: closeMark)) = .ok ⟨[.output e], []⟩ := by
  have hspells : Spells known [.output e] [.action t 1] :=
    ⟨.cons (.action ht.words_eq haction) .nil, trivial, trivial⟩
  rw [parse, ht.tokenize_eq, Except.map_eq_ok_iff]
  exact ⟨[.output e], statements_eq_ok_iff.mpr hspells, rfl⟩

end Written

end PageTemplates.Template
