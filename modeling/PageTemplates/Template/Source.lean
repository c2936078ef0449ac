import PageTemplates.Template.Error
import PageTemplates.Text.Blank

/-!
A source as text runs and actions between double braces.  First the source is cut, which loses nothing;
then the marks that trim blanks take effect, comments are dropped, and every action gets its line.
-/

namespace PageTemplates.Template

def openMark : Text := ['\x7b', '\x7b']

def closeMark : Text := ['\x7d', '\x7d']

def commentOpen : Text := ['/', '*']

def commentClose : Text := ['*', '/']

/-- A run of text and the inside of the action after it. -/
structure Piece where
  text : Text
  body : Text
deriving Repr, DecidableEq

/-- The text up to the closing mark and the text after it.  Inside quotes of the kind `quote` the mark
does not count, and in double quotes a backslash hides the next character. -/
def closeOutsideQuotes : Option Char → Text → Option (Text × Text)
  | _, [] => none
  | some quote, c :: rest =>
    if quote = '"' ∧ c = '\\' then
      match rest with
      | [] => none
      | hidden :: rest =>
        (closeOutsideQuotes (some quote) rest).map fun (body, after) => (c :: hidden :: body, after)
    else
      (closeOutsideQuotes (if c = quote then none else some quote) rest).map
        fun (body, after) => (c :: body, after)
  | none, c :: rest =>
    if closeMark.isPrefixOf (c :: rest) then some ([], rest.drop 1)
    else
      (closeOutsideQuotes (if c = '"' ∨ c = '\x60' then some c else none) rest).map
        fun (body, after) => (c :: body, after)

/-- The inside of the action that begins here, and the text after the action.  A comment, which may
stand after dashes and blanks, ends at its own mark, and the action at the next closing mark. -/
def closeAction (inner : Text) : Option (Text × Text) :=
  let isLead := fun c => c == '-' || Text.isBlank c
  let lead := inner.takeWhile isLead
  let content := inner.dropWhile isLead
  if commentOpen.isPrefixOf content then
    (Text.cut commentClose content).bind fun (comment, rest) =>
      (Text.cut closeMark rest).map fun (tail, after) =>
        (lead ++ comment ++ commentClose ++ tail, after)
  else closeOutsideQuotes none inner

theorem eq_of_closeOutsideQuotes {quote : Option Char} {inner body after : Text}
    (h : closeOutsideQuotes quote inner = some (body, after)) : inner = body ++ closeMark ++ after := by
  fun_induction closeOutsideQuotes quote inner generalizing body after with
  | case1 => simp at h
  | case2 => simp at h
  | case3 quote c hq hidden rest ih =>
    simp only [Option.map_eq_some_iff, Prod.exists, Prod.mk.injEq] at h
    obtain ⟨b, a, hrec, rfl, rfl⟩ := h
    simp [ih hrec]
  | case4 quote c rest hq ih =>
    simp only [Option.map_eq_some_iff, Prod.exists, Prod.mk.injEq] at h
    obtain ⟨b, a, hrec, rfl, rfl⟩ := h
    simp [ih hrec]
  | case5 c rest hp =>
    obtain ⟨tail, htail⟩ := List.isPrefixOf_iff_prefix.1 hp
    simp only [Option.some.injEq, Prod.mk.injEq] at h
    obtain ⟨rfl, rfl⟩ := h
    rw [← htail]
    simp only [closeMark, List.cons_append, List.nil_append, List.cons.injEq] at htail
    simp [← htail.2]
  | case6 c rest hp ih =>
    simp only [Option.map_eq_some_iff, Prod.exists, Prod.mk.injEq] at h
    obtain ⟨b, a, hrec, rfl, rfl⟩ := h
    simp [ih hrec]

/-- Closing an action loses nothing but the mark. -/
theorem eq_of_closeAction {inner body after : Text} (h : closeAction inner = some (body, after)) :
    inner = body ++ closeMark ++ after := by
  unfold closeAction at h
  dsimp only at h
  split at h
  · simp only [Option.bind_eq_some_iff, Option.map_eq_some_iff, Prod.exists, Prod.mk.injEq] at h
    obtain ⟨comment, rest, hcut, tail, after', hcut', rfl, rfl⟩ := h
    have hsplit := List.takeWhile_append_dropWhile (p := fun c => c == '-' || Text.isBlank c) (l := inner)
    rw [Text.eq_of_cut hcut, Text.eq_of_cut hcut'] at hsplit
    simpa using hsplit.symm
  · exact eq_of_closeOutsideQuotes h

/-- The source as pieces and the text after the last action.  An action that is never closed is
reported with its line, the first line of the source being `line`. -/
def cutSource (line : Nat) (source : Text) : Except ParseError (List Piece × Text) :=
  match _hopen : Text.cut openMark source with
  | none => .ok ([], source)
  | some (text, inner) =>
    match _hclose : closeAction inner with
    | none => .error ⟨line + text.lineEnds, .unclosedAction⟩
    | some (body, after) =>
      (cutSource (line + text.lineEnds + body.lineEnds) after).map
        fun (pieces, tail) => (⟨text, body⟩ :: pieces, tail)
termination_by source.length
decreasing_by
  have h₁ := Text.length_after_cut _hopen
  have h₂ := congrArg List.length (eq_of_closeAction _hclose)
  simp [openMark, closeMark] at h₁ h₂
  omega

/-- What the parser sees of a source. -/
inductive Token where
  | text (content : Text)
  | action (body : Text) (line : Nat)
deriving Repr, DecidableEq

/-- The inside of an action without the mark that trims the text before it, if it has that mark. -/
def dropLeftMark? : Text → Option Text
  | '-' :: c :: rest => if Text.isBlank c then some (c :: rest) else none
  | _ => none

/-- The inside of an action without the mark that trims the text after it, if it has that mark. -/
def dropRightMark? (body : Text) : Option Text :=
  (dropLeftMark? body.reverse).map List.reverse

def isComment (body : Text) : Bool :=
  commentOpen.isPrefixOf body && commentClose.reverse.isPrefixOf body.reverse

/-- A run of text as a token; an empty one is none. -/
def textToken (text : Text) : List Token :=
  if text = [] then [] else [.text text]

/-- The tokens of the pieces from line `line` on, `trimNext` when the action before trims the text after
it. -/
def tokensOf (line : Nat) (trimNext : Bool) : List Piece → Text → List Token
  | [], tail => textToken (if trimNext then tail.trimStart else tail)
  | piece :: rest, tail =>
    let start := line + piece.text.lineEnds
    let left := dropLeftMark? piece.body
    let right := dropRightMark? (left.getD piece.body)
    let text := if trimNext then piece.text.trimStart else piece.text
    let body := (right.getD (left.getD piece.body)).trim
    textToken (if left.isSome then text.trimEnd else text) ++
      (if isComment body then [] else [.action body start]) ++
      tokensOf (start + piece.body.lineEnds) right.isSome rest tail

def tokenize (source : Text) : Except ParseError (List Token) :=
  (cutSource 1 source).map fun (pieces, tail) => tokensOf 1 false pieces tail

end PageTemplates.Template
