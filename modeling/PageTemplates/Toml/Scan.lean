import PageTemplates.Number.Reading
import PageTemplates.Text.Percent
import PageTemplates.Toml.Basic

/-!
Scanning the text of a TOML document: blanks, comments, keys, strings, numbers and times.
-/

namespace PageTemplates.Toml

/-- A scan of some text: what was found and the text after it, or nothing. -/
abbrev Scan := StateT Text Option

namespace Scan

variable {α : Type}

/-- One character of a class. -/
def satisfy (p : Char → Bool) : Scan Char := fun t =>
  match t with
  | c :: rest => if p c then some (c, rest) else none
  | [] => none

def char (c : Char) : Scan Char :=
  satisfy (· == c)

def exactly (mark : Text) : Scan Unit := fun t =>
  if mark.isPrefixOf t then some ((), t.drop mark.length) else none

/-- All characters of a class up to the first of another. -/
def run (p : Char → Bool) : Scan Text := fun t =>
  some (t.span p)

/-- A number of characters of a class. -/
def count (p : Char → Bool) (n : Nat) : Scan Text := fun t =>
  if (t.take n).length = n ∧ (t.take n).all p then some (t.take n, t.drop n) else none

def atEnd : Scan Unit := fun t =>
  if t.isEmpty then some ((), t) else none

/-- What a scan finds again and again, at most `most` times, up to where it finds nothing. -/
def manyFrom (p : Scan α) : (most : Nat) → Text → List α × Text
  | 0, t => ([], t)
  | most + 1, t =>
    match p t with
    | none => ([], t)
    | some (a, rest) =>
      let (others, rest) := manyFrom p most rest
      (a :: others, rest)

/-- What a scan that always takes some text finds again and again. -/
def many (p : Scan α) : Scan (List α) := fun t =>
  some (manyFrom p t.length t)

/-- What a scan finds, if anything. -/
def maybe (p : Scan α) : Scan (Option α) :=
  (some <$> p) <|> pure none

/-- What a scan finds at least once, with a separator between. -/
def sepBy (p : Scan α) (sep : Char) : Scan (List α) := do
  let first ← p
  let others ← many (char sep *> p)
  return first :: others

/-- Nothing, when the value is none. -/
def lift? (v : Option α) : Scan α := fun t =>
  v.map (·, t)

/-- Whether a character is a blank within a line. -/
def isLineBlank (c : Char) : Bool :=
  c == ' ' || c == '\t'

/-- Whether a character can stand in a comment: no control but the tab. -/
def isPlain (c : Char) : Bool :=
  c == '\t' || (32 ≤ c.toNat && c.toNat != 127)

/-- Blanks within a line. -/
def lineBlanks : Scan Unit :=
  discard (run isLineBlank)

def newline : Scan Unit :=
  discard (char '\n') <|> exactly ['\r', '\n']

def comment : Scan Unit := do
  let _ ← char '#'
  discard (run isPlain)

def lineEnd : Scan Unit :=
  newline <|> atEnd

/-- What may follow on the line of a statement. -/
def trailing : Scan Unit := do
  lineBlanks
  let _ ← maybe comment
  lineEnd

/-- Blanks, line ends and comments. -/
def blankLines : Scan Unit :=
  discard (many (discard (satisfy isLineBlank) <|> newline <|> comment *> newline))

/-- The character of an escape that gives its number. -/
def numbered (digits : Text) : Option Char :=
  (digits.mapM Percent.hexValue?).bind fun values =>
    let n := values.foldl (fun n d => 16 * n + d) 0
    if n.isValidChar then some (Char.ofNat n) else none

/-- The character of an escape of one letter. -/
def lettered : Char → Option Char
  | 'b' => some '\x08'
  | 'f' => some '\x0c'
  | 'n' => some '\n'
  | 'r' => some '\r'
  | 't' => some '\t'
  | '\\' => some '\\'
  | '"' => some '"'
  | _ => none

/-- The character that the text after a backslash stands for, and the text after it. -/
def escaped : Text → Option (Char × Text)
  | 'u' :: a :: b :: c :: d :: rest => (numbered [a, b, c, d]).map (·, rest)
  | 'U' :: a :: b :: c :: d :: e :: f :: g :: h :: rest =>
    (numbered [a, b, c, d, e, f, g, h]).map (·, rest)
  | c :: rest => (lettered c).map (·, rest)
  | [] => none

/-- The text after a line end that a backslash before it takes away, with all blanks around it up to the
next character. -/
def afterJoin? (t : Text) : Option Text :=
  match t.dropWhile isLineBlank with
  | '\n' :: rest => some (rest.dropWhile fun c => isLineBlank c || c == '\n')
  | _ => none

theorem length_of_escaped {t rest : Text} {c : Char} (h : escaped t = some (c, rest)) :
    rest.length < t.length := by
  revert h
  fun_cases escaped t <;> intro h
  case case4 => simp at h
  all_goals
    obtain ⟨_, _, heq⟩ := Option.map_eq_some_iff.mp h
    simp only [Prod.mk.injEq] at heq
    simp only [List.length_cons, ← heq.2]
    omega

theorem length_of_afterJoin? {t rest : Text} (h : afterJoin? t = some rest) :
    rest.length ≤ t.length := by
  unfold afterJoin? at h
  split at h
  · rename_i after heq
    have h₁ := congrArg List.length heq
    have h₂ := (List.dropWhile_suffix isLineBlank (l := t)).length_le
    have h₃ := (List.dropWhile_suffix (fun c => isLineBlank c || c == '\n') (l := after)).length_le
    simp only [List.length_cons, Option.some.injEq] at *
    subst h
    omega
  · simp at h

/-- The text that the inside of a string between double quotes stands for, where a backslash can take away
line ends when there are `lines`. -/
def unescape (lines : Bool) (t : Text) : Option Text :=
  match t with
  | [] => some []
  | '\\' :: rest =>
    match _hjoin : if lines then afterJoin? rest else none with
    | some after => unescape lines after
    | none =>
      match _hescape : escaped rest with
      | some (c, after) => (c :: ·) <$> unescape lines after
      | none => none
  | c :: rest => (c :: ·) <$> unescape lines rest
termination_by t.length
decreasing_by
  · have h : afterJoin? rest = some after := by
      cases lines <;> simp_all
    have := length_of_afterJoin? h
    simp only [List.length_cons]
    omega
  · have := length_of_escaped _hescape
    simp only [List.length_cons]
    omega
  · simp only [List.length_cons]
    omega

/-- The inside of a string between double quotes, and the text after it. -/
def basicInside : Text → Option (Text × Text)
  | [] => none
  | '"' :: rest => some ([], rest)
  | '\\' :: c :: rest => (basicInside rest).map fun (t, after) => ('\\' :: c :: t, after)
  | c :: rest => (basicInside rest).map fun (t, after) => (c :: t, after)

/-- The inside of a string between triple double quotes, and the text after it.  One or two quotes more can
stand before the closing ones. -/
def multiBasicInside : Text → Option (Text × Text)
  | [] => none
  | '"' :: '"' :: '"' :: '"' :: '"' :: rest => some (['"', '"'], rest)
  | '"' :: '"' :: '"' :: '"' :: rest => some (['"'], rest)
  | '"' :: '"' :: '"' :: rest => some ([], rest)
  | '\\' :: c :: rest => (multiBasicInside rest).map fun (t, after) => ('\\' :: c :: t, after)
  | c :: rest => (multiBasicInside rest).map fun (t, after) => (c :: t, after)

/-- The text with every line ended by one character. -/
def unifyLineEnds : Text → Text
  | [] => []
  | '\r' :: '\n' :: rest => '\n' :: unifyLineEnds rest
  | c :: rest => c :: unifyLineEnds rest

/-- The rest of a string between triple single quotes, and the text after it. -/
def multiLiteralRest : Text → Option (Text × Text)
  | '\'' :: '\'' :: '\'' :: '\'' :: '\'' :: rest => some (['\'', '\''], rest)
  | '\'' :: '\'' :: '\'' :: '\'' :: rest => some (['\''], rest)
  | '\'' :: '\'' :: '\'' :: rest => some ([], rest)
  | '\r' :: '\n' :: rest => (multiLiteralRest rest).map fun (t, after) => ('\n' :: t, after)
  | c :: rest =>
    if c = '\n' ∨ isPlain c then (multiLiteralRest rest).map fun (t, after) => (c :: t, after) else none
  | [] => none

/-- The text, if all its characters are of a class. -/
def allOf (p : Char → Bool) (t : Text) : Scan Text :=
  if t.all p then pure t else failure

def basic : Scan Text := do
  let _ ← char '"'
  let inside ← basicInside
  let inside ← allOf isPlain inside
  lift? (unescape false inside)

/-- A string between triple double quotes; a line end right after the opening ones is no part of it. -/
def multiBasic : Scan Text := do
  exactly ['"', '"', '"']
  let _ ← maybe newline
  let inside ← multiBasicInside
  let inside ← allOf (fun c => c == '\n' || isPlain c) (unifyLineEnds inside)
  lift? (unescape true inside)

def literal : Scan Text := do
  let _ ← char '\''
  let t ← run fun c => c != '\'' && isPlain c
  let _ ← char '\''
  return t

/-- A string between triple single quotes, likewise. -/
def multiLiteral : Scan Text := do
  exactly ['\'', '\'', '\'']
  let _ ← maybe newline
  multiLiteralRest

def string : Scan Text :=
  multiBasic <|> basic <|> multiLiteral <|> literal

/-- How many keys in a row, and how many brackets inside each other, are too many. -/
def tooMany : Nat := 80

def simpleKey : Scan Text :=
  basic <|> literal <|> do
    let first ← satisfy isBare
    let others ← run isBare
    return first :: others
where
  isBare (c : Char) : Bool := c.isAlphanum || c == '-' || c == '_'

/-- Keys with dots between them: those before the last, and the last. -/
def key : Scan (List Text × Text) := do
  let keys ← sepBy (lineBlanks *> simpleKey <* lineBlanks) '.'
  if tooMany ≤ keys.length then failure
  match keys.getLast? with
  | some last => return (keys.dropLast, last)
  | none => failure

/-- Digits with single underscores between them, which are left out. -/
def groupedRest (isDigit : Char → Bool) : Text → Text × Text
  | [] => ([], [])
  | '_' :: c :: rest =>
    if isDigit c then
      let (digits, after) := groupedRest isDigit rest
      (c :: digits, after)
    else ([], '_' :: c :: rest)
  | c :: rest =>
    if isDigit c then
      let (digits, after) := groupedRest isDigit rest
      (c :: digits, after)
    else ([], c :: rest)

/-- At least one digit, and others with single underscores between them. -/
def grouped (isDigit : Char → Bool) : Scan Text := do
  let first ← satisfy isDigit
  let others ← fun t => some (groupedRest isDigit t)
  return first :: others

/-- A sign that may be missing. -/
def maybeSign : Scan Text := do
  match ← maybe (satisfy fun c => c == '+' || c == '-') with
  | some c => return [c]
  | none => return []

def decimalInteger : Scan Text := do
  let sign ← maybeSign
  let digits ← (do
    let first ← satisfy fun c => c.isDigit && c != '0'
    let others ← fun t => some (groupedRest Char.isDigit t)
    return first :: others) <|> (do
    let c ← satisfy Char.isDigit
    return [c])
  return sign ++ digits

/-- An integer with a mark for its base in front. -/
def basedInteger (mark : Char) (base : Nat) : Scan Toml := do
  exactly ['0', mark]
  let digits ← grouped fun c => (Percent.hexValue? c).any (· < base)
  let n := digits.foldl (fun n c => base * n + (Percent.hexValue? c).getD 0) 0
  if (n : Int) < Numeral.int64End then return .integer n else failure

def integer : Scan Toml :=
  basedInteger 'x' 16 <|> basedInteger 'o' 8 <|> basedInteger 'b' 2 <|> do
    let digits ← decimalInteger
    let n ← lift? (Numeral.int64? digits)
    return .integer n

def exponent : Scan Text := do
  let _ ← satisfy fun c => c == 'e' || c == 'E'
  let sign ← maybeSign
  let digits ← grouped Char.isDigit
  return 'e' :: sign ++ digits

/-- A number with a fraction or an exponent.  One that is too large is none, a negative one aside. -/
def float : Scan Toml :=
  (do
    let whole ← decimalInteger
    let rest ← exponent <|> do
      let _ ← char '.'
      let fraction ← grouped Char.isDigit
      let power ← maybe exponent
      return '.' :: fraction ++ power.getD []
    let written := whole ++ rest
    if (Numeral.decimal? written).isSome || whole.head? == some '-' then return .float written
    else failure) <|> do
    let sign ← maybeSign
    (exactly "inf".toList *> pure (.float (sign ++ "inf".toList))) <|>
      (exactly "nan".toList *> pure (.float (sign ++ "nan".toList)))

/-- A number of two digits in a range. -/
def twoDigits (least greatest : Nat) : Scan Nat := do
  let digits ← count Char.isDigit 2
  let n ← lift? (Numeral.digits? digits)
  if least ≤ n ∧ n ≤ greatest then return n else failure

def daysIn (year month : Nat) : Nat :=
  if month = 2 then
    if year % 4 = 0 ∧ (year % 100 ≠ 0 ∨ year % 400 = 0) then 29 else 28
  else if month = 4 ∨ month = 6 ∨ month = 9 ∨ month = 11 then 30
  else 31

def date : Scan Unit := do
  let digits ← count Char.isDigit 4
  let year ← lift? (Numeral.digits? digits)
  let _ ← char '-'
  let month ← twoDigits 1 12
  let _ ← char '-'
  let _ ← twoDigits 1 (daysIn year month)

def timeOfDay : Scan Unit := do
  let _ ← twoDigits 0 23
  let _ ← char ':'
  let _ ← twoDigits 0 59
  let _ ← char ':'
  let _ ← twoDigits 0 60
  discard (maybe (char '.' *> satisfy Char.isDigit *> run Char.isDigit))

/-- How far a time is off. -/
def offset : Scan Unit :=
  discard (satisfy fun c => c == 'Z' || c == 'z') <|> do
    let _ ← satisfy fun c => c == '+' || c == '-'
    let _ ← twoDigits 0 23
    let _ ← char ':'
    let _ ← twoDigits 0 59

def time : Scan Toml := do
  (do
    date
    discard (maybe (do
      let _ ← satisfy fun c => c == 'T' || c == 't' || c == ' '
      timeOfDay
      discard (maybe offset)))) <|> timeOfDay
  return .time

end Scan
end PageTemplates.Toml
