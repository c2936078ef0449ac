import PageTemplates.Template.Error
import PageTemplates.Text.Alphanumeric
import PageTemplates.Text.Blank

/-!
The words of an action: names, paths, literals and parentheses.
-/

namespace PageTemplates.Template

inductive Word where
  | name (name : Text)
  /-- A path from the current value. -/
  | field (path : List Text)
  /-- A path from the data of the page. -/
  | root (path : List Text)
  /-- A value written out. -/
  | literal (value : Value)
  | leftParen
  | rightParen

/-- The keys of a path such as `.a.b`; a dot alone, like nothing at all, has no keys. -/
def keys (path : Text) : Except ParseFault (List Text) :=
  match path with
  | [] => .ok []
  | ['.'] => .ok []
  | '.' :: rest =>
    let keys := Text.pieces '.' rest
    if keys.any (·.isEmpty) then .error (.badPath path) else .ok keys
  | _ => .error (.badPath path)

/-- Whether a word begins like a number: with a digit, after any number of minus signs. -/
def looksNumeric (word : Text) : Bool :=
  match word.dropWhile (· == '-') with
  | c :: _ => c.isDigit
  | [] => false

/-- The number that a word stands for: an integer when it fits 64 bits with a sign, a floating-point
number otherwise. -/
def numeral (word : Text) : Except ParseFault Value :=
  match Numeral.int64? word with
  | some n => .ok (.int n)
  | none =>
    match Numeral.decimal? word with
    | some x => .ok (.number (.float x))
    | none => .error (.badNumber word)

/-- The word that a run of characters stands for. -/
def classify (word : Text) : Except ParseFault Word :=
  match word with
  | '$' :: path => (keys path).map .root
  | '.' :: _ => (keys word).map .field
  | _ =>
    if word = "true".toList then .ok (.literal (.bool true))
    else if word = "false".toList then .ok (.literal (.bool false))
    else if word = "null".toList ∨ word = "nil".toList then .ok (.literal .null)
    else if looksNumeric word then (numeral word).map .literal
    else if word.all fun c => Text.isAlphanumeric c || c == '_' then .ok (.name word)
    else .error (.unexpectedWord word)

/-- Where a scan of an action stands; what is read of the current word is kept last character first. -/
inductive Scan where
  | between
  | run (read : Text)
  | quoted (read : Text)
  | escape (read : Text)
  | raw (read : Text)

/-- What a backslash and a character stand for in a text between double quotes. -/
def unescape (c : Char) : Char :=
  match c with
  | 'n' => '\n'
  | 't' => '\t'
  | other => other

/-- The words of the rest of an action. -/
def scan : Scan → Text → Except ParseFault (List Word)
  | .between, [] => .ok []
  | .run read, [] => (classify read.reverse).map fun word => [word]
  | .quoted _, [] | .escape _, [] => .error .unterminatedText
  | .raw _, [] => .error .unterminatedRawText
  | .between, c :: rest =>
    if Text.isBlank c then scan .between rest
    else if c = '(' then (Word.leftParen :: ·) <$> scan .between rest
    else if c = ')' then (Word.rightParen :: ·) <$> scan .between rest
    else if c = '"' then scan (.quoted []) rest
    else if c = '\x60' then scan (.raw []) rest
    else scan (.run [c]) rest
  | .run read, c :: rest =>
    if Text.isBlank c then
      (classify read.reverse).bind fun word => (word :: ·) <$> scan .between rest
    else if c = '(' then
      (classify read.reverse).bind fun word => ([word, .leftParen] ++ ·) <$> scan .between rest
    else if c = ')' then
      (classify read.reverse).bind fun word => ([word, .rightParen] ++ ·) <$> scan .between rest
    else scan (.run (c :: read)) rest
  | .quoted read, c :: rest =>
    if c = '"' then (Word.literal (.text read.reverse) :: ·) <$> scan .between rest
    else if c = '\\' then scan (.escape read) rest
    else scan (.quoted (c :: read)) rest
  | .escape read, c :: rest => scan (.quoted (unescape c :: read)) rest
  | .raw read, c :: rest =>
    if c = '\x60' then (Word.literal (.text read.reverse) :: ·) <$> scan .between rest
    else scan (.raw (c :: read)) rest

/-- The words of an action. -/
def words (body : Text) : Except ParseFault (List Word) :=
  scan .between body

end PageTemplates.Template
