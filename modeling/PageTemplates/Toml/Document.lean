import PageTemplates.Toml.Scan

/-!
Reading a TOML document: its values, its lines, and the tables that they make.
-/

namespace PageTemplates.Toml

namespace Scan

/-- An array whose items are found by `item`. -/
def arrayOf (item : Scan Toml) : Scan Toml := do
  let _ ← char '['
  let items ← (do
    let items ← sepBy (blankLines *> item <* blankLines) ','
    let _ ← maybe (char ',')
    return items) <|> pure []
  blankLines
  let _ ← char ']'
  return .array items

/-- A table between braces whose values are found by `item`. -/
def tableOf (item : Scan Toml) : Scan Toml := do
  let _ ← char '\x7b'
  let pairs ← sepBy (do
    let (path, last) ← key
    let _ ← char '='
    lineBlanks
    let v ← item
    lineBlanks
    return (path, last, v)) ',' <|> pure []
  lineBlanks
  let _ ← char '\x7d'
  lift? (inlineTable? pairs)

/-- A value without values inside it. -/
def scalar : Scan Toml :=
  (.text <$> string) <|> time <|> float <|> integer <|>
    (exactly "true".toList *> pure (.bool true)) <|> (exactly "false".toList *> pure (.bool false))

/-- A value with at most `depth` brackets inside each other. -/
def value : (depth : Nat) → Scan Toml
  | 0 => scalar
  | depth + 1 => arrayOf (value depth) <|> tableOf (value depth) <|> scalar

/-- A header between single or double brackets. -/
def header : Scan Line :=
  (do
    exactly ['[', '[']
    let (path, last) ← key
    exactly [']', ']']
    trailing
    return .itemHeader path last) <|> do
    let _ ← char '['
    let (path, last) ← key
    let _ ← char ']'
    trailing
    return .header path last

def pair : Scan Line := do
  let (path, last) ← key
  let _ ← char '='
  lineBlanks
  let v ← value (tooMany - 1)
  trailing
  return .pair path last v

/-- One line; none when it says nothing. -/
def line : Scan (Option Line) := do
  lineBlanks
  (comment *> lineEnd *> pure none) <|> (newline *> pure none) <|> (some <$> header) <|> (some <$> pair)

def lines : Scan (List Line) := do
  let _ ← maybe (char (Char.ofNat 0xFEFF))
  let lines ← many line
  lineBlanks
  atEnd
  return lines.filterMap id

end Scan

def parse? (document : Text) : Option Entries :=
  ((StateT.run Scan.lines document).map (·.1)).bind ofLines?

end PageTemplates.Toml
