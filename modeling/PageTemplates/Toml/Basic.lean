import PageTemplates.Table

/-!
TOML documents: their values, and the rules about which table a line may add to.  A table can be made
before it is written out, by a header or a dotted key that goes through it, so each table knows how it came
about.
-/

namespace PageTemplates

/-- How a table came about. -/
inductive Toml.Origin where
  /-- Written between braces; nothing can be added to it. -/
  | inlined
  /-- Written out under its own header. -/
  | header
  /-- Gone through by the header of another table. -/
  | throughHeader
  /-- Gone through by a dotted key. -/
  | throughKey
deriving Repr, DecidableEq

inductive Toml where
  | text (t : Text)
  | integer (n : Int)
  /-- A number with a fraction or an exponent, as it is written. -/
  | float (written : Text)
  | bool (b : Bool)
  | time
  | array (items : List Toml)
  | table (origin : Toml.Origin) (entries : List (Text × Toml))
  /-- Tables under headers in double brackets: those before, and the entries of the last. -/
  | tables (before : List Toml) (last : List (Text × Toml))
deriving Inhabited

namespace Toml

abbrev Entries := List (Text × Toml)

/-- Whether a header or a dotted key may go through a table.  A key may not go through a table that has been
written out. -/
def Origin.passable (dotted : Bool) : Origin → Bool
  | inlined => false
  | header => !dotted
  | throughHeader | throughKey => true

/-- Goes down from a table along some keys, making tables on the way, and changes the entries of the
last. -/
def descend (dotted : Bool) (change : Origin → Entries → Option Entries) :
    List Text → Origin → Entries → Option Entries
  | [], origin, entries => change origin entries
  | key :: path, _, entries =>
    let inner : Option Toml := match entries.lookup key with
      | none =>
        let origin : Origin := if dotted then .throughKey else .throughHeader
        (descend dotted change path origin []).map (Toml.table origin)
      | some (.table origin inner) =>
        if origin.passable dotted then (descend dotted change path origin inner).map (Toml.table origin)
        else none
      | some (.tables before last) =>
        (descend dotted change path .header last).map (Toml.tables before)
      | some _ => none
    inner.map fun v => insertEntry key v entries

/-- Adds a value under the last of some keys.  The table it goes into has to come from a dotted key exactly
when there is one. -/
def addPair (path : List Text) (key : Text) (v : Toml) (origin : Origin) (entries : Entries) :
    Option Entries :=
  descend true (fun origin entries =>
    if (origin == .throughKey) == path.isEmpty then none
    else if (entries.lookup key).isSome then none
    else some (insertEntry key v entries)) path origin entries

/-- Adds the table of a header, unless it has been written out before. -/
def openTable (key : Text) (entries : Entries) : Option Entries :=
  match entries.lookup key with
  | none => some (insertEntry key (.table .header []) entries)
  | some (.table .throughHeader inner) => some (insertEntry key (.table .header inner) entries)
  | some _ => none

/-- Adds one more table of a header in double brackets. -/
def openItem (key : Text) (entries : Entries) : Option Entries :=
  match entries.lookup key with
  | none => some (insertEntry key (.tables [] []) entries)
  | some (.tables before last) =>
    some (insertEntry key (.tables (before ++ [.table .header last]) []) entries)
  | some _ => none

/-- A line of a document that says something. -/
inductive Line where
  | header (path : List Text) (key : Text)
  | itemHeader (path : List Text) (key : Text)
  | pair (path : List Text) (key : Text) (v : Toml)

/-- A document as far as it is read: its entries, and the table that pairs are added to. -/
structure Draft where
  entries : Entries
  current : List Text

/-- The document with one more line. -/
def Draft.add (d : Draft) : Line → Option Draft
  | .header path key =>
    (descend false (fun _ => openTable key) path .header d.entries).map (⟨·, path ++ [key]⟩)
  | .itemHeader path key =>
    (descend false (fun _ => openItem key) path .header d.entries).map (⟨·, path ++ [key]⟩)
  | .pair path key v =>
    (descend false (addPair path key v) d.current .header d.entries).map (⟨·, d.current⟩)

/-- The entries of a document with the given lines, if no line breaks a rule. -/
def ofLines? (lines : List Line) : Option Entries :=
  (lines.foldlM Draft.add ⟨[], []⟩).map (·.entries)

/-- The inline table with the given pairs, if no key is given twice. -/
def inlineTable? (pairs : List (List Text × Text × Toml)) : Option Toml :=
  (pairs.foldlM (fun entries (path, key, v) => addPair path key v .header entries) []).map
    (.table .inlined)

end Toml
end PageTemplates
