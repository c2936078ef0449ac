import PageTemplates.Table
import PageTemplates.Text.Quoted
import PageTemplates.Text.Utf8

/-!
Stores of template files, as what they answer at one moment: the content of a file, and the listing of
all files and directories.
-/

namespace PageTemplates

open Utf8 (Bytes)

inductive StoreError where
  /-- There is no file with the path. -/
  | notFound (path : Text)
  /-- Something else is wrong. -/
  | io (path : Text) (reason : String)
deriving Repr, DecidableEq

namespace StoreError

def message : StoreError → String
  | notFound path => s!"file not found: {path.string}"
  | io path reason => s!"{path.string}: {reason}"

/-- Whether only the file is missing. -/
def isNotFound : StoreError → Bool
  | notFound _ => true
  | io _ _ => false

end StoreError

/-- A file or directory of a store, with its path below the top. -/
structure Entry where
  path : Text
  isDir : Bool
deriving Repr, DecidableEq

structure Store where
  /-- The content of the file with the given path. -/
  read : Text → Except StoreError Bytes
  /-- All files and directories in the order of their paths. -/
  list : Except StoreError (List Entry)

namespace Store

def empty : Store where
  read path := .error (.notFound path)
  list := .ok []

/-- A store in which reading some paths fails, each with its reason, and perhaps listing too. -/
def withFaults (store : Store) (faults : Table String) (listFault : Option String) : Store where
  read path :=
    match faults.get? path with
    | some reason => .error (.io path reason)
    | none => store.read path
  list :=
    match listFault with
    | some reason => .error (.io "walk".toList reason)
    | none => store.list

end Store

/-- The path without the slashes in front of it: the top of a store is its root. -/
def Store.belowTop (path : Text) : Text :=
  path.dropWhile (· == '/')

namespace Entry

/-- The order of listings: by path, and with one path the file before the directory. -/
def Before (a b : Entry) : Prop :=
  a.path < b.path ∨ (a.path = b.path ∧ a.isDir = false ∧ b.isDir = true)

instance (a b : Entry) : Decidable (a.Before b) :=
  inferInstanceAs (Decidable (_ ∨ _))

/-- The entries with one more at its place; one that is there already is not repeated. -/
def insert (e : Entry) : List Entry → List Entry
  | [] => [e]
  | other :: rest =>
    if e.Before other then e :: other :: rest
    else if e = other then other :: rest
    else other :: insert e rest

/-- Entries in order, each once. -/
def sorted (entries : List Entry) : List Entry :=
  entries.foldr insert []

end Entry
end PageTemplates
