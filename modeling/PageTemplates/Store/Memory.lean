import PageTemplates.Store.Basic

/-!
Files held in memory under their paths.  A file is under every directory that its path names, and there
are no other directories.
-/

namespace PageTemplates

open Utf8 (Bytes)

/-- Files by path, without slashes in front. -/
structure Memory where
  files : Table Bytes
deriving Inhabited

namespace Memory

def empty : Memory :=
  ⟨Table.empty⟩

/-- The files with the content of one path set. -/
def insert (m : Memory) (path : Text) (content : Bytes) : Memory :=
  ⟨m.files.insert (Store.belowTop path) content⟩

def remove (m : Memory) (path : Text) : Memory :=
  ⟨m.files.erase (Store.belowTop path)⟩

def contains (m : Memory) (path : Text) : Bool :=
  m.files.contains (Store.belowTop path)

def read (m : Memory) (path : Text) : Except StoreError Bytes :=
  match m.files.get? (Store.belowTop path) with
  | some content => .ok content
  | none => .error (.notFound path)

/-- The directories that a path names: what stands before each of its slashes. -/
def directories : Text → List Text
  | [] => []
  | c :: rest => (if c = '/' then [[]] else []) ++ (directories rest).map (c :: ·)

def list (m : Memory) : List Entry :=
  Entry.sorted (m.files.names.flatMap fun path =>
    ⟨path, false⟩ :: (directories path).map (⟨·, true⟩))

def store (m : Memory) : Store where
  read := m.read
  list := .ok m.list

def describe (m : Memory) : String :=
  s!"MemoryStore \x7b files: {m.files.size} \x7d"

end Memory

example : Memory.directories "a//b".toList = ["a".toList, "a/".toList] := by decide

end PageTemplates
