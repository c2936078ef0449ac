import PageTemplates.Path.Basic
import PageTemplates.Table
import PageTemplates.Text.Utf8

/-!
Trees of files, as a file system holds them below one directory, and the way along a path in them.
-/

namespace PageTemplates

open Utf8 (Bytes)

/-- A file, or a directory with its entries in the order of their names. -/
inductive Tree where
  | file (content : Bytes)
  | dir (entries : List (Text × Tree))
deriving Inhabited

/-- Why there is nothing at the end of a path, or nothing to read. -/
inductive TreeFault where
  | missing
  | notDirectory
  | isDirectory
  | nameTooLong
  | nulByte
deriving Repr, DecidableEq

def TreeFault.message : TreeFault → String
  | missing => "No such file or directory (os error 2)"
  | notDirectory => "Not a directory (os error 20)"
  | isDirectory => "Is a directory (os error 21)"
  | nameTooLong => "File name too long (os error 36)"
  | nulByte => "file name contained an unexpected NUL byte"

namespace Tree

def empty : Tree :=
  dir []

/-- How many bytes a name can have. -/
def maxName : Nat := 255

/-- How many bytes a whole path can have. -/
def maxPath : Nat := 4095

/-- Whether a name on the way leads nowhere: an empty one, or a dot. -/
def isStay (name : Text) : Bool :=
  name == [] || name == ['.']

/-- What the names lead to from a tree inside the directories `around`, innermost first.  Every name asks
for a directory, also one that leads nowhere; a double dot leads to the directory around, and from the
outermost one nowhere. -/
def findFrom : (around : List Tree) → Tree → List Text → Except TreeFault Tree
  | _, t, [] => .ok t
  | _, file _, _ :: _ => .error .notDirectory
  | around, dir entries, name :: rest =>
    if isStay name then findFrom around (dir entries) rest
    else if name = Path.up then
      match around with
      | [] => findFrom [] (dir entries) rest
      | outer :: around => findFrom around outer rest
    else if maxName < (Utf8.encode name).length then .error .nameTooLong
    else match entries.lookup name with
      | some t => findFrom (dir entries :: around) t rest
      | none => .error .missing

/-- What the names lead to from the outermost directory. -/
def find (t : Tree) (names : List Text) : Except TreeFault Tree :=
  findFrom [] t names

/-- What the system has against a path before it looks at any directory. -/
def pathFault? (path : Text) : Option TreeFault :=
  if path.contains '\x00' then some .nulByte
  else if maxPath < (Utf8.encode path).length then some .nameTooLong
  else none

def follow (t : Tree) (path : Text) : Except TreeFault Tree :=
  match pathFault? path with
  | some fault => .error fault
  | none => t.find (Text.pieces '/' path)

def read (t : Tree) (path : Text) : Except TreeFault Bytes :=
  match t.follow path with
  | .ok (file content) => .ok content
  | .ok (dir _) => .error .isDirectory
  | .error fault => .error fault

/-- The tree with a change made at the end of some names that all lead down.  The change is told what is
there and says what is to be there; where the names on the way lead to no directory nothing changes. -/
def alter (change : Option Tree → Option Tree) : List Text → Tree → Tree
  | [name], dir entries =>
    match change (entries.lookup name) with
    | some t => dir (insertEntry name t entries)
    | none => dir (entries.filter (·.1 ≠ name))
  | name :: rest, dir entries =>
    match entries.lookup name with
    | some t => dir (insertEntry name (alter change rest t) entries)
    | none => dir entries
  | _, t => t

/-- The tree with directories made where the names lead and where they pass, if there is nothing yet.
None when something else is in the way. -/
def makeDirs? (t : Tree) (names : List Text) : Option Tree :=
  (List.range names.length).foldlM (fun t n =>
    let passed := names.take (n + 1)
    match t.find passed with
    | .ok (dir _) => some t
    | .error .missing => some (t.alter (fun _ => some empty) (Path.resolve true passed))
    | _ => none) t

/-- The tree with a file where the path leads, in new directories where there are none.  None when
something else is in the way. -/
def write? (t : Tree) (path : Text) (content : Bytes) : Option Tree :=
  let names := Text.pieces '/' path
  (t.makeDirs? names.dropLast).bind fun t =>
    match t.follow path with
    | .ok (file _) | .error .missing =>
      some (t.alter (fun _ => some (file content)) (Path.resolve true names))
    | _ => none

/-- The tree without the file that a path leads to; the directories around it stay.  None when there is
no such file. -/
def remove? (t : Tree) (path : Text) : Option Tree :=
  match t.follow path with
  | .ok (file _) => some (t.alter (fun _ => none) (Path.resolve true (Text.pieces '/' path)))
  | _ => none

def isDir : Tree → Bool
  | file _ => false
  | dir _ => true

mutual
/-- What lies in a tree: the names on the way to each file and directory below the top, and whether it
is a directory. -/
def contents : Tree → List (List Text × Bool)
  | file _ => []
  | dir entries => contentsOf entries
termination_by structural t => t

def contentsOf : List (Text × Tree) → List (List Text × Bool)
  | [] => []
  | (name, t) :: rest =>
    ([name], t.isDir) :: t.contents.map (fun (names, d) => (name :: names, d)) ++ contentsOf rest
termination_by structural entries => entries
end

end Tree
end PageTemplates
