import PageTemplates.Store.Basic
import PageTemplates.Store.Tree

/-!
The files below one directory of a file system.  Paths that go up are not followed, so nothing outside
the directory is ever read.
-/

namespace PageTemplates

open Utf8 (Bytes)

/-- A directory that serves as a store. -/
structure Directory where
  /-- The whole file system. -/
  disk : Tree
  /-- The path where other paths go on. -/
  place : Text
  /-- The path of the directory from there; nothing when it is the place itself. -/
  root : Option Text

namespace Directory

def rootPath (d : Directory) : Text :=
  match d.root with
  | some root => Path.continued d.place root
  | none => d.place

def read (d : Directory) (path : Text) : Except StoreError Bytes :=
  let below := Store.belowTop path
  if Path.up ∈ Text.pieces '/' below then .error (.notFound path)
  else match d.disk.read (Path.continued d.rootPath below) with
    | .ok content => .ok content
    | .error .missing => .error (.notFound path)
    | .error fault => .error (.io path fault.message)

/-- That a directory cannot be listed, as the fault of a listing that started further up. -/
def listFault (d : Directory) (path : Text) (fault : TreeFault) : StoreError :=
  .io d.rootPath s!"IO error for operation on {path.string}: {fault.message}"

/-- All files and directories below the directory.  Directories are opened by their whole paths, each
before what lies in it. -/
def list (d : Directory) : Except StoreError (List Entry) :=
  match d.disk.follow d.rootPath with
  | .error fault => .error (d.listFault d.rootPath fault)
  | .ok top =>
    let entries := top.contents.map fun (names, isDir) => Entry.mk (Text.joined ['/'] names) isDir
    let opened := (entries.filter (·.isDir)).map fun e => Path.continued d.rootPath e.path
    match opened.findSome? fun path => (Tree.pathFault? path).map (d.listFault path) with
    | some fault => .error fault
    | none => .ok (Entry.sorted entries)

def store (d : Directory) : Store where
  read := d.read
  list := d.list

/-- The directory after a file has been written, its path starting at the place.  It is the same when no
file can be written there. -/
def write (d : Directory) (path : Text) (content : Bytes) : Directory :=
  { d with disk := (d.disk.write? (Path.continued d.place path) content).getD d.disk }

/-- The directory after a directory has been made, likewise. -/
def makeDir (d : Directory) (path : Text) : Directory :=
  { d with disk := (d.disk.makeDirs? (Text.pieces '/' (Path.continued d.place path))).getD d.disk }

/-- The directory after a file has been removed, its path starting at the place.  None when there is no
such file. -/
def remove? (d : Directory) (path : Text) : Option Directory :=
  (d.disk.remove? (Path.continued d.place path)).map fun disk => { d with disk := disk }

end Directory
end PageTemplates
