import PageTemplates.Path.Ancestors
import PageTemplates.Site.Error
import PageTemplates.Template.Namespace

/-!
Compiling a page: its files are read from the outermost layout to the page itself, each into the namespace
that the ones before it have made.  Layouts found by convention may be missing, everything else has to be
there.
-/

namespace PageTemplates.Site

open Template (FunctionMap Namespace)

def layoutFile : Text := "@layout.html".toList

def isLayout (path : Text) : Bool :=
  (Text.pieces '/' path).getLast? == some layoutFile

/-- The directory that a path names, nothing for the top. -/
def directoryOf (path : Text) : Text :=
  Text.joined ['/'] (Text.pieces '/' path).dropLast

/-- The directories around a page, outermost first. -/
def directoriesAround (name : Text) : List Text :=
  (Path.ancestorsRootFirst ('/' :: directoryOf (Store.belowTop name))).map Store.belowTop

/-- The path of the layout of a directory. -/
def layoutIn (dir : Text) : Text :=
  if dir = [] then layoutFile else dir ++ '/' :: layoutFile

structure Ingredient where
  path : Text
  /-- Whether the page can be made without it. -/
  optional : Bool
deriving Repr, DecidableEq

/-- The content file of a registered page, and its layouts, outermost first. -/
structure Registration where
  content : Text
  layouts : List Text
deriving Repr, DecidableEq

def conventionIngredients (name : Text) : List Ingredient :=
  (directoriesAround name).map (fun dir => ⟨layoutIn dir, true⟩) ++ [⟨name, false⟩]

def Registration.ingredients (r : Registration) : List Ingredient :=
  (r.layouts ++ [r.content]).map fun path => ⟨path, false⟩

def readSource (store : Store) (path : Text) : Except PageError Text :=
  match store.read path with
  | .error e => .error (.read path e)
  | .ok content =>
    match Utf8.decode content with
    | .ok source => .ok source
    | .error fault => .error (.read path (.io path fault.message))

/-- What came of a compilation, and the paths that were read for it, first to last. -/
structure Compilation where
  reads : List Text
  result : Except PageError Namespace

/-- A compilation that read one path before. -/
def Compilation.after (path : Text) (c : Compilation) : Compilation :=
  ⟨path :: c.reads, c.result⟩

/-- The namespace with the files read into it in turn; the first failure ends the reading. -/
def compileInto (store : Store) : List Ingredient → Namespace → Compilation
  | [], ns => ⟨[], .ok ns⟩
  | file :: rest, ns =>
    match readSource store file.path with
    | .error e =>
      if file.optional && e.isNotFound then (compileInto store rest ns).after file.path
      else ⟨[file.path], .error e⟩
    | .ok source =>
      match ns.parse source with
      | .error e => ⟨[file.path], .error (.parse file.path e)⟩
      | .ok ns => (compileInto store rest ns).after file.path

/-- The page with the given path, in the layouts of the directories around it. -/
def compileByConvention (store : Store) (funcs : FunctionMap) (name : Text) : Compilation :=
  if isLayout name then ⟨[], .error (.notRenderable name)⟩
  else compileInto store (conventionIngredients name) (.empty funcs)

def compileRegistered (store : Store) (funcs : FunctionMap) (r : Registration) : Compilation :=
  compileInto store r.ingredients (.empty funcs)

example : directoriesAround "/a/b/page.html".toList = [[], "a".toList, "a/b".toList] := by decide
example : isLayout "a/@layout.html".toList = true := by decide

end PageTemplates.Site
