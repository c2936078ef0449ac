import PageTemplates.Template.Run
import PageTemplates.Template.Statement

/-!
Namespaces: templates read from several sources, where a later source overrides what an earlier one
defines.  A layout read first and a page read last give the page in its layout.
-/

namespace PageTemplates.Template

open Output (Sink)

/-- Templates that can call each other, and the functions they can call. -/
structure Namespace where
  funcs : FunctionMap
  /-- The template that a run starts with. -/
  main : Option (List Node)
  templates : Table (List Node)
deriving Inhabited

/-- Whether a step writes nothing but blanks, whatever the data. -/
def Node.isBlank : Node → Bool
  | .text content => content.all Text.isBlank
  | _ => false

namespace Namespace

variable {σ : Type}

def empty (funcs : FunctionMap) : Namespace :=
  ⟨funcs, none, Table.empty⟩

/-- The namespace with a source that has been read: its body is the new main template unless it is
blank, and its definitions replace those of the same name. -/
def add (ns : Namespace) (parsed : Parsed) : Namespace where
  funcs := ns.funcs
  main := if parsed.body.all Node.isBlank then ns.main else some parsed.body
  templates := ns.templates.insertAll parsed.definitions

/-- The namespace with one more source. -/
def parse (ns : Namespace) (source : Text) : Except ParseError Namespace :=
  (Template.parse ns.funcs.knows source).map ns.add

def execute (sink : Sink σ) (ns : Namespace) (data : Value) (s : σ) : Outcome σ :=
  match ns.main with
  | some body => runBody sink ⟨ns.funcs, data⟩ ns.templates maxDepth body data s
  | none => .failed .incomplete s

def executeTemplate (sink : Sink σ) (ns : Namespace) (name : Text) (data : Value) (s : σ) : Outcome σ :=
  match ns.templates.get? name with
  | some body => runBody sink ⟨ns.funcs, data⟩ ns.templates maxDepth body data s
  | none => .failed (.unknownTemplate name) s

/-- The bytes of the main template, when it can be written to its end. -/
def render (ns : Namespace) (data : Value) : Except RunError Utf8.Bytes :=
  match ns.execute Output.buffer data #[] with
  | (out, .ok ()) => .ok out.toList
  | (_, .error e) => .error e

def describe (ns : Namespace) : String :=
  s!"Namespace \x7b main: {ns.main.isSome}, templates: {Text.quotedList ns.templates.names}, " ++
    s!"funcs: FuncMap \x7b funcs: {Text.quotedList ns.funcs.names} \x7d \x7d"

end Namespace
end PageTemplates.Template
