import PageTemplates.Output.Sink
import PageTemplates.Template.Eval

/-!
Writing templates out.  Every step writes to the sink at once and the first failure ends the run, so
what was written before it stays.
-/

namespace PageTemplates.Template

open Output (Sink)

/-- The state of the sink after a run, and the failure that ended it, if there was one. -/
abbrev Outcome (σ : Type) := σ × Except RunError Unit

variable {σ : Type}

namespace Outcome

def done (s : σ) : Outcome σ :=
  (s, .ok ())

/-- A run that fails without writing. -/
def failed (e : RunError) (s : σ) : Outcome σ :=
  (s, .error e)

/-- One run after another; the second starts only if the first ends well. -/
@[inline] def andThen (first : Outcome σ) (next : σ → Outcome σ) : Outcome σ :=
  match first with
  | (s, .ok ()) => next s
  | (s, .error e) => (s, .error e)

/-- A run on a value that may be missing. -/
@[inline] def withValue {α : Type} (v : Except RunError α) (s : σ) (next : α → Outcome σ) : Outcome σ :=
  match v with
  | .ok v => next v
  | .error e => failed e s

end Outcome

def writeText (sink : Sink σ) (t : Text) (s : σ) : Outcome σ :=
  match sink.write (Utf8.encode t) s with
  | (s, none) => .done s
  | (s, some reason) => .failed (.write reason) s

/-- A body run on each of the items in turn. -/
def runEach (body : Value → σ → Outcome σ) : List Value → σ → Outcome σ
  | [], s => .done s
  | item :: rest, s => (body item s).andThen fun s => runEach body rest s

/-- How deeply templates may call each other. -/
def maxDepth : Nat := 100

/-- What a run does when it meets a call of a template. -/
abbrev Calls (σ : Type) := Text → Value → σ → Outcome σ

mutual
/-- Runs one step with `dot` as the current value. -/
def Node.run (sink : Sink σ) (scope : Scope) (calls : Calls σ) : Node → Value → σ → Outcome σ
  | .text content, _, s => writeText sink content s
  | .output e, dot, s =>
    .withValue (e.eval scope dot) s fun v => writeText sink v.written s
  | .template name none, _, s => calls name .null s
  | .template name (some arg), dot, s =>
    .withValue (arg.eval scope dot) s fun v => calls name v.value s
  | .cond test yes no, dot, s =>
    .withValue (test.eval scope dot) s fun v =>
      if v.value.truthy then runNodes sink scope calls yes dot s
      else runNodes sink scope calls no dot s
  | .range subject body otherwise line, dot, s =>
    .withValue (subject.eval scope dot) s fun v =>
      match v.value, v.value.items? with
      | _, some (item :: rest) =>
        runEach (fun item s => runNodes sink scope calls body item s) (item :: rest) s
      | _, some [] | .null, none => runNodes sink scope calls otherwise dot s
      | other, none => .failed (.notIterable line other) s
termination_by structural node => node

def runNodes (sink : Sink σ) (scope : Scope) (calls : Calls σ) : List Node → Value → σ → Outcome σ
  | [], _, s => .done s
  | node :: rest, dot, s =>
    (node.run sink scope calls dot s).andThen fun s => runNodes sink scope calls rest dot s
termination_by structural nodes => nodes
end

/-- Runs the template of the given name, from which templates may call each other `depth` levels
deep; the name is looked up before the depth is. -/
def callTemplate (sink : Sink σ) (scope : Scope) (templates : Table (List Node)) :
    (depth : Nat) → Calls σ
  | depth, name, dot, s =>
    match templates.get? name, depth with
    | none, _ => .failed (.unknownTemplate name) s
    | some _, 0 => .failed (.tooDeep maxDepth) s
    | some body, depth + 1 =>
      runNodes sink scope (callTemplate sink scope templates depth) body dot s

/-- Runs some steps, with `depth` levels of calls below them. -/
def runBody (sink : Sink σ) (scope : Scope) (templates : Table (List Node)) (depth : Nat)
    (body : List Node) (dot : Value) (s : σ) : Outcome σ :=
  runNodes sink scope (callTemplate sink scope templates depth) body dot s

end PageTemplates.Template
