import PageTemplates.Proofs.Template.Marks
import PageTemplates.Template.Namespace

/-!
Where a run goes.  A run of a template visits steps, each on a value of its own, and what
it writes are the writes of the steps that it visits.  A property of runs that holds of
those writes and of failures, and that two runs in a row keep, holds of the whole run.
-/

namespace PageTemplates.Template

open Output (Sink)

/-- A run that can be made on any sink. -/
abbrev Run := (σ : Type) → Sink σ → σ → Outcome σ

/-! ## Visits -/

/-- The steps that one step on a value leads to, and the value they are run on.  Nothing
of this depends on a mark of HTML. -/
inductive Node.Enters (scope : Scope) (templates : Table (List Node)) (dot : Value) :
    Node → List Node → Value → Prop
  | yes {test : Expr} {yes no : List Node} {v : Value} (hv : test.valueIn scope dot = .ok v)
      (htrue : v.truthy = true) : Enters scope templates dot (.cond test yes no) yes dot
  | no {test : Expr} {yes no : List Node} {v : Value} (hv : test.valueIn scope dot = .ok v)
      (hfalse : v.truthy = false) : Enters scope templates dot (.cond test yes no) no dot
  | item {subject : Expr} {body otherwise : List Node} {line : Nat} {v item : Value}
      {items : List Value} (hv : subject.valueIn scope dot = .ok v)
      (hitems : v.items? = some items) (hitem : item ∈ items) :
      Enters scope templates dot (.range subject body otherwise line) body item
  | otherwise {subject : Expr} {body otherwise : List Node} {line : Nat} {v : Value}
      (hv : subject.valueIn scope dot = .ok v) (hnone : v.items? = some [] ∨ v = .null) :
      Enters scope templates dot (.range subject body otherwise line) otherwise dot
  | bare {name : Text} {body : List Node} (hname : templates.get? name = some body) :
      Enters scope templates dot (.template name none) body .null
  | passed {name : Text} {arg : Expr} {body : List Node} {v : Value}
      (hv : arg.valueIn scope dot = .ok v) (hname : templates.get? name = some body) :
      Enters scope templates dot (.template name (some arg)) body v

/-- The steps that a run of `start` on the data of the page can come to, each with the
value it is run on. -/
inductive Visits (scope : Scope) (templates : Table (List Node)) (start : List Node) :
    Node → Value → Prop
  | start {node : Node} (hnode : node ∈ start) : Visits scope templates start node scope.root
  | enter {outer node : Node} {dot inner : Value} {body : List Node}
      (houter : Visits scope templates start outer dot)
      (henters : outer.Enters scope templates dot body inner) (hnode : node ∈ body) :
      Visits scope templates start node inner

/-! ## Runs put together -/

/-- A property of runs that the parts of a run hand on to the whole. -/
structure Composable (P : Run → Prop) : Prop where
  done : P fun _ _ => .done
  failed : ∀ e, P fun _ _ => .failed e
  andThen : ∀ {first second : Run}, P first → P second →
    P fun σ sink s => (first σ sink s).andThen (second σ sink)

/-- Whether a property holds of everything that the visited steps can write. -/
def HoldsOfWrites (P : Run → Prop) (scope : Scope) (templates : Table (List Node))
    (start : List Node) : Prop :=
  ∀ node dot t, Visits scope templates start node dot → node.Writes scope dot t →
    P fun _ sink => writeText sink t

/-- Whether a property holds of the calls of all templates whose steps are visited. -/
def HoldsOfCalls (P : Run → Prop) (scope : Scope) (templates : Table (List Node))
    (start : List Node) (calls : (σ : Type) → Sink σ → Calls σ) : Prop :=
  ∀ name v, (∀ body, templates.get? name = some body →
    ∀ node ∈ body, Visits scope templates start node v) → P fun σ sink => calls σ sink name v

namespace Composable

variable {P : Run → Prop}

theorem withValue (hP : Composable P) {α : Type} {next : α → Run} {v : Except RunError α}
    (hnext : ∀ a, v = .ok a → P (next a)) :
    P fun σ sink s => .withValue v s fun a => next a σ sink s := by
  cases v with
  | error e => exact hP.failed e
  | ok a => exact hnext a rfl

theorem runEach (hP : Composable P) {body : Value → Run} {items : List Value}
    (hbody : ∀ item ∈ items, P (body item)) :
    P fun σ sink => Template.runEach (fun item => body item σ sink) items := by
  induction items with
  | nil => exact hP.done
  | cons item rest ih =>
      exact hP.andThen (hbody item List.mem_cons_self)
        (ih fun item hitem => hbody item (List.mem_cons_of_mem _ hitem))

variable {scope : Scope} {templates : Table (List Node)} {start : List Node}

section Nodes

variable {calls : (σ : Type) → Sink σ → Calls σ}

mutual
/-- A visit of a step has the property when the writes of all visits have it, and the calls of
templates whose steps are visited. -/
theorem run_node (hP : Composable P) (hwrites : HoldsOfWrites P scope templates start)
    (hcalls : HoldsOfCalls P scope templates start calls) :
    ∀ (node : Node) (dot : Value), Visits scope templates start node dot →
      P fun σ sink => node.run sink scope (calls σ sink) dot
  | .text content, dot, hvisit => hwrites _ dot content hvisit (.text content)
  | .output e, dot, hvisit =>
      hP.withValue fun v hv => hwrites _ dot v.written hvisit (Node.writes_written hv)
  | .template name none, dot, hvisit =>
      hcalls name .null fun _ hname _ hnode => hvisit.enter (.bare hname) hnode
  | .template name (some arg), dot, hvisit =>
      hP.withValue fun v hv => hcalls name v.value fun _ hname _ hnode =>
        hvisit.enter (.passed (Expr.valueIn_of_eval hv) hname) hnode
  | .cond test yes no, dot, hvisit => by
      apply hP.withValue
      intro v hv
      have hvalue := Expr.valueIn_of_eval hv
      cases htruthy : v.value.truthy with
      | true =>
          exact hP.run_nodes hwrites hcalls yes dot fun _ hnode =>
            hvisit.enter (.yes hvalue htruthy) hnode
      | false =>
          exact hP.run_nodes hwrites hcalls no dot fun _ hnode =>
            hvisit.enter (.no hvalue htruthy) hnode
  | .range subject body otherwise line, dot, hvisit => by
      apply hP.withValue
      intro v hv
      have hvalue := Expr.valueIn_of_eval hv
      -- The value has items; it could have items and has none; it is null; it is anything else.
      split
      next item rest hitems =>
        exact hP.runEach fun item hitem => hP.run_nodes hwrites hcalls body item fun _ hnode =>
          hvisit.enter (.item hvalue hitems hitem) hnode
      next hitems =>
        exact hP.run_nodes hwrites hcalls otherwise dot fun _ hnode =>
          hvisit.enter (.otherwise hvalue (.inl hitems)) hnode
      next hnull _ =>
        exact hP.run_nodes hwrites hcalls otherwise dot fun _ hnode =>
          hvisit.enter (.otherwise hvalue (.inr hnull)) hnode
      next => exact hP.failed _

theorem run_nodes (hP : Composable P) (hwrites : HoldsOfWrites P scope templates start)
    (hcalls : HoldsOfCalls P scope templates start calls) :
    ∀ (nodes : List Node) (dot : Value),
      (∀ node ∈ nodes, Visits scope templates start node dot) →
      P fun σ sink => runNodes sink scope (calls σ sink) nodes dot
  | [], _, _ => hP.done
  | node :: rest, dot, hvisits =>
      hP.andThen (hP.run_node hwrites hcalls node dot (hvisits node List.mem_cons_self))
        (hP.run_nodes hwrites hcalls rest dot fun other hother =>
          hvisits other (List.mem_cons_of_mem _ hother))
end

end Nodes

end Composable

/-! ## Templates -/

section Calls

variable {σ : Type} {sink : Sink σ} {scope : Scope} {templates : Table (List Node)} {name : Text}
  {body : List Node}

theorem callTemplate_of_none (hname : templates.get? name = none) (depth : Nat) (dot : Value) :
    callTemplate sink scope templates depth name dot = .failed (.unknownTemplate name) := by
  funext s
  unfold callTemplate
  simp only [hname]

theorem callTemplate_zero (hname : templates.get? name = some body) (dot : Value) :
    callTemplate sink scope templates 0 name dot = .failed (.tooDeep maxDepth) := by
  funext s
  unfold callTemplate
  simp only [hname]

theorem callTemplate_succ (hname : templates.get? name = some body) (depth : Nat) (dot : Value) :
    callTemplate sink scope templates (depth + 1) name dot =
      runNodes sink scope (callTemplate sink scope templates depth) body dot := by
  funext s
  unfold callTemplate
  simp only [hname]

end Calls

namespace Composable

variable {P : Run → Prop}

section Calls

variable {scope : Scope} {templates : Table (List Node)} {start : List Node}

/-- By induction on how deep the templates may still call each other. -/
theorem run_call (hP : Composable P) (hwrites : HoldsOfWrites P scope templates start)
    (depth : Nat) :
    HoldsOfCalls P scope templates start fun _ sink => callTemplate sink scope templates depth := by
  induction depth with
  | zero =>
      intro name v _
      cases hname : templates.get? name with
      | none =>
          simp only [callTemplate_of_none hname]
          exact hP.failed (.unknownTemplate name)
      | some body =>
          simp only [callTemplate_zero hname]
          exact hP.failed (.tooDeep maxDepth)
  | succ depth ih =>
      intro name v hvisits
      cases hname : templates.get? name with
      | none =>
          simp only [callTemplate_of_none hname]
          exact hP.failed (.unknownTemplate name)
      | some body =>
          simp only [callTemplate_succ hname]
          exact hP.run_nodes hwrites ih body v (hvisits body hname)

theorem run_body (hP : Composable P) (hwrites : HoldsOfWrites P scope templates start)
    (depth : Nat) :
    P fun _ sink => runBody sink scope templates depth start scope.root :=
  hP.run_nodes hwrites (hP.run_call hwrites depth) start scope.root fun _ hnode => .start hnode

end Calls

variable {ns : Namespace} {data : Value}

theorem execute (hP : Composable P)
    (hwrites : HoldsOfWrites P ⟨ns.funcs, data⟩ ns.templates (ns.main.getD [])) :
    P fun _ sink => ns.execute sink data := by
  unfold Namespace.execute
  cases hmain : ns.main with
  | none => exact hP.failed .incomplete
  | some body =>
      rw [hmain] at hwrites
      exact hP.run_body hwrites maxDepth

theorem executeTemplate (hP : Composable P) {name : Text}
    (hwrites : HoldsOfWrites P ⟨ns.funcs, data⟩ ns.templates
      ((ns.templates.get? name).getD [])) :
    P fun _ sink => ns.executeTemplate sink name data := by
  unfold Namespace.executeTemplate
  cases hname : ns.templates.get? name with
  | none => exact hP.failed (.unknownTemplate name)
  | some body =>
      rw [hname] at hwrites
      exact hP.run_body hwrites maxDepth

end Composable
end PageTemplates.Template
