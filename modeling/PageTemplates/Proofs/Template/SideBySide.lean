import PageTemplates.Proofs.Template.Lowering
import PageTemplates.Template.Namespace

/-!
The same steps run twice, side by side, each time on a sink and with calls of templates of their
own.  A relation that holds of what single steps do on both sides, and that two runs in a row
keep, holds of both runs as a whole.
-/

namespace PageTemplates.Template

open Output (Sink)

namespace Item

/-- The expression that a step has the value of. -/
def expr? : Item → Option Expr
  | text _ | template _ none | otherwise | closes => none
  | output e | template _ (some e) | cond e | range e _ => some e

/-- The template that a step calls. -/
def callee? : Item → Option Text
  | template name _ => some name
  | text _ | output _ | cond _ | range _ _ | otherwise | closes => none

end Item

theorem forall_mem_of_branched {first second : List Item} {p : Item → Prop}
    (h : ∀ item ∈ branched first second, p item) :
    (∀ item ∈ first, p item) ∧ ∀ item ∈ second, p item := by
  obtain ⟨hfirst, hmarked⟩ := List.forall_mem_append.mp h
  obtain ⟨-, hclosed⟩ := List.forall_mem_cons.mp hmarked
  exact ⟨hfirst, (List.forall_mem_append.mp hclosed).1⟩

variable {σ τ : Type} {sink : Sink σ} {other : Sink τ}

/-- A relation of runs that their parts hand on to the whole. -/
structure Paired (sink : Sink σ) (other : Sink τ)
    (R : (σ → Outcome σ) → (τ → Outcome τ) → Prop) : Prop where
  done : R .done .done
  notIterable : ∀ line v, R (.failed (.notIterable line v)) (.failed (.notIterable line v))
  writeText : ∀ t, R (writeText sink t) (writeText other t)
  andThen : ∀ {first second : σ → Outcome σ} {first' second' : τ → Outcome τ}, R first first' →
    R second second' → R (fun s => (first s).andThen second) fun s => (first' s).andThen second'

/-- A relation that holds of the failures of a step's expression and of the step's calls. -/
structure Item.Covered (R : (σ → Outcome σ) → (τ → Outcome τ) → Prop) (scope : Scope)
    (calls : Calls σ) (others : Calls τ) (item : Item) : Prop where
  fails : ∀ e dot error, item.expr? = some e → e.eval scope dot = .error error →
    R (.failed error) (.failed error)
  calls : ∀ name v, item.callee? = some name → R (calls name v) (others name v)

/-- When the relation holds of every failure and of every call, it holds of those of any step. -/
theorem Item.covered_of_calls {R : (σ → Outcome σ) → (τ → Outcome τ) → Prop} {scope : Scope}
    {calls : Calls σ} {others : Calls τ} (hfailed : ∀ error, R (.failed error) (.failed error))
    (hcalls : ∀ name v, R (calls name v) (others name v)) (item : Item) :
    item.Covered R scope calls others where
  fails _ _ error _ _ := hfailed error
  calls name v _ := hcalls name v

namespace Paired

variable {R : (σ → Outcome σ) → (τ → Outcome τ) → Prop}

theorem withValue {α : Type} {v : Except RunError α} {next : α → σ → Outcome σ}
    {next' : α → τ → Outcome τ} (hfails : ∀ error, v = .error error → R (.failed error) (.failed error))
    (hnext : ∀ a, v = .ok a → R (next a) (next' a)) :
    R (fun s => .withValue v s fun a => next a s) fun s => .withValue v s fun a => next' a s := by
  cases v with
  | error error => exact hfails error rfl
  | ok a => exact hnext a rfl

theorem runEach (hR : Paired sink other R) {body : Value → σ → Outcome σ}
    {body' : Value → τ → Outcome τ} (hbody : ∀ item, R (body item) (body' item))
    (items : List Value) : R (Template.runEach body items) (Template.runEach body' items) := by
  induction items with
  | nil => exact hR.done
  | cons item rest ih => exact hR.andThen (hbody item) ih

variable {scope : Scope} {calls : Calls σ} {others : Calls τ}

mutual
/-- What holds of the two sides of every step in a step holds of the two runs of it. -/
theorem run_node (hR : Paired sink other R) : ∀ (node : Node) (dot : Value),
    (∀ item ∈ node.items, item.Covered R scope calls others) →
      R (node.run sink scope calls dot) (node.run other scope others dot)
  | .text content, _, _ => hR.writeText content
  | .output e, dot, hitems =>
      withValue (fun error => (hitems _ List.mem_cons_self).fails e dot error rfl)
        fun v _ => hR.writeText v.written
  | .template name none, _, hitems => (hitems _ List.mem_cons_self).calls name .null rfl
  | .template name (some arg), dot, hitems =>
      withValue (fun error => (hitems _ List.mem_cons_self).fails arg dot error rfl)
        fun v _ => (hitems _ List.mem_cons_self).calls name v.value rfl
  | .cond test yes no, dot, hitems => by
      obtain ⟨htest, hbranches⟩ := List.forall_mem_cons.mp hitems
      obtain ⟨hyes, hno⟩ := forall_mem_of_branched hbranches
      apply withValue fun error => htest.fails test dot error rfl
      intro v _
      cases v.value.truthy with
      | true => exact hR.run_nodes yes dot hyes
      | false => exact hR.run_nodes no dot hno
  | .range subject body otherwise line, dot, hitems => by
      obtain ⟨hsubject, hbranches⟩ := List.forall_mem_cons.mp hitems
      obtain ⟨hbody, hotherwise⟩ := forall_mem_of_branched hbranches
      apply withValue fun error => hsubject.fails subject dot error rfl
      intro v _
      -- The value has items; it could have items and has none; it is null; it is anything else.
      split
      next item rest _ =>
        exact hR.runEach (fun item => hR.run_nodes body item hbody) (item :: rest)
      next => exact hR.run_nodes otherwise dot hotherwise
      next => exact hR.run_nodes otherwise dot hotherwise
      next => exact hR.notIterable line _

theorem run_nodes (hR : Paired sink other R) : ∀ (nodes : List Node) (dot : Value),
    (∀ item ∈ itemsOf nodes, item.Covered R scope calls others) →
      R (runNodes sink scope calls nodes dot) (runNodes other scope others nodes dot)
  | [], _, _ => hR.done
  | node :: rest, dot, hitems => by
      obtain ⟨hnode, hrest⟩ := List.forall_mem_append.mp hitems
      exact hR.andThen (hR.run_node node dot hnode) (hR.run_nodes rest dot hrest)
end

end Paired

/-! ## Failures -/

/-- A run that fails in no other way than the given ones. -/
def FailsOnly (given : RunError → Prop) (run : σ → Outcome σ) : Prop :=
  ∀ s error, (run s).2 = .error error → given error

variable {given : RunError → Prop}

theorem failsOnly_failed {error : RunError} (herror : given error) :
    FailsOnly given (Outcome.failed error : σ → Outcome σ) := by
  intro s other hother
  exact Except.error.inj hother ▸ herror

/-- How single steps may fail a whole run may fail. -/
theorem paired_failsOnly (hloop : ∀ line v, given (.notIterable line v))
    (hwrite : ∀ reason, given (.write reason)) :
    Paired sink sink fun run _ => FailsOnly given run where
  done := by
    intro s error h
    cases h
  notIterable line v := failsOnly_failed (hloop line v)
  writeText t := by
    intro s error h
    rw [Template.writeText] at h
    cases hsink : sink.write (Utf8.encode t) s with
    | mk s failure =>
        rw [hsink] at h
        cases failure with
        | none => cases h
        | some reason => exact failsOnly_failed (hwrite reason) s error h
  andThen {first second _ _} hfirst hsecond := by
    intro s error h
    cases hran : first s with
    | mk t result =>
        simp only [hran] at h
        cases result with
        | ok => exact hsecond t error h
        | error fault =>
            obtain rfl := Except.error.inj h
            exact hfirst s fault (congrArg Prod.snd hran)

/-- A run fails in no other way than the given ones when neither the expressions in its steps do nor
the calls. -/
theorem failsOnly_runNodes (hloop : ∀ line v, given (.notIterable line v))
    (hwrite : ∀ reason, given (.write reason)) {scope : Scope} {calls : Calls σ}
    {nodes : List Node}
    (hexprs : ∀ item ∈ itemsOf nodes, ∀ e dot error, item.expr? = some e →
      e.eval scope dot = .error error → given error)
    (hcalls : ∀ item ∈ itemsOf nodes, ∀ name v, item.callee? = some name →
      FailsOnly given (calls name v)) (dot : Value) :
    FailsOnly given (runNodes sink scope calls nodes dot) := by
  have hcovered : ∀ item ∈ itemsOf nodes,
      item.Covered (fun run (_ : σ → Outcome σ) => FailsOnly given run) scope calls calls :=
    fun item hitem =>
      { fails := fun e dot error he herror =>
          failsOnly_failed (hexprs item hitem e dot error he herror)
        calls := hcalls item hitem }
  have hpaired : Paired sink sink _ := paired_failsOnly hloop hwrite
  exact hpaired.run_nodes nodes dot hcovered

namespace Namespace

variable {ns : Namespace} {data : Value}

theorem failsOnly_execute (hmissing : given .incomplete)
    (hmain : ∀ body, ns.main = some body →
      FailsOnly given (runBody sink ⟨ns.funcs, data⟩ ns.templates maxDepth body data)) :
    FailsOnly given (ns.execute sink data) := by
  intro s error herror
  cases hbody : ns.main with
  | none =>
      rw [execute, hbody] at herror
      exact failsOnly_failed hmissing s error herror
  | some body =>
      rw [execute, hbody] at herror
      exact hmain body hbody s error herror

theorem failsOnly_executeTemplate {name : Text} (hmissing : given (.unknownTemplate name))
    (htemplate : ∀ body, ns.templates.get? name = some body →
      FailsOnly given (runBody sink ⟨ns.funcs, data⟩ ns.templates maxDepth body data)) :
    FailsOnly given (ns.executeTemplate sink name data) := by
  intro s error herror
  cases hbody : ns.templates.get? name with
  | none =>
      rw [executeTemplate, hbody] at herror
      exact failsOnly_failed hmissing s error herror
  | some body =>
      rw [executeTemplate, hbody] at herror
      exact htemplate body hbody s error herror

end Namespace
end PageTemplates.Template
