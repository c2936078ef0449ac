import PageTemplates.Proofs.Template.Runs

/-!
Data cannot bring markup into a page.  All that a run leaves behind, whether it ends well or
not, are texts of the templates themselves and escaped texts, except where a template
writes a call of `safe` and nothing around it.  Everywhere else a call of `safe` is as
good as the plain text of its argument.
-/

namespace PageTemplates.Template

open Output (Sink)
open Utf8 (Bytes)

/-- Whether some bytes are texts in a row, each of them written by a step that a run of
`start` visits, for the value it is visited with. -/
def Wrote (scope : Scope) (templates : Table (List Node)) (start : List Node)
    (bytes : Bytes) : Prop :=
  ∃ pieces : List Text, bytes = Utf8.encode pieces.flatten ∧
    ∀ piece ∈ pieces, ∃ node dot, Visits scope templates start node dot ∧
      node.Writes scope dot piece

/-! ## Runs that write nothing else -/

/-- A run that adds only texts of one kind to a buffer. -/
def WritesOnly (allowed : Text → Prop) (run : Run) : Prop :=
  ∀ kept, ∃ pieces : List Text,
    (run _ Output.buffer kept).1.bytes = kept.bytes ++ Utf8.encode pieces.flatten ∧
      ∀ piece ∈ pieces, allowed piece

variable {allowed : Text → Prop}

theorem writesOnly_nothing {run : Run} (hrun : ∀ kept, (run _ Output.buffer kept).1 = kept) :
    WritesOnly allowed run := by
  intro kept
  refine ⟨[], ?_, fun _ hpiece => absurd hpiece List.not_mem_nil⟩
  rw [hrun, List.flatten_nil, Utf8.encode_nil, List.append_nil]

theorem writesOnly_writeText {t : Text} (ht : allowed t) :
    WritesOnly allowed fun _ sink => writeText sink t := by
  intro kept
  refine ⟨[t], ?_, fun piece hpiece => List.mem_singleton.mp hpiece ▸ ht⟩
  simp [writeText, Output.buffer, Output.Buffer.bytes, Outcome.done]

theorem WritesOnly.andThen {first second : Run} (hfirst : WritesOnly allowed first)
    (hsecond : WritesOnly allowed second) :
    WritesOnly allowed fun σ sink s => (first σ sink s).andThen (second σ sink) := by
  intro kept
  obtain ⟨pieces, hbytes, hpieces⟩ := hfirst kept
  change ∃ more : List Text, ((first _ Output.buffer kept).andThen
    (second _ Output.buffer)).1.bytes = _ ∧ _
  rcases hrun : first _ Output.buffer kept with ⟨s, e | _⟩
  all_goals rw [hrun] at hbytes
  · exact ⟨pieces, hbytes, hpieces⟩
  · obtain ⟨more, hmoreBytes, hmore⟩ := hsecond s
    refine ⟨pieces ++ more, ?_, fun piece hpiece => ?_⟩
    · rw [List.flatten_append, Utf8.encode_append, ← List.append_assoc, ← hbytes]
      exact hmoreBytes
    · exact (List.mem_append.mp hpiece).elim (hpieces piece) (hmore piece)

theorem composable_writesOnly (allowed : Text → Prop) : Composable (WritesOnly allowed) where
  done := writesOnly_nothing fun _ => rfl
  failed _ := writesOnly_nothing fun _ => rfl
  andThen := WritesOnly.andThen

theorem WritesOnly.wrote {scope : Scope} {templates : Table (List Node)} {start : List Node}
    {run : Run} (hrun : WritesOnly (fun piece => ∃ node dot,
      Visits scope templates start node dot ∧ node.Writes scope dot piece) run) :
    Wrote scope templates start (run _ Output.buffer #[]).1.bytes := by
  obtain ⟨pieces, hbytes, hpieces⟩ := hrun #[]
  exact ⟨pieces, hbytes, hpieces⟩

/-! ## Values without the mark -/

/-- Two expressions that nothing but a step that writes them can tell apart: in a call, as
the value of another template, as a condition, and as what a loop goes through. -/
structure Interchangeable (scope : Scope) (dot : Value) (e e' : Expr) : Prop where
  inCall : ∀ name before after line,
    (Expr.call name (before ++ e :: after) line).eval scope dot =
      (Expr.call name (before ++ e' :: after) line).eval scope dot
  asArgument : ∀ {σ : Type} (sink : Sink σ) calls name s,
    (Node.template name (some e)).run sink scope calls dot s =
      (Node.template name (some e')).run sink scope calls dot s
  asTest : ∀ {σ : Type} (sink : Sink σ) calls yes no s,
    (Node.cond e yes no).run sink scope calls dot s =
      (Node.cond e' yes no).run sink scope calls dot s
  asSubject : ∀ {σ : Type} (sink : Sink σ) calls body otherwise line s,
    (Node.range e body otherwise line).run sink scope calls dot s =
      (Node.range e' body otherwise line).run sink scope calls dot s

variable {scope : Scope} {dot : Value}

/-- A run that does not look at the mark of a value is the same for two values that differ in
their marks alone. -/
theorem withValue_unmarked {σ : Type} {e e' : Expr}
    (hvalue : e.valueIn scope dot = e'.valueIn scope dot) {s : σ} {next : Result → Outcome σ}
    (hnext : ∀ v w : Result, v.value = w.value → next v = next w) :
    Outcome.withValue (e.eval scope dot) s next = .withValue (e'.eval scope dot) s next := by
  unfold Expr.valueIn at hvalue
  cases hv : e.eval scope dot with
  | error reason =>
      rw [hv] at hvalue
      rw [Except.map_eq_error_iff.mp hvalue.symm]
  | ok v =>
      rw [hv] at hvalue
      obtain ⟨w, hw, hsame⟩ := Except.map_eq_ok_iff.mp hvalue.symm
      rw [hw]
      exact hnext v w hsame.symm

theorem mapM_valueIn (args : List Expr) :
    args.mapM (Expr.valueIn scope dot) =
      (args.mapM (Expr.eval scope dot)).map fun vs => vs.map Result.value := by
  induction args with
  | nil => rfl
  | cons e rest ih =>
      rw [List.mapM_cons, List.mapM_cons, ih, Expr.valueIn]
      cases e.eval scope dot with
      | error => rfl
      | ok v => cases rest.mapM (Expr.eval scope dot) <;> rfl

/-- A call depends on the values of its arguments alone. -/
theorem Expr.eval_call (name : Text) (args : List Expr) (line : Nat) :
    (Expr.call name args line).eval scope dot =
      (args.mapM (Expr.valueIn scope dot)).bind fun vs =>
        scope.apply line name (vs.map .plain) := by
  rw [eval, evalAll_eq_mapM, mapM_valueIn]
  cases args.mapM (Expr.eval scope dot) with
  | error => rfl
  | ok vs =>
      change scope.apply line name vs = scope.apply line name ((vs.map Result.value).map .plain)
      rw [Scope.apply_unmarked, List.map_map]
      rfl

theorem interchangeable_of_valueIn {e e' : Expr}
    (hvalue : e.valueIn scope dot = e'.valueIn scope dot) : Interchangeable scope dot e e' where
  inCall name before after line := by
    rw [Expr.eval_call, Expr.eval_call, List.mapM_append, List.mapM_append, List.mapM_cons,
      List.mapM_cons, hvalue]
  asArgument sink calls name s :=
    withValue_unmarked hvalue fun v w hsame => by rw [hsame]
  asTest sink calls yes no s :=
    withValue_unmarked hvalue fun v w hsame => by rw [hsame]
  asSubject sink calls body otherwise line s :=
    withValue_unmarked hvalue fun v w hsame => by rw [hsame]

/-- A call of `safe` has the text of its argument as its value. -/
theorem Expr.valueIn_safe (hfuncs : scope.funcs.contains safeName = false) {arg : Expr}
    {v : Value} (hv : arg.valueIn scope dot = .ok v) (line : Nat) :
    (Expr.call safeName [arg] line).valueIn scope dot = .ok (.text v.display) := by
  rw [valueIn, eval_call, List.mapM_cons, hv]
  change (scope.apply line safeName [.plain v]).map Result.value = _
  rw [Scope.apply, if_pos ⟨rfl, by rw [hfuncs]; rfl⟩]
  rfl

/-! ## Pages -/

/-- All that a run leaves in a buffer, however it ends, are texts of the templates and escaped
texts, but for what an outermost call of `safe` writes; a function of that name in the map
makes no exception.  And inside a call, as the value of another template, as a condition or
as what a loop goes through, a call of `safe` is worth the plain text of its argument. -/
theorem Namespace.execute_escapes (ns : Namespace) (data : Value) :
    Wrote ⟨ns.funcs, data⟩ ns.templates (ns.main.getD [])
        (ns.execute Output.buffer data #[]).1.bytes ∧
      (∀ name, Wrote ⟨ns.funcs, data⟩ ns.templates ((ns.templates.get? name).getD [])
        (ns.executeTemplate Output.buffer name data #[]).1.bytes) ∧
      (ns.funcs.contains safeName = true → ∀ (node : Node) dot t,
        node.Writes ⟨ns.funcs, data⟩ dot t → node = .text t ∨ ∃ s, t = escape s) ∧
      (ns.funcs.contains safeName = false → ∀ dot (arg : Expr) v line,
        arg.valueIn ⟨ns.funcs, data⟩ dot = .ok v →
        Interchangeable ⟨ns.funcs, data⟩ dot (.call safeName [arg] line)
          (.literal (.text v.display))) := by
  refine ⟨?_, fun name => ?_, fun hfuncs node dot t ht => ht.text_or_escape hfuncs,
    fun hfuncs dot arg v line hv => ?_⟩
  · exact ((composable_writesOnly _).execute fun node dot t hvisit ht =>
      writesOnly_writeText ⟨node, dot, hvisit, ht⟩).wrote
  · exact ((composable_writesOnly _).executeTemplate fun node dot t hvisit ht =>
      writesOnly_writeText ⟨node, dot, hvisit, ht⟩).wrote
  · exact interchangeable_of_valueIn (Expr.valueIn_safe hfuncs hv line)

/-- A value passed through `safe` is written as it is where the call stands alone, and escaped
by the template that it is given to; a `safe` of the function map takes both away. -/
theorem Namespace.execute_escapes_passed :
    let data : Value := .text "<b>".toList
    let trusted : Expr := .call safeName [.field []] 1
    let ns : Namespace := ⟨Table.empty,
      some [.text "<p>".toList, .output trusted, .template "cell".toList (some trusted)],
      Table.empty.insert "cell".toList [.output (.field [])]⟩
    let own : Namespace :=
      { ns with funcs := Table.empty.insert safeName fun _ args => .ok (args.headD .null) }
    (ns.execute Output.buffer data #[]).1.bytes = Utf8.encode "<p><b>&lt;b&gt;".toList ∧
      ns.funcs.contains safeName = false ∧
      trusted.valueIn ⟨ns.funcs, data⟩ data = .ok data ∧
      Interchangeable ⟨ns.funcs, data⟩ data trusted (.literal data) ∧
      (own.execute Output.buffer data #[]).1.bytes =
        Utf8.encode "<p>&lt;b&gt;&lt;b&gt;".toList ∧
      own.funcs.contains safeName = true ∧
      ∀ (node : Node) dot t, node.Writes ⟨own.funcs, data⟩ dot t →
        node = .text t ∨ ∃ s, t = escape s := by
  intro data trusted ns own
  refine ⟨by decide +kernel, rfl, rfl, ?_, by decide +kernel, rfl, ?_⟩
  · exact (Namespace.execute_escapes ns data).2.2.2 rfl data (.field []) data 1 rfl
  · exact (Namespace.execute_escapes own data).2.2.1 rfl

end PageTemplates.Template
