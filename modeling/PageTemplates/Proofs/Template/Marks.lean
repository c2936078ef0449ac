import PageTemplates.Proofs.Except
import PageTemplates.Template.Run

/-!
How far the mark of HTML goes.  Only the outermost part of an expression can put it on a
value, and only a step that writes the value sees it: functions, conditions, loops and
other templates get the value without it.
-/

namespace PageTemplates.Template

/-- Whether the outermost part of an expression is a call of `safe`, where the map of
functions gives that name no other meaning. -/
def Expr.Trusted (funcs : FunctionMap) (e : Expr) : Prop :=
  funcs.contains safeName = false ∧ ∃ args line, e = .call safeName args line

/-- The value of an expression without the mark. -/
def Expr.valueIn (scope : Scope) (dot : Value) (e : Expr) : Except RunError Value :=
  (e.eval scope dot).map Result.value

variable {scope : Scope} {dot : Value}

theorem Expr.valueIn_of_eval {e : Expr} {v : Result} (hv : e.eval scope dot = .ok v) :
    e.valueIn scope dot = .ok v.value := by
  rw [valueIn, hv]
  rfl

theorem Result.marked_eq (v : Result) : v.marked = v.value.display := by
  cases v <;> rfl

/-! ## Functions -/

/-- A function does not see the marks of its arguments. -/
theorem Scope.apply_unmarked (scope : Scope) (line : Nat) (name : Text) (args : List Result) :
    scope.apply line name args =
      scope.apply line name (args.map fun v => .plain v.value) := by
  unfold apply
  split
  · match args with
    | [] => rfl
    | [v] => exact congrArg (Except.ok ∘ Result.html) v.marked_eq
    | _ :: _ :: _ => rfl
  · have hvalues : (args.map fun v => Result.plain v.value).map Result.value =
        args.map Result.value := by
      simp [Result.value, Function.comp_def]
    simp only [hvalues]

theorem Scope.apply_safe (hfuncs : scope.funcs.contains safeName = false) {line : Nat}
    {args : List Result} {v : Result} (hv : scope.apply line safeName args = .ok v) :
    ∃ arg, args = [arg] ∧ v = .html arg.value.display := by
  unfold apply at hv
  rw [if_pos ⟨rfl, by rw [hfuncs]; rfl⟩] at hv
  match args with
  | [] => cases hv
  | [arg] =>
      obtain rfl := Except.ok.inj hv
      exact ⟨arg, rfl, by rw [arg.marked_eq]⟩
  | _ :: _ :: _ => cases hv

theorem Scope.apply_plain {line : Nat} {name : Text}
    (hname : ¬ (name = safeName ∧ scope.funcs.contains safeName = false))
    {args : List Result} {v : Result} (hv : scope.apply line name args = .ok v) :
    v = .plain v.value := by
  have helse : ¬ (name = safeName ∧ (!scope.funcs.contains name) = true) := by
    rintro ⟨rfl, hfuncs⟩
    exact hname ⟨rfl, by simpa using hfuncs⟩
  unfold apply at hv
  rw [if_neg helse] at hv
  dsimp only at hv
  split at hv
  · obtain rfl := Except.ok.inj hv
    rfl
  · cases hv
  · cases hv

/-! ## Expressions -/

/-- Whatever is not a call of `safe` gives its value without a mark. -/
theorem Expr.eval_plain {e : Expr} (he : ¬ e.Trusted scope.funcs) {v : Result}
    (hv : e.eval scope dot = .ok v) : v = .plain v.value := by
  cases e with
  | field path => exact Except.ok.inj hv ▸ rfl
  | root path => exact Except.ok.inj hv ▸ rfl
  | literal value => exact Except.ok.inj hv ▸ rfl
  | call name args line =>
      rw [eval] at hv
      obtain ⟨vs, -, happly⟩ := Except.bind_eq_ok_iff.mp hv
      refine Scope.apply_plain ?_ happly
      rintro ⟨rfl, hfuncs⟩
      exact he ⟨hfuncs, args, line, rfl⟩

/-- The arguments of a function are evaluated one after the other. -/
theorem evalAll_eq_mapM (es : List Expr) :
    evalAll scope dot es = es.mapM (Expr.eval scope dot) := by
  induction es with
  | nil => rw [evalAll]; rfl
  | cons e rest ih =>
      rw [evalAll, List.mapM_cons, ih]
      rfl

/-- A call of `safe` has one argument, whose text it marks. -/
theorem Expr.eval_safe (hfuncs : scope.funcs.contains safeName = false) {args : List Expr}
    {line : Nat} {v : Result} (hv : (Expr.call safeName args line).eval scope dot = .ok v) :
    ∃ arg value, args = [arg] ∧ arg.valueIn scope dot = .ok value ∧
      v = .html value.display := by
  rw [eval, evalAll_eq_mapM] at hv
  obtain ⟨vs, hvs, happly⟩ := Except.bind_eq_ok_iff.mp hv
  obtain ⟨w, rfl, rfl⟩ := Scope.apply_safe hfuncs happly
  match args, Except.mapM_eq_ok_iff.mp hvs with
  | [arg], .cons hw .nil => exact ⟨arg, w.value, rfl, valueIn_of_eval hw, rfl⟩

/-! ## Steps that write -/

/-- What a step can write, when it is run on a value: its text if it is one, and otherwise
the value of its expression, which is escaped unless the expression is a call of `safe`. -/
inductive Node.Writes (scope : Scope) (dot : Value) : Node → Text → Prop
  | text (content : Text) : Writes scope dot (.text content) content
  | escaped {e : Expr} {value : Value} (he : ¬ e.Trusted scope.funcs)
      (hvalue : e.valueIn scope dot = .ok value) :
      Writes scope dot (.output e) (escape value.display)
  | trusted {arg : Expr} {value : Value} {line : Nat}
      (hfuncs : scope.funcs.contains safeName = false)
      (hvalue : arg.valueIn scope dot = .ok value) :
      Writes scope dot (.output (.call safeName [arg] line)) value.display

/-- What a step writes for a value is what it can write. -/
theorem Node.writes_written {e : Expr} {v : Result} (hv : e.eval scope dot = .ok v) :
    (Node.output e).Writes scope dot v.written := by
  by_cases he : e.Trusted scope.funcs
  · obtain ⟨hfuncs, args, line, rfl⟩ := he
    obtain ⟨arg, value, rfl, hvalue, rfl⟩ := Expr.eval_safe hfuncs hv
    exact .trusted hfuncs hvalue
  · rw [Expr.eval_plain he hv]
    exact .escaped he (Expr.valueIn_of_eval hv)

/-- Where the map of functions has a `safe` of its own, no value is written as it is. -/
theorem Node.Writes.text_or_escape {node : Node} {t : Text} (ht : node.Writes scope dot t)
    (hfuncs : scope.funcs.contains safeName = true) :
    node = .text t ∨ ∃ s, t = escape s := by
  cases ht with
  | text => exact .inl rfl
  | escaped he hvalue => exact .inr ⟨_, rfl⟩
  | trusted hnone hvalue =>
      rw [hfuncs] at hnone
      cases hnone

end PageTemplates.Template
