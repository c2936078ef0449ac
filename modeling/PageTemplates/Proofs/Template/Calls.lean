import PageTemplates.Proofs.Template.Marks

/-!
Functions and how they fail.  Nothing in an expression fails but its calls, and a call fails with a
reason of the function itself, or else because there is no function of its name.
-/

namespace PageTemplates.Template

mutual
/-- The names of all functions that an expression calls, at any depth. -/
def Expr.functions : Expr → List Text
  | .field _ | .root _ | .literal _ => []
  | .call name args _ => name :: functionsOf args
termination_by structural e => e

def functionsOf : List Expr → List Text
  | [] => []
  | e :: rest => e.functions ++ functionsOf rest
termination_by structural es => es
end

theorem mem_functionsOf_iff {es : List Expr} {name : Text} :
    name ∈ functionsOf es ↔ ∃ e ∈ es, name ∈ e.functions := by
  induction es with
  | nil => simp [functionsOf]
  | cons e rest ih => simp [functionsOf, ih]

variable {scope : Scope} {dot : Value}

mutual
/-- An expression fails where one of its calls does. -/
theorem Expr.exists_apply_of_error : ∀ (e : Expr) (error : RunError),
    e.eval scope dot = .error error → ∃ line name args, name ∈ e.functions ∧
      scope.apply line name args = .error error
  | .field _, _, h | .root _, _, h | .literal _, _, h => by cases h
  | .call name args line, error, h => by
      rw [Expr.eval] at h
      rcases Except.bind_eq_error_iff.mp h with hargs | ⟨vs, -, happly⟩
      · obtain ⟨line, inner, vs, hinner, happly⟩ := exists_apply_of_error_all args error hargs
        exact ⟨line, inner, vs, List.mem_cons_of_mem name hinner, happly⟩
      · exact ⟨line, name, vs, List.mem_cons_self, happly⟩
termination_by structural e => e

theorem exists_apply_of_error_all : ∀ (es : List Expr) (error : RunError),
    evalAll scope dot es = .error error → ∃ line name args, name ∈ functionsOf es ∧
      scope.apply line name args = .error error
  | [], _, h => by cases h
  | e :: rest, error, h => by
      rw [evalAll] at h
      rcases Except.bind_eq_error_iff.mp h with he | ⟨v, -, hrest⟩
      · obtain ⟨line, name, vs, hname, happly⟩ := e.exists_apply_of_error error he
        exact ⟨line, name, vs, List.mem_append_left _ hname, happly⟩
      · obtain ⟨line, name, vs, hname, happly⟩ :=
          exists_apply_of_error_all rest error (Except.map_eq_error_iff.mp hrest)
        exact ⟨line, name, vs, List.mem_append_right _ hname, happly⟩
termination_by structural es => es
end

/-- Whether a function gives a reason why a call of it fails: the one that marks HTML, one of the map,
or a built-in one that the map does not override. -/
inductive GivenBy (scope : Scope) (name : Text) (reason : String) : Prop
  | safe (hname : name = safeName) (hnone : scope.funcs.contains safeName = false)
      (hreason : reason = "safe expects 1 argument")
  | own {f : Function} (hname : scope.funcs.get? name = some f) (args : List Value)
      (hreason : f scope.root args = .error reason)
  | builtin {f : List Value → Except String Value} (hnone : scope.funcs.get? name = none)
      (hname : builtin? name = some f) (args : List Value) (hreason : f args = .error reason)

/-- How a call fails. -/
theorem Scope.exists_reason_of_error {line : Nat} {name : Text} {args : List Result}
    {error : RunError} (h : scope.apply line name args = .error error) :
    ∃ reason, error = .function line name reason ∧
      (GivenBy scope name reason ∨ scope.funcs.knows name = false) := by
  unfold apply at h
  split at h
  · next hsafe =>
    obtain ⟨rfl, hnone⟩ := hsafe
    split at h
    · cases h
    · obtain rfl := Except.error.inj h
      exact ⟨_, rfl, .inl (.safe rfl (by simpa using hnone) rfl)⟩
  · next hsafe =>
    have hne : scope.funcs.get? name = none → name ≠ safeName := by
      rintro hnone rfl
      exact hsafe ⟨rfl, by simp [Table.contains, hnone]⟩
    dsimp only at h
    cases hown : scope.funcs.get? name with
    | some f =>
        simp only [hown, Option.map_some] at h
        split at h
        · cases h
        · next reason hreason =>
          obtain rfl := Except.error.inj h
          exact ⟨reason, rfl, .inl (.own hown _ (Option.some.inj hreason))⟩
        · next hnone => cases hnone
    | none =>
        cases hbuiltin : builtin? name with
        | some f =>
            simp only [hown, hbuiltin] at h
            split at h
            · cases h
            · next reason hreason =>
              obtain rfl := Except.error.inj h
              exact ⟨reason, rfl, .inl (.builtin hown hbuiltin _ (Option.some.inj hreason))⟩
            · next hnone => cases hnone
        | none =>
            simp only [hown, hbuiltin] at h
            obtain rfl := Except.error.inj h
            exact ⟨_, rfl, .inr (by simp [FunctionMap.knows, Table.contains, hown, hbuiltin, hne hown])⟩

/-- What goes wrong in an expression is a call. -/
theorem Expr.exists_function_of_error {e : Expr} {error : RunError}
    (h : e.eval scope dot = .error error) :
    ∃ line name reason, error = .function line name reason ∧ name ∈ e.functions ∧
      (GivenBy scope name reason ∨ scope.funcs.knows name = false) := by
  obtain ⟨line, name, args, hname, happly⟩ := e.exists_apply_of_error error h
  obtain ⟨reason, rfl, hreason⟩ := Scope.exists_reason_of_error happly
  exact ⟨line, name, reason, rfl, hname, hreason⟩

end PageTemplates.Template
