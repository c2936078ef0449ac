import PageTemplates.Proofs.Except
import PageTemplates.Template.Command

/-!
The grammar of commands.  The words of a command are operands, one of which can be a
command of its own in parentheses; a command is one value, or a known name with
arguments.  Reading accepts exactly the words of a command, and gives what they are.
-/

namespace PageTemplates.Template

section Grammar

variable (known : Text → Bool) (line : Nat)

/-- What an operand is as an argument. -/
inductive ArgumentOf : Operand → Expr → Prop
  | value (e : Expr) : ArgumentOf (.expr e) e
  | call {name : Text} (hknown : known name = true) : ArgumentOf (.name name) (.call name [] line)

/-- What the operands of one command are together. -/
inductive Assembled : List Operand → Expr → Prop
  | value (e : Expr) : Assembled [.expr e] e
  | call {name : Text} {operands : List Operand} {args : List Expr} (hknown : known name = true)
      (hargs : List.Forall₂ (ArgumentOf known line) operands args) :
      Assembled (.name name :: operands) (.call name args line)

/-- Words that stand for some operands, first to last. -/
inductive OperandsOf : List Word → List Operand → Prop
  | nil : OperandsOf [] []
  | name (name : Text) {words operands} (h : OperandsOf words operands) :
      OperandsOf (.name name :: words) (.name name :: operands)
  | field (path : List Text) {words operands} (h : OperandsOf words operands) :
      OperandsOf (.field path :: words) (.expr (.field path) :: operands)
  | root (path : List Text) {words operands} (h : OperandsOf words operands) :
      OperandsOf (.root path :: words) (.expr (.root path) :: operands)
  | literal (value : Value) {words operands} (h : OperandsOf words operands) :
      OperandsOf (.literal value :: words) (.expr (.literal value) :: operands)
  | parens {inner words : List Word} {inside operands : List Operand} {e : Expr}
      (hinner : OperandsOf inner inside) (he : Assembled known line inside e)
      (h : OperandsOf words operands) :
      OperandsOf (.leftParen :: (inner ++ .rightParen :: words)) (.expr e :: operands)

/-- The words of a command, and the expression that they are. -/
def CommandOf (words : List Word) (e : Expr) : Prop :=
  ∃ operands, OperandsOf known line words operands ∧ Assembled known line operands e

/-- The words read so far, where `operands` are those of the current command, last to first, and
`outer` those of the commands around it, innermost first. -/
inductive OpenCommand : List (List Operand) → List Operand → List Word → Prop
  | outermost {words operands} (h : OperandsOf known line words operands.reverse) :
      OpenCommand [] operands words
  | inside {outer around operands words more} (houter : OpenCommand outer around words)
      (h : OperandsOf known line more operands.reverse) :
      OpenCommand (around :: outer) operands (words ++ .leftParen :: more)

end Grammar

variable {known : Text → Bool} {line : Nat}

/-! ## One command -/

theorem call_eq_ok_iff {name : Text} {args : List Expr} {e : Expr} :
    call known line name args = .ok e ↔ known name = true ∧ e = .call name args line := by
  unfold call
  split
  · next h => simp [h, eq_comm]
  · next h => simp [h]

theorem argument_eq_ok_iff {operand : Operand} {e : Expr} :
    argument known line operand = .ok e ↔ ArgumentOf known line operand e := by
  cases operand with
  | name name =>
      rw [argument, call_eq_ok_iff]
      constructor
      · rintro ⟨hknown, rfl⟩
        exact .call hknown
      · intro h
        cases h with
        | call hknown => exact ⟨hknown, rfl⟩
  | expr value =>
      rw [argument, Except.ok.injEq]
      constructor
      · rintro rfl
        exact .value value
      · rintro ⟨⟩
        rfl

theorem assemble_eq_ok_iff {operands : List Operand} {e : Expr} :
    assemble known line operands = .ok e ↔ Assembled known line operands e := by
  constructor
  · intro h
    match operands with
    | [] => cases h
    | [.expr value] =>
        rw [assemble, Except.ok.injEq] at h
        exact h ▸ .value value
    | .expr _ :: _ :: _ => cases h
    | .name name :: rest =>
        simp only [assemble, Except.bind_eq_ok_iff, Except.mapM_eq_ok_iff, call_eq_ok_iff,
          argument_eq_ok_iff] at h
        obtain ⟨args, hargs, hknown, rfl⟩ := h
        exact .call hknown hargs
  · rintro (⟨e⟩ | ⟨hknown, hargs⟩)
    · rfl
    · simp only [assemble, Except.bind_eq_ok_iff, Except.mapM_eq_ok_iff, call_eq_ok_iff,
        argument_eq_ok_iff]
      exact ⟨_, hargs, hknown, rfl⟩

theorem OperandsOf.append {first second : List Word} {operands more : List Operand}
    (hfirst : OperandsOf known line first operands) (hsecond : OperandsOf known line second more) :
    OperandsOf known line (first ++ second) (operands ++ more) := by
  induction hfirst with
  | nil => exact hsecond
  | name name _ ih => exact .name name ih
  | field path _ ih => exact .field path ih
  | root path _ ih => exact .root path ih
  | literal value _ ih => exact .literal value ih
  | parens hinner he _ _ ih =>
      have hparens := OperandsOf.parens hinner he ih
      simpa using hparens

/-! ## Reading -/

namespace OpenCommand

variable {outer : List (List Operand)} {operands around : List Operand} {words more : List Word}

/-- One more operand of the current command. -/
theorem operand {operand : Operand} (h : OpenCommand known line outer operands words)
    (hmore : OperandsOf known line more [operand]) :
    OpenCommand known line outer (operand :: operands) (words ++ more) := by
  cases h with
  | outermost h =>
      apply outermost
      rw [List.reverse_cons]
      exact h.append hmore
  | inside houter h =>
      rw [List.append_assoc, List.cons_append]
      apply inside houter
      rw [List.reverse_cons]
      exact h.append hmore

/-- The current command ends and is an operand of the one around it. -/
theorem close {e : Expr} (h : OpenCommand known line (around :: outer) operands words)
    (he : Assembled known line operands.reverse e) :
    OpenCommand known line outer (.expr e :: around) (words ++ [.rightParen]) := by
  cases h with
  | inside houter h =>
      rw [List.append_assoc, List.cons_append]
      exact houter.operand (.parens h he .nil)

end OpenCommand

theorem commandFrom_sound {outer : List (List Operand)} {operands : List Operand}
    {words : List Word} {e : Expr} (h : commandFrom known line outer operands words = .ok e)
    {before : List Word} (hopen : OpenCommand known line outer operands before) :
    CommandOf known line (before ++ words) e := by
  fun_induction commandFrom known line outer operands words generalizing before with
  | case1 operands =>
      obtain ⟨hwords⟩ := hopen
      rw [List.append_nil]
      exact ⟨_, hwords, assemble_eq_ok_iff.mp h⟩
  | case2 => cases h
  | case3 outer operands rest ih =>
      rw [List.append_cons]
      exact ih h (.inside hopen .nil)
  | case4 operands rest =>
      rw [Except.bind_eq_ok_iff] at h
      obtain ⟨_, -, h⟩ := h
      cases h
  | case5 around outer operands rest ih =>
      rw [Except.bind_eq_ok_iff] at h
      obtain ⟨inner, hinner, h⟩ := h
      rw [List.append_cons]
      exact ih inner h (hopen.close (assemble_eq_ok_iff.mp hinner))
  | case6 outer operands name rest ih =>
      rw [List.append_cons]
      exact ih h (hopen.operand (.name name .nil))
  | case7 outer operands path rest ih =>
      rw [List.append_cons]
      exact ih h (hopen.operand (.field path .nil))
  | case8 outer operands path rest ih =>
      rw [List.append_cons]
      exact ih h (hopen.operand (.root path .nil))
  | case9 outer operands value rest ih =>
      rw [List.append_cons]
      exact ih h (hopen.operand (.literal value .nil))

/-- Reading the words of some operands adds these operands. -/
theorem OperandsOf.commandFrom_append {words : List Word} {operands : List Operand}
    (h : OperandsOf known line words operands) (outer : List (List Operand))
    (before : List Operand) (rest : List Word) :
    commandFrom known line outer before (words ++ rest) =
      commandFrom known line outer (operands.reverse ++ before) rest := by
  induction h generalizing outer before rest with
  | nil => rfl
  | name name _ ih => simp [commandFrom, ih]
  | field path _ ih => simp [commandFrom, ih]
  | root path _ ih => simp [commandFrom, ih]
  | literal value _ ih => simp [commandFrom, ih]
  | parens hinner he _ ihinner ih =>
      rw [List.cons_append, commandFrom, List.append_assoc, ihinner, List.append_nil,
        List.cons_append, commandFrom, List.reverse_reverse, assemble_eq_ok_iff.mpr he]
      simp [Except.bind, ih]

/-- Reading accepts exactly the words of a command. -/
theorem command_eq_ok_iff {words : List Word} {e : Expr} :
    command known line words = .ok e ↔ CommandOf known line words e := by
  constructor
  · intro h
    exact commandFrom_sound h (.outermost .nil)
  · rintro ⟨operands, hwords, he⟩
    have hread := hwords.commandFrom_append [] [] []
    rw [List.append_nil, List.append_nil, commandFrom, List.reverse_reverse] at hread
    exact hread.trans (assemble_eq_ok_iff.mpr he)

end PageTemplates.Template
