import PageTemplates.Proofs.Template.Commands
import PageTemplates.Template.Statement

/-!
The grammar of one action: a keyword with what it takes, or a command whose value is
written.  Reading accepts exactly these, but for a definition that does not stand
outside everything else.
-/

namespace PageTemplates.Template

section Grammar

variable (known : Text → Bool) (line : Nat)

/-- The words of a command that may be missing. -/
inductive OptionalCommandOf : List Word → Option Expr → Prop
  | none : OptionalCommandOf [] none
  | some {words e} (h : CommandOf known line words e) : OptionalCommandOf words (some e)

/-- The words after a keyword, and what they make of it. -/
inductive KeywordActionOf : Keyword → List Word → Action → Prop
  | close : KeywordActionOf .close [] .closes
  | otherwise : KeywordActionOf .otherwise [] .otherwise
  | define (name : Text) : KeywordActionOf .define [.literal (.text name)] (.opens (.define name))
  | block (name : Text) {words arg} (h : OptionalCommandOf known line words arg) :
      KeywordActionOf .block (.literal (.text name) :: words) (.opens (.block name arg))
  | template (name : Text) {words arg} (h : OptionalCommandOf known line words arg) :
      KeywordActionOf .template (.literal (.text name) :: words) (.whole (.template name arg))
  | cond {words e} (h : CommandOf known line words e) :
      KeywordActionOf .cond words (.opens (.cond e))
  | range {words e} (h : CommandOf known line words e) :
      KeywordActionOf .range words (.opens (.range e line))

/-- A keyword as a word. -/
def Keyword.word (keyword : Keyword) : Word :=
  .name keyword.spelling.toList

/-- The words of an action that is well formed by itself: a keyword with what it takes, or a command
whose value is written. -/
inductive ActionOf : List Word → Action → Prop
  | keyword (keyword : Keyword) {words action} (h : KeywordActionOf known line keyword words action) :
      ActionOf (keyword.word :: words) action
  | output {words e} (hwords : ∀ (keyword : Keyword) rest, words ≠ keyword.word :: rest)
      (h : CommandOf known line words e) : ActionOf words (.whole (.output e))

end Grammar

/-- Whether an action may stand where it does: a definition has to be outermost. -/
def Action.Stands (outermost : Bool) : Action → Prop
  | .opens (.define _) => outermost = true
  | _ => True

/-- What a token does to the tree, wherever it stands. -/
inductive Token.Reads (known : Text → Bool) : Token → Action → Prop
  | text (content : Text) : Reads known (.text content) (.whole (.text content))
  | action {body : Text} {line : Nat} {row action} (hwords : words body = .ok row)
      (h : ActionOf known line row action) : Reads known (.action body line) action

variable {known : Text → Bool} {line : Nat} {outermost : Bool}

theorem Keyword.ofWord?_eq_some_iff {word : Text} {keyword : Keyword} :
    ofWord? word = some keyword ↔ word = keyword.spelling.toList := by
  constructor
  · intro h
    have hspelling := List.find?_some h
    exact (beq_iff_eq.mp hspelling).symm
  · rintro rfl
    exact ofWord?_spelling keyword

theorem Keyword.word_injective {keyword other : Keyword} (h : keyword.word = other.word) :
    keyword = other := by
  have hspelling := ofWord?_eq_some_iff.mpr (Word.name.inj h)
  rw [ofWord?_spelling] at hspelling
  exact Option.some.inj hspelling

theorem not_commandOf_nil (e : Expr) : ¬ CommandOf known line [] e := by
  rw [← command_eq_ok_iff]
  rintro ⟨⟩

theorem command?_eq_ok_iff {words : List Word} {arg : Option Expr} :
    command? known line words = .ok arg ↔ OptionalCommandOf known line words arg := by
  cases words with
  | nil =>
      constructor
      · rintro ⟨⟩
        exact .none
      · rintro (_ | h)
        · rfl
        · exact absurd h (not_commandOf_nil _)
  | cons word rest =>
      simp only [command?, List.isEmpty_cons, Bool.false_eq_true, if_false, Except.map_eq_ok_iff,
        command_eq_ok_iff]
      constructor
      · rintro ⟨e, he, rfl⟩
        exact .some he
      · rintro (_ | h)
        exact ⟨_, h, rfl⟩

theorem templateName_eq_ok_iff {keyword : Keyword} {row rest : List Word} {name : Text} :
    templateName keyword row = .ok (name, rest) ↔ row = .literal (.text name) :: rest := by
  constructor
  · intro h
    unfold templateName at h
    split at h
    · obtain ⟨rfl, rfl⟩ := Prod.mk.inj (Except.ok.inj h)
      rfl
    · cases h
  · rintro rfl
    rfl

theorem noMore_eq_ok_iff {keyword : Keyword} {row : List Word} {u : Unit} :
    noMore keyword row = .ok u ↔ row = [] := by
  cases row <;> simp [noMore]

theorem keywordAction_eq_ok_iff {keyword : Keyword} {row : List Word} {action : Action} :
    keywordAction known line outermost keyword row = .ok action ↔
      KeywordActionOf known line keyword row action ∧ action.Stands outermost := by
  cases keyword with
  | close =>
      simp only [keywordAction, Except.map_eq_ok_iff, noMore_eq_ok_iff]
      constructor
      · rintro ⟨-, rfl, rfl⟩
        exact ⟨.close, trivial⟩
      · rintro ⟨⟨⟩, -⟩
        exact ⟨(), rfl, rfl⟩
  | otherwise =>
      simp only [keywordAction, Except.map_eq_ok_iff, noMore_eq_ok_iff]
      constructor
      · rintro ⟨-, rfl, rfl⟩
        exact ⟨.otherwise, trivial⟩
      · rintro ⟨⟨⟩, -⟩
        exact ⟨(), rfl, rfl⟩
  | define =>
      cases outermost with
      | false =>
          constructor
          · rintro ⟨⟩
          · rintro ⟨⟨⟩, ⟨⟩⟩
      | true =>
          simp only [keywordAction, if_true, Except.bind_eq_ok_iff, Except.map_eq_ok_iff,
            noMore_eq_ok_iff, Prod.exists, templateName_eq_ok_iff]
          constructor
          · rintro ⟨name, _, rfl, -, rfl, rfl⟩
            exact ⟨.define name, rfl⟩
          · rintro ⟨⟨⟩, -⟩
            exact ⟨_, _, rfl, (), rfl, rfl⟩
  | block =>
      simp only [keywordAction, Except.bind_eq_ok_iff, Except.map_eq_ok_iff, Prod.exists,
        templateName_eq_ok_iff, command?_eq_ok_iff]
      constructor
      · rintro ⟨name, rest, rfl, arg, harg, rfl⟩
        exact ⟨.block name harg, trivial⟩
      · rintro ⟨h, -⟩
        cases h with
        | block name harg => exact ⟨name, _, rfl, _, harg, rfl⟩
  | template =>
      simp only [keywordAction, Except.bind_eq_ok_iff, Except.map_eq_ok_iff, Prod.exists,
        templateName_eq_ok_iff, command?_eq_ok_iff]
      constructor
      · rintro ⟨name, rest, rfl, arg, harg, rfl⟩
        exact ⟨.template name harg, trivial⟩
      · rintro ⟨h, -⟩
        cases h with
        | template name harg => exact ⟨name, _, rfl, _, harg, rfl⟩
  | cond =>
      simp only [keywordAction, Except.map_eq_ok_iff, command_eq_ok_iff]
      constructor
      · rintro ⟨e, he, rfl⟩
        exact ⟨.cond he, trivial⟩
      · rintro ⟨h, -⟩
        cases h with
        | cond he => exact ⟨_, he, rfl⟩
  | range =>
      simp only [keywordAction, Except.map_eq_ok_iff, command_eq_ok_iff]
      constructor
      · rintro ⟨e, he, rfl⟩
        exact ⟨.range he, trivial⟩
      · rintro ⟨h, -⟩
        cases h with
        | range he => exact ⟨_, he, rfl⟩

theorem actionOf_keyword (keyword : Keyword) (row : List Word) :
    actionOf known line outermost (keyword.word :: row) =
      keywordAction known line outermost keyword row := by
  simp only [Keyword.word, actionOf, Keyword.ofWord?_spelling]

theorem actionOf_command {row : List Word}
    (hrow : ∀ (keyword : Keyword) rest, row ≠ keyword.word :: rest) :
    actionOf known line outermost row =
      (command known line row).map fun e => .whole (.output e) := by
  unfold actionOf
  split
  · rfl
  · next word rest =>
    split
    · next keyword hkeyword =>
      rw [Keyword.ofWord?_eq_some_iff] at hkeyword
      exact absurd (congrArg (Word.name · :: rest) hkeyword) (hrow keyword rest)
    · rfl
  · rfl

theorem actionOf_eq_ok_iff {row : List Word} {action : Action} :
    actionOf known line outermost row = .ok action ↔
      ActionOf known line row action ∧ action.Stands outermost := by
  by_cases hrow : ∃ (keyword : Keyword) (rest : _), row = keyword.word :: rest
  · obtain ⟨keyword, rest, rfl⟩ := hrow
    rw [actionOf_keyword, keywordAction_eq_ok_iff]
    constructor
    · rintro ⟨h, hstands⟩
      exact ⟨.keyword keyword h, hstands⟩
    · rintro ⟨h, hstands⟩
      generalize hwords : keyword.word :: rest = row at h
      cases h with
      | keyword other h =>
          obtain ⟨hword, rfl⟩ := List.cons.inj hwords
          obtain rfl := Keyword.word_injective hword
          exact ⟨h, hstands⟩
      | output hnot => exact absurd hwords.symm (hnot keyword rest)
  · have hnot : ∀ (keyword : Keyword) rest, row ≠ keyword.word :: rest := by
      intro keyword rest heq
      exact hrow ⟨keyword, rest, heq⟩
    rw [actionOf_command hnot]
    simp only [Except.map_eq_ok_iff, command_eq_ok_iff]
    constructor
    · rintro ⟨e, he, rfl⟩
      exact ⟨.output hnot he, trivial⟩
    · rintro ⟨h, -⟩
      cases h with
      | keyword keyword h => exact absurd rfl (hnot keyword _)
      | output _ he => exact ⟨_, he, rfl⟩

theorem readAction_eq_ok_iff {body : Text} {action : Action} :
    readAction known line outermost body = .ok action ↔
      Token.Reads known (.action body line) action ∧ action.Stands outermost := by
  simp only [readAction, Except.mapError_eq_ok_iff, Except.bind_eq_ok_iff, actionOf_eq_ok_iff]
  constructor
  · rintro ⟨row, hwords, h, hstands⟩
    exact ⟨.action hwords h, hstands⟩
  · rintro ⟨hreads, hstands⟩
    cases hreads with
    | action hwords h => exact ⟨_, hwords, h, hstands⟩

end PageTemplates.Template
